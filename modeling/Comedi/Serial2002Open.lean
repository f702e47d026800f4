import Comedi.ChanlistCheck
import Comedi.Compaction
import Comedi.Serial2002

namespace Comedi.Serial2002Open

open ChanlistCheck Serial2002

abbrev U64 := BitVec 64

structure Config where
  kind : Nat
  bits : Nat
  min : U32
  max : U32
deriving Repr, DecidableEq

inductive Table
  | digInConfig
  | digOutConfig
  | chanInConfig
  | chanOutConfig
deriving Repr, DecidableEq

abbrev Configs := Table → Nat → Config

/-- The tables as `kcalloc` gives them. -/
def noConfigs : Configs := fun _ _ => ⟨0, 0, 0, 0⟩

def channelOf (value : U64) : Nat := (value &&& 0x1f).toNat

def kindOf (value : U64) : Nat := ((value >>> 5) &&& 0x7).toNat

def commandOf (value : U64) : Nat := ((value >>> 8) &&& 0x3).toNat

def curConfig : Nat → Option Table
  | 1 => some .digInConfig
  | 2 => some .digOutConfig
  | 3 => some .chanInConfig
  | 4 => some .chanOutConfig
  | 5 => some .chanInConfig
  | _ => none

/-- A range limit, in millionths. -/
def limitOf (value : U64) : U32 :=
  let unit := ((value >>> 10) &&& 0x7).toNat
  let sign := (value >>> 13) &&& 0x1
  let limit : U32 := ((value >>> 14) &&& 0xfffff).setWidth 32
  let limit := match unit with
    | 0 => limit * 1000000
    | 1 => limit * 1000
    | 2 => limit * 1
    | _ => limit
  if sign ≠ 0 then -limit else limit

def Config.command (c : Config) (value : U64) : Config :=
  match commandOf value with
  | 0 => { c with bits := ((value >>> 10) &&& 0x3f).toNat }
  | 1 => { c with min := limitOf value }
  | 2 => { c with max := limitOf value }
  | _ => c

/-- One configuration message of the device. -/
def configure (configs : Configs) (value : U64) : Configs :=
  match curConfig (kindOf value) with
  | none => configs
  | some table =>
    let c := { configs table (channelOf value) with kind := kindOf value }
    Function.update configs table
      (Function.update (configs table) (channelOf value) (c.command value))

def continues (data : SerialData) : Prop :=
  data.kind = .isChannel ∧ data.index = 31 ∧ data.value &&& 0xe0 ≠ 0

instance (data : SerialData) : Decidable (continues data) :=
  inferInstanceAs (Decidable (_ ∧ _ ∧ _))

theorem readLoop_length {result : SerialData} {length : Nat} {tty : List (BitVec 8)}
    (h : (readLoop result length tty).1.kind ≠ result.kind) :
    (readLoop result length tty).2.length < tty.length := by
  induction tty generalizing result length with
  | nil => exact absurd rfl h
  | cons ch tty ih =>
    unfold readLoop at h ⊢
    dsimp only at h ⊢
    split
    · next hc =>
      rw [if_pos hc] at h
      exact Nat.lt_succ_of_lt (ih h)
    · exact Nat.lt_succ_self _

theorem serialRead_length {tty : List (BitVec 8)} (h : continues (serialRead tty).1) :
    (serialRead tty).2.length < tty.length := by
  apply readLoop_length
  intro he
  have hk : (readLoop ⟨.isInvalid, 0, 0⟩ 0 tty).1.kind = .isChannel := h.1
  rw [hk] at he
  exact absurd he (by decide)

/-- The configuration that the device sends, up to the first message that is none, with what is
left in the line. -/
def readConfig (configs : Configs) (tty : List (BitVec 8)) : Configs × List (BitVec 8) :=
  let data := serialRead tty
  if h : continues data.1 then
    have : data.2.length < tty.length := serialRead_length h
    readConfig (configure configs data.1.value) data.2
  else (configs, data.2)
termination_by tty.length

inductive SubdevIndex
  | digitalIn
  | digitalOut
  | analogIn
  | analogOut
  | encoderIn
deriving Repr, DecidableEq

inductive RangeArray
  | inRange
  | outRange
deriving Repr, DecidableEq

structure Krange where
  min : U32
  max : U32
deriving Repr, DecidableEq

/-- `serial2002_private`: the mapping of a unit is the array that `serial_2002_open` gives the
subdevice. Of the line there are the bytes not yet read and those sent. -/
structure Private where
  tty : Option (List (BitVec 8))
  sent : List (BitVec 8)
  aoReadback : Nat → U32
  mapping : SubdevIndex → Nat → Nat
  range : RangeArray → Nat → Krange

structure Subdev where
  nChan : Nat
  maxdata : U32
  maxdataList : Option (List U32)
  rangeDigital : Bool
  rangeTableList : Option (List Nat)
deriving Repr, DecidableEq

structure Dev where
  devpriv : Private
  subdevices : SubdevIndex → Subdev

def tableOf : SubdevIndex → Table
  | .digitalIn => .digInConfig
  | .digitalOut => .digOutConfig
  | .analogIn => .chanInConfig
  | .analogOut => .chanOutConfig
  | .encoderIn => .chanInConfig

def kindOfSubdev : SubdevIndex → Nat
  | .digitalIn => 1
  | .digitalOut => 2
  | .analogIn => 3
  | .analogOut => 4
  | .encoderIn => 5

def rangeArray : SubdevIndex → Option RangeArray
  | .digitalIn => none
  | .digitalOut => none
  | .analogIn => some .inRange
  | .analogOut => some .outRange
  | .encoderIn => some .inRange

/-- Which allocations succeed. -/
structure Memory where
  configs : Bool
  maxdataList : SubdevIndex → Bool
  rangeTableList : SubdevIndex → Bool

/-- The arrays while a subdevice is filled in. -/
structure Listing where
  chan : Nat
  mapping : Nat → Nat
  range : RangeArray → Nat → Krange
  rangeTableList : List Nat
  maxdataList : List U32

def maxdataOf (c : Config) : U32 := (((1 : U64) <<< c.bits) - 1).setWidth 32

def listRange (array : Option RangeArray) (j : Nat) (c : Config) (l : Listing) : Listing :=
  match array with
  | none => l
  | some a =>
    { l with
      range := Function.update l.range a (Function.update (l.range a) j ⟨c.min, c.max⟩)
      rangeTableList := l.rangeTableList ++ [j] }

def listChannel (u : SubdevIndex) (c : Nat → Config) (l : Listing) (j : Nat) : Listing :=
  if (c j).kind = kindOfSubdev u then
    let l := { l with mapping := Function.update l.mapping l.chan j }
    let l := listRange (rangeArray u) j (c j) l
    { l with maxdataList := l.maxdataList ++ [maxdataOf (c j)], chan := l.chan + 1 }
  else l

def listChannels (u : SubdevIndex) (c : Nat → Config) (l : Listing) : Listing :=
  (List.range 32).foldl (listChannel u c) l

def countChannels (u : SubdevIndex) (c : Nat → Config) : Nat :=
  (List.range 32).countP fun j => (c j).kind = kindOfSubdev u

/-- One round of the loop over the subdevices; `false` is its `break`. -/
def fillIn (mem : Memory) (configs : Configs) (u : SubdevIndex) (d : Dev) : Bool × Dev :=
  let c := configs (tableOf u)
  let s := { d.subdevices u with nChan := countChannels u c, maxdata := 0, maxdataList := none }
  if ¬ mem.maxdataList u then
    (false, { d with subdevices := Function.update d.subdevices u s })
  else
    let s := { s with rangeDigital := (rangeArray u).isNone, rangeTableList := none }
    if (rangeArray u).isSome ∧ ¬ mem.rangeTableList u then
      (false, { d with subdevices := Function.update d.subdevices u s })
    else
      let l := listChannels u c ⟨0, d.devpriv.mapping u, d.devpriv.range, [], []⟩
      let s := { s with
        maxdataList := some l.maxdataList
        rangeTableList := (rangeArray u).map fun _ => l.rangeTableList }
      (true,
        { devpriv := { d.devpriv with
            mapping := Function.update d.devpriv.mapping u l.mapping, range := l.range }
          subdevices := Function.update d.subdevices u s })

def fillAll (mem : Memory) (configs : Configs) : List SubdevIndex → Dev → Bool × Dev
  | [], d => (true, d)
  | u :: us, d =>
    let filled := fillIn mem configs u d
    if filled.1 then fillAll mem configs us filled.2 else filled

def subdevs : List SubdevIndex := [.digitalIn, .digitalOut, .analogIn, .analogOut, .encoderIn]

def freeLists (d : Dev) : Dev :=
  { d with subdevices := fun u =>
      { d.subdevices u with maxdataList := none, rangeTableList := none } }

def Dev.withTty (d : Dev) (tty : Option (List (BitVec 8))) : Dev :=
  { d with devpriv := { d.devpriv with tty } }

def Dev.send (d : Dev) (bytes : List (BitVec 8)) : Dev :=
  { d with devpriv := { d.devpriv with sent := d.devpriv.sent ++ bytes } }

/-- `poll_channel`. -/
def pollChannel (d : Dev) (channel : U32) : Dev :=
  d.send [((0x60 : U32) ||| (channel &&& 0x1f)).setWidth 8]

/-- The port is what `filp_open` gives: an error, or the bytes that come in on the line. -/
def serial2002Open (mem : Memory) (port : Except Int (List (BitVec 8))) (d : Dev) : Int × Dev :=
  match port with
  | .error result => (result, d.withTty none)
  | .ok tty =>
    if ¬ mem.configs then (-enomem, d.withTty none)
    else
      let d := pollChannel (d.withTty (some tty)) 31
      let read := readConfig noConfigs tty
      let filled := fillAll mem read.1 subdevs (d.withTty (some read.2))
      if filled.1 then (0, filled.2) else (-enomem, (freeLists filled.2).withTty none)

structure AoInsn where
  chanspec : U32
  data : List U32
deriving Repr, DecidableEq

def aoWrite (chan : Nat) (d : Dev) (x : U32) : Dev :=
  let d := d.send (serialWrite ⟨.isChannel, BitVec.ofNat 32 chan, x.setWidth 64⟩)
  { d with devpriv := { d.devpriv with
      aoReadback := Function.update d.devpriv.aoReadback chan x } }

def serial2002AoWinsn (d : Dev) (insn : AoInsn) : Dev :=
  insn.data.foldl (aoWrite (d.devpriv.mapping .analogOut (crChan insn.chanspec).toNat)) d

/-- `n` samples read back from a logical channel. -/
def serial2002AoRinsn (d : Dev) (chanspec : U32) (n : Nat) : List U32 :=
  List.replicate n (d.devpriv.aoReadback (crChan chanspec).toNat)

end Comedi.Serial2002Open
