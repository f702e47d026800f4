import Comedi.Instructions
import Mathlib.Data.BitVec

namespace Comedi.Bonding

open Function Instructions

/-- A digital subdevice under the bond: its lines, which of them are outputs, and the word that
its driver makes of the lines, with a bit for each of the first 32. -/
structure DioSub where
  nChan : Nat
  lines : Nat → Bool
  output : Nat → Bool
  word : (Nat → Bool) → U32
  reads : ∀ l i, i < 32 → i < nChan → (word l).getLsbD i = l i

/-- The number of a board with the number of a subdevice. -/
abbrev Key := Nat × Nat

abbrev World := Key → DioSub

/-- `comedi_dio_bitfield` on the subdevice, which returns 2. -/
def DioSub.bitfield (d : DioSub) (mask bits : U32) : U32 × DioSub :=
  let lines i := if i < d.nChan ∧ mask.getLsbD i then bits.getLsbD i else d.lines i
  (d.word lines, { d with lines := lines })

/-- `comedi_dio_config` on the subdevice, which returns 1. -/
def DioSub.config (d : DioSub) (chan : Nat) (output : Bool) : DioSub :=
  { d with output := update d.output chan output }

structure BondedDevice where
  minor : Nat
  subdev : Nat
  nchans : Nat
  chanidOffset : Nat
  deriving DecidableEq, Repr

def BondedDevice.key (b : BondedDevice) : Key := (b.minor, b.subdev)

structure Private where
  devs : List BondedDevice := []
  chanIdDevMap : Nat → Option BondedDevice := fun _ => none
  nchans : Nat := 0

def maxChans : Nat := 256

def comediNumBoardMinors : Nat := 0x30

/-- A store past the end of `chanIdDevMap`. -/
inductive Overrun where
  | chanIdDevMap
  deriving DecidableEq, Repr

def Private.bond (p : Private) (minor subdev nchans : Nat) : Private :=
  let bdev : BondedDevice := ⟨minor, subdev, nchans, p.nchans⟩
  { devs := p.devs ++ [bdev]
    chanIdDevMap := fun c =>
      if p.nchans ≤ c ∧ c < p.nchans + nchans then some bdev else p.chanIdDevMap c
    nchans := p.nchans + nchans }

/-- The numbers of the digital subdevices of a board and of their channels. -/
def dioSubdevices (subdevices : List (Option Nat)) : List (Nat × Nat) :=
  subdevices.zipIdx.filterMap fun (nchans, subdev) => nchans.map (subdev, ·)

def bondSubdevices (minor : Nat) :
    List (Nat × Nat) → Private → Except Overrun (Option Private)
  | [], p => .ok (some p)
  | (subdev, nchans) :: rest, p =>
    if nchans = 0 then .ok none
    else if maxChans < p.nchans + nchans then .error .chanIdDevMap
    else bondSubdevices minor rest (p.bond minor subdev nchans)

/-- The boards by their minors, with the channels of their digital subdevices. -/
abbrev Boards := Nat → Option (List (Option Nat))

def bondBoards (self : Nat) (boards : Boards) :
    List Int → List Nat → Private → Except Overrun (Option Private)
  | [], _, p => .ok (some p)
  | option :: options, opened, p =>
    let minor := option.toNat
    if option < 0 ∨ comediNumBoardMinors ≤ minor then .ok none
    else if minor = self then .ok none
    else if minor ∈ opened then .ok none
    else
      match boards minor with
      | none => .ok none
      | some subdevices => do
        match ← bondSubdevices minor (dioSubdevices subdevices) p with
        | none => .ok none
        | some p => bondBoards self boards options (minor :: opened) p

/-- The options up to the first 0, which may only be the first. -/
def usedOptions : List Int → List Int
  | [] => []
  | option :: options => option :: options.takeWhile (· ≠ 0)

def doDevConfig (self : Nat) (options : List Int) (boards : Boards) :
    Except Overrun (Option Private) := do
  match ← bondBoards self boards (usedOptions options) [] {} with
  | none => .ok none
  | some p => .ok (if p.nchans = 0 then none else some p)

/-- The loop of `bonding_dio_insn_bits` over the bonded subdevices. -/
def bitsLoop (nchans : Nat) : List BondedDevice → Nat → U32 → U32 → World → U32 × World
  | [], _, _, data1, w => (data1, w)
  | bdev :: devs, numDone, data0, data1, w =>
    if numDone < nchans then
      let subdevMask : U32 := if 32 ≤ bdev.nchans then BitVec.allOnes 32
        else BitVec.ofNat 32 (2 ^ bdev.nchans - 1)
      let writeMask := (data0 >>> numDone) &&& subdevMask
      let dataBits := (data1 >>> numDone) &&& subdevMask
      let (dataBits, d) := (w bdev.key).bitfield writeMask dataBits
      let data1 := data1 &&& ~~~(subdevMask <<< numDone)
      let data1 := data1 ||| ((dataBits &&& subdevMask) <<< numDone)
      bitsLoop nchans devs (numDone + bdev.nchans) data0 data1 (update w bdev.key d)
    else (data1, w)

def bondingDioInsnBits (p : Private) (data0 data1 : U32) (w : World) : U32 × World :=
  bitsLoop (if p.nchans < 32 then p.nchans else 32) p.devs 0 data0 data1 w

/-- What `bonding_dio_insn_config` returns, stores in `data[1]` and saves in `io_bits`. The
processor takes the count of a shift modulo 32. -/
def bondingDioInsnConfig (p : Private) (chan : Nat) (data0 : U32) (ioBits : U32) (w : World) :
    Int × Option U32 × U32 × World :=
  let bit := (1 : U32) <<< (chan % 32)
  if p.nchans ≤ chan then (-einval, none, ioBits, w)
  else
    match p.chanIdDevMap chan with
    | none => (-einval, none, ioBits, w)
    | some bdev =>
      let config (output : Bool) := update w bdev.key
        ((w bdev.key).config (chan - bdev.chanidOffset) output)
      if data0 = insnConfigDioOutput then (1, none, ioBits ||| bit, config true)
      else if data0 = insnConfigDioInput then (1, none, ioBits &&& ~~~bit, config false)
      else if data0 = insnConfigDioQuery then
        (2, some (if ioBits &&& bit ≠ 0 then 1 else 0), ioBits, w)
      else (-einval, none, ioBits, w)

/-- `insn_rw_emulate_bits` for `INSN_READ`: the word that is read. -/
def insnRead (p : Private) (chan : Nat) (w : World) : U32 × World :=
  let baseBitfieldChannel := if chan < 32 then 0 else chan
  let (newData1, w) := bondingDioInsnBits p 0 0 w
  ((newData1 >>> (chan - baseBitfieldChannel)) &&& 1, w)

/-- `insn_rw_emulate_bits` for `INSN_WRITE`. -/
def insnWrite (p : Private) (chan : Nat) (data0 : U32) (w : World) : World :=
  let baseBitfieldChannel := if chan < 32 then 0 else chan
  let bit := (1 : U32) <<< (chan - baseBitfieldChannel)
  (bondingDioInsnBits p bit (if data0 ≠ 0 then bit else 0) w).2

/-- `INSN_BITS` as `parse_insn` carries it out: the word in `data[1]` afterwards. -/
def insnBits (p : Private) (chan : Nat) (data0 data1 : U32) (w : World) : U32 × World :=
  let shift := if p.nchans ≤ 32 then chan else 0
  let (data1, w) := bondingDioInsnBits p (data0 <<< shift) (data1 <<< shift) w
  (data1 >>> shift, w)

/-- An instruction for one channel. -/
inductive ChannelOp where
  | read
  | write (data0 : U32)
  | bits (data1 : U32)
  | config (output : Bool)

def OwnedBy (p : Private) (c : Nat) (b : BondedDevice) : Prop :=
  b ∈ p.devs ∧ b.chanidOffset ≤ c ∧ c < b.chanidOffset + b.nchans

/-- The subdevices have the channels that they had when they were bonded. -/
def Matches (w : World) (p : Private) : Prop := ∀ b ∈ p.devs, (w b.key).nChan = b.nchans

def setLine (w : World) (b : BondedDevice) (i : Nat) (v : Bool) : World :=
  update w b.key { w b.key with lines := update (w b.key).lines i v }

/-- The instruction reads or changes the line that the channel stands for, and changes no other. -/
def Routed (p : Private) (c : Nat) (op : ChannelOp) : Prop :=
  ∀ w, Matches w p → ∃ b, OwnedBy p c b ∧
    match op with
    | .read => insnRead p c w = (if (w b.key).lines (c - b.chanidOffset) then 1 else 0, w)
    | .write data0 => insnWrite p c data0 w = setLine w b (c - b.chanidOffset) (data0 ≠ 0)
    | .bits data1 => (insnBits p c 1 data1 w).2 =
          setLine w b (c - b.chanidOffset) (data1.getLsbD 0) ∧
        (insnBits p c 1 data1 w).1.getLsbD 0 = data1.getLsbD 0
    | .config output => ∀ ioBits, ∃ ioBits',
        bondingDioInsnConfig p c (if output then insnConfigDioOutput else insnConfigDioInput)
          ioBits w = (1, none, ioBits',
            update w b.key ((w b.key).config (c - b.chanidOffset) output))

/-- The digital channels of a board, if it can be opened. -/
def boardChannels (boards : Boards) (option : Int) : Nat :=
  match boards option.toNat with
  | none => 0
  | some subdevices => ((dioSubdevices subdevices).map (·.2)).sum

/-- The sum of all channels of the boards. -/
def total (boards : Boards) (options : List Int) : Nat :=
  ((usedOptions options).map (boardChannels boards)).sum

/-- Where the layers agree on the base channel. -/
def Direct (n c : Nat) : ChannelOp → Prop
  | .read | .write _ => c < 32
  | .bits _ => n ≤ 32 ∨ c = 0
  | .config _ => True

end Comedi.Bonding
