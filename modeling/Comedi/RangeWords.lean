import Comedi.BitFields
import Comedi.ChanlistCheck

namespace Comedi.RangeWords

open ChanlistCheck BitFields

inductive SupportLevel where
  | unknownSupport | supported | unsupported
  deriving DecidableEq, Repr

structure Subdinfo where
  type : SubdeviceType
  nChan : Count
  subdFlags : U32
  timerType : U32
  lenChanlist : Count
  maxdata : U32
  flags : U32
  rangeType : U32
  settlingTime0 : U32
  insnBitsSupport : SupportLevel
  deriving DecidableEq, Repr

def timerNanosec : U32 := 5

def subdinfoRangeType (i : Nat) (s : Subdevice) : U32 :=
  match s.rangeTable with
  | some lr => (BitVec.ofNat 32 i <<< 24) ||| ((0 : U32) <<< 16) ||| BitVec.ofNat 32 lr.length
  | none => 0

def flagIf (b : Prop) [Decidable b] (flag : U32) : U32 := if b then flag else 0

/-- One turn of the loop of `do_subdinfo_ioctl`. -/
def subdinfo (i : Nat) (s : Subdevice) (file : File) : Subdinfo where
  type := s.type
  nChan := s.nChan
  subdFlags := s.subdevFlags ||| flagIf (s.runflags &&& srfRunning ≠ 0) sdfRunning |||
    flagIf (s.busy.isSome) sdfBusy ||| flagIf (s.busy = some (.file file)) sdfBusyOwner |||
    flagIf (s.lock.isSome) sdfLocked ||| flagIf (s.lock = some (.file file)) sdfLockOwner |||
    flagIf (s.maxdata = 0 ∧ s.maxdataList.isSome) sdfMaxdata |||
    flagIf (s.flaglist.isSome) sdfFlags ||| flagIf (s.rangeTableList.isSome) sdfRangetype |||
    flagIf s.doCmd sdfCmd
  timerType := timerNanosec
  lenChanlist := s.lenChanlist
  maxdata := s.maxdata
  flags := s.flags
  rangeType := subdinfoRangeType i s
  settlingTime0 := s.settlingTime0
  insnBitsSupport := if s.insnBits then .supported else .unsupported

/-- The return value and the array at `arg`. -/
def doSubdinfoIoctl (dev : Device) (file : File) (kcalloc copied : Bool) : Int × List Subdinfo :=
  if ¬ kcalloc then (-enomem, [])
  else if copied then (0, dev.subdevices.mapIdx fun i s => subdinfo i s file)
  else (-efault, [])

/-- `comedi_chaninfo`, with the addresses of the lists, 0 for NULL. -/
structure Chaninfo where
  subdev : U32
  maxdataList : Nat := 0
  flaglist : Nat := 0
  rangelist : Nat := 0
  deriving DecidableEq, Repr

def chaninfoWord (dev : Device) (subdev : U32) (c : Nat) (length : Nat) : U32 :=
  (BitVec.ofInt 32 dev.minor <<< 28) ||| (subdev <<< 24) ||| (BitVec.ofNat 32 c <<< 16) |||
    BitVec.ofNat 32 length

/-- The words that `do_chaninfo_ioctl` puts at `rangelist`. -/
def chaninfoWords (dev : Device) (subdev : U32) (s : Subdevice) (tables : List Lrange) : List U32 :=
  (List.range s.nChan).map fun c =>
    chaninfoWord dev subdev c ((tables[c]?).elim 0 fun lr => lr.length)

structure ChaninfoOut where
  maxdata : List U32 := []
  flags : List U32 := []
  ranges : List U32 := []
  deriving DecidableEq, Repr

/-- The three parts of `do_chaninfo_ioctl`, in their order. `copied` says whether the user's memory
at an address takes a list. -/
def chaninfoMaxdata (s : Subdevice) (it : Chaninfo) (copied : Nat → Bool) :
    Except Int (List U32) :=
  if it.maxdataList = 0 then .ok []
  else
    match s.maxdataList with
    | none => .error (-einval)
    | some maxdata =>
      if s.maxdata ≠ 0 then .error (-einval)
      else if copied it.maxdataList then .ok (maxdata.take s.nChan) else .error (-efault)

def chaninfoFlags (s : Subdevice) (it : Chaninfo) (copied : Nat → Bool) : Except Int (List U32) :=
  if it.flaglist = 0 then .ok []
  else
    match s.flaglist with
    | none => .error (-einval)
    | some flags => if copied it.flaglist then .ok (flags.take s.nChan) else .error (-efault)

def chaninfoRanges (dev : Device) (s : Subdevice) (it : Chaninfo) : Except Int (List U32) :=
  if it.rangelist = 0 then .ok []
  else
    match s.rangeTableList with
    | none => .error (-einval)
    | some tables => .ok (chaninfoWords dev it.subdev s tables)

def doChaninfoIoctl (dev : Device) (it : Option Chaninfo) (copied : Nat → Bool) :
    Int × ChaninfoOut :=
  match it with
  | none => (-efault, {})
  | some it =>
    match dev.subdevices[it.subdev.toNat]? with
    | none => (-einval, {})
    | some s =>
      match chaninfoMaxdata s it copied with
      | .error e => (e, {})
      | .ok maxdata =>
        match chaninfoFlags s it copied with
        | .error e => (e, { maxdata := maxdata })
        | .ok flags =>
          match chaninfoRanges dev s it with
          | .error e => (e, { maxdata := maxdata, flags := flags })
          | .ok ranges => (0, { maxdata := maxdata, flags := flags, ranges := ranges })

def rangeinfoSubd (rangeType : U32) : Nat := ((rangeType >>> 24) &&& 0xf).toNat

def rangeinfoChan (rangeType : U32) : Nat := ((rangeType >>> 16) &&& 0xff).toNat

def rangeLengthField (rangeType : U32) : Nat := (rangeType &&& 0xffff).toNat

/-- The table of a place, as `do_rangeinfo_ioctl` looks it up. -/
def tableAt (dev : Device) (subd chan : Nat) : Option Lrange :=
  (dev.subdevices[subd]?).bind fun s =>
    match s.rangeTable with
    | some lr => some lr
    | none => if s.nChan ≤ chan then none else s.rangeTableList.bind (·[chan]?)

/-- `comedi_rangeinfo`, with the address of the user's array. -/
structure Rangeinfo where
  rangeType : U32
  rangePtr : Nat := 0
  deriving DecidableEq, Repr

/-- On success, the table whose ranges were copied to `range_ptr`. -/
def doRangeinfoIoctl (dev : Device) (it : Option Rangeinfo) (copied : Nat → Bool) :
    Except Int Lrange :=
  match it with
  | none => .error (-efault)
  | some it =>
    if ¬ dev.attached then .error (-einval)
    else
      match tableAt dev (rangeinfoSubd it.rangeType) (rangeinfoChan it.rangeType) with
      | none => .error (-einval)
      | some lr =>
        if rangeLengthField it.rangeType ≠ lr.length then .error (-einval)
        else if copied it.rangePtr then .ok lr else .error (-efault)

/-- The table `check_chanlist` uses for a channel. -/
def usedTable (s : Subdevice) (c : Nat) : Option Lrange :=
  match s.rangeTable with
  | some lr => some lr
  | none => s.rangeTableList.bind (·[c]?)

/-- A word that one of the two requests has given for channel `c` of subdevice `i`, with the
channel and the length that were put into it. -/
inductive RangeWord (dev : Device) (i c : Nat) : U32 → Nat → Nat → Prop where
  | subdinfo {s : Subdevice} {lr : Lrange} {file : File} {us : List Subdinfo} {u : Subdinfo}
      (hs : dev.subdevices[i]? = some s) (hlr : s.rangeTable = some lr)
      (hus : doSubdinfoIoctl dev file true true = (0, us)) (hu : us[i]? = some u) :
      RangeWord dev i c u.rangeType 0 lr.length
  | chaninfo {s : Subdevice} {tables : List Lrange} {lr : Lrange} {it : Chaninfo}
      {copied : Nat → Bool} {out : ChaninfoOut} {w : U32} (hs : dev.subdevices[i]? = some s)
      (hlist : s.rangeTableList = some tables) (hlr : tables[c]? = some lr)
      (hi : it.subdev.toNat = i) (hout : doChaninfoIoctl dev (some it) copied = (0, out))
      (hw : out.ranges[c]? = some w) : RangeWord dev i c w c lr.length

def usedTableAt (dev : Device) (i c : Nat) : Option Lrange :=
  (dev.subdevices[i]?).bind fun s => usedTable s c

/-- Where the user's memory takes it, the word gives back the table that is in use for channel `c`
of subdevice `i`. -/
def Decodes (dev : Device) (i c : Nat) (w : U32) : Prop :=
  ∃ lr, usedTableAt dev i c = some lr ∧
    doRangeinfoIoctl dev (some ⟨w, 0⟩) (fun _ => true) = .ok lr

/-- The length of the table in use fits the 16 bits, and where the subdevice does not fit 4 bits or
the channel 8, the place that is left of them has the same table. -/
structure Fits (dev : Device) (i c k len : Nat) : Prop where
  length : ∀ lr, usedTableAt dev i c = some lr → lr.length = len % 2 ^ 16
  place : tableAt dev ((i ||| k / 2 ^ 8 ||| len / 2 ^ 24) % 2 ^ 4)
    ((k ||| len / 2 ^ 16) % 2 ^ 8) = usedTableAt dev i c

variable {dev : Device} {s : Subdevice} {lr : Lrange} {i c k len : Nat} {w : U32}

theorem rangeinfo_fields (w : U32) : rangeinfoSubd w = field w 24 4 ∧
    rangeinfoChan w = field w 16 8 ∧ rangeLengthField w = field w 0 16 := by
  refine ⟨toNat_shift_and w 24 4 (by decide), toNat_shift_and w 16 8 (by decide), ?_⟩
  have h := toNat_shift_and w 0 16 (by decide)
  rwa [BitVec.ushiftRight_zero] at h

theorem subd_field (v : Nat) : v * 2 ^ 24 % 2 ^ 32 / 2 ^ 24 % 2 ^ 4 = v % 2 ^ 4 := by omega

theorem chan_spill (v : Nat) : v * 2 ^ 16 % 2 ^ 32 / 2 ^ 24 % 2 ^ 4 = v / 2 ^ 8 % 2 ^ 4 := by omega

theorem chan_field (v : Nat) : v * 2 ^ 16 % 2 ^ 32 / 2 ^ 16 % 2 ^ 8 = v % 2 ^ 8 := by omega

/-- What `do_rangeinfo_ioctl` finds in a word that was put together from a subdevice, a channel and
a length, with any number in the four bits above. -/
theorem fields_of_word {x : U32} (hx : ∀ lo n, lo + n ≤ 28 → field x lo n = 0)
    (hlen : len < 2 ^ 31)
    (hw : w = x ||| (BitVec.ofNat 32 i <<< 24) ||| (BitVec.ofNat 32 k <<< 16) |||
      BitVec.ofNat 32 len) :
    rangeinfoSubd w = (i ||| k / 2 ^ 8 ||| len / 2 ^ 24) % 2 ^ 4 ∧
      rangeinfoChan w = (k ||| len / 2 ^ 16) % 2 ^ 8 ∧ rangeLengthField w = len % 2 ^ 16 := by
  have hlt : len < 2 ^ 32 := hlen.trans (by decide)
  obtain ⟨h₁, h₂, h₃⟩ := rangeinfo_fields w
  rw [h₁, h₂, h₃, hw]
  simp only [field_or, field_ofNat hlt]
  refine ⟨?_, ?_, ?_⟩
  · rw [hx 24 4 (by decide), field_shiftLeft, field_shiftLeft, subd_field, chan_spill, Nat.zero_or,
      Nat.or_mod_two_pow, Nat.or_mod_two_pow]
  · rw [hx 16 8 (by decide), field_shiftLeft_below _ (by decide) (by decide), field_shiftLeft,
      chan_field, Nat.zero_or, Nat.zero_or, Nat.or_mod_two_pow]
  · rw [hx 0 16 (by decide), field_shiftLeft_below _ (by decide) (by decide),
      field_shiftLeft_below _ (by decide) (by decide), Nat.zero_or, Nat.zero_or, Nat.zero_or,
      Nat.pow_zero, Nat.div_one]

theorem chaninfo_ranges {it : Chaninfo} {copied : Nat → Bool} {out : ChaninfoOut}
    {tables : List Lrange} (hs : dev.subdevices[it.subdev.toNat]? = some s)
    (hlist : s.rangeTableList = some tables)
    (hout : doChaninfoIoctl dev (some it) copied = (0, out)) (hw : out.ranges[c]? = some w) :
    w = chaninfoWord dev it.subdev c ((tables[c]?).elim 0 fun lr => lr.length) := by
  have hranges : out.ranges = [] ∨ out.ranges = chaninfoWords dev it.subdev s tables := by
    simp only [doChaninfoIoctl, hs] at hout
    split at hout
    · cases hout
      exact .inl rfl
    split at hout
    · cases hout
      exact .inl rfl
    split at hout
    · cases hout
      exact .inl rfl
    next ranges hr =>
    cases hout
    rw [chaninfoRanges, hlist] at hr
    split at hr
    · cases hr
      exact .inl rfl
    · cases hr
      exact .inr rfl
  rcases hranges with he | he
  · rw [he] at hw
    cases hw
  · rw [he, chaninfoWords, List.getElem?_map] at hw
    obtain ⟨c', hc, rfl⟩ := Option.map_eq_some_iff.mp hw
    obtain ⟨hlt, hget⟩ := List.getElem?_eq_some_iff.mp hc
    rw [List.getElem_range] at hget
    rw [hget]

theorem fields_of_rangeWord (h : RangeWord dev i c w k len) :
    rangeinfoSubd w = (i ||| k / 2 ^ 8 ||| len / 2 ^ 24) % 2 ^ 4 ∧
      rangeinfoChan w = (k ||| len / 2 ^ 16) % 2 ^ 8 ∧ rangeLengthField w = len % 2 ^ 16 := by
  cases h with
  | @subdinfo s lr file us u hs hlr hus hu =>
    have hz : ∀ lo n, lo + n ≤ 28 → field 0#32 lo n = 0 := by
      intro lo n _
      rw [field, BitVec.toNat_ofNat, Nat.zero_mod, Nat.zero_div, Nat.zero_mod]
    refine fields_of_word hz lr.length.isLt ?_
    rw [doSubdinfoIoctl] at hus
    cases hus
    rw [List.getElem?_mapIdx, hs] at hu
    cases hu
    change subdinfoRangeType i s = _
    rw [subdinfoRangeType, hlr, BitVec.zero_or]
    rfl
  | @chaninfo s tables lr it copied out w hs hlist hlr hi hout hw =>
    have hz : ∀ lo n, lo + n ≤ 28 → field (BitVec.ofInt 32 dev.minor <<< 28) lo n = 0 :=
      fun lo n hle => field_shiftLeft_below _ hle (by decide)
    refine fields_of_word hz lr.length.isLt ?_
    subst hi
    rw [chaninfo_ranges hs hlist hout hw, chaninfoWord, hlr, BitVec.ofNat_toNat,
      BitVec.setWidth_eq]
    rfl

theorem used_of_rangeWord (h : RangeWord dev i c w k len) : ∃ lr, usedTableAt dev i c = some lr := by
  cases h with
  | @subdinfo s lr file us u hs hlr hus hu =>
    exact ⟨lr, by rw [usedTableAt, hs, Option.bind_some, usedTable, hlr]⟩
  | @chaninfo s tables lr it copied out w hs hlist hlr hi hout hw =>
    rw [usedTableAt, hs, Option.bind_some, usedTable]
    cases s.rangeTable with
    | some lr' => exact ⟨lr', rfl⟩
    | none => exact ⟨lr, by dsimp only; rw [hlist, Option.bind_some, hlr]⟩

/-- A word gives the table in use back exactly where its fields fit. -/
theorem rangeWord_decodes_iff (hatt : dev.attached = true) (hw : RangeWord dev i c w k len) :
    Decodes dev i c w ↔ Fits dev i c k len := by
  obtain ⟨h₁, h₂, h₃⟩ := fields_of_rangeWord hw
  obtain ⟨lr, hlr⟩ := used_of_rangeWord hw
  unfold Decodes doRangeinfoIoctl
  dsimp only
  rw [if_neg (not_not.mpr hatt), h₁, h₂, h₃]
  constructor
  · rintro ⟨lr', hlr', h⟩
    split at h
    · cases h
    next lr'' hat =>
    split at h
    · cases h
    next hlen =>
    cases h
    refine ⟨fun lr₁ h₁ => ?_, hat.trans hlr'.symm⟩
    cases hlr'.symm.trans h₁
    exact (not_not.mp hlen).symm
  · intro h
    refine ⟨lr, hlr, ?_⟩
    rw [h.place, hlr]
    dsimp only
    rw [if_neg (not_not.mpr (h.length lr hlr).symm), if_pos rfl]

def unipolar5 : Lrange := { length := 1, range := [⟨0, 5000000, 0⟩] }

def bipolar10 : Lrange := { length := 1, range := [⟨-10000000, 10000000, 0⟩] }

/-- A device whose last subdevice has another range than the first. -/
def ranged (n : Nat) : Device where
  subdevices := { nChan := 8, rangeTable := some bipolar10 } ::
    (List.replicate n {} ++ [{ nChan := 8, rangeTable := some unipolar5 }])

theorem decodes_of_second : Decodes (ranged 0) 1 3 0x01000001 := by
  have hw : RangeWord (ranged 0) 1 3 0x01000001 0 1 :=
    @RangeWord.subdinfo _ _ _ _ unipolar5 0 _
      (subdinfo 1 { nChan := 8, rangeTable := some unipolar5 } 0) rfl rfl rfl rfl
  refine (rangeWord_decodes_iff rfl hw).mpr ⟨?_, rfl⟩
  rintro lr hlr
  cases hlr
  rfl

/-- One with a table of its own for each of 300 channels. -/
def rangedChannels : Device where
  subdevices := [{
    nChan := 300
    rangeTableList := some (List.replicate 256 bipolar10 ++ List.replicate 44 unipolar5) }, {
    nChan := 1
    rangeTable := some bipolar10 }]

set_option maxRecDepth 4000 in
/-- The word of subdevice 16 gives the table of subdevice 0, and that of channel 256 the one of
another subdevice. -/
theorem large_fields_wrap :
    (RangeWord (ranged 15) 16 0 0x10000001 0 1 ∧ usedTableAt (ranged 15) 16 0 = some unipolar5 ∧
      doRangeinfoIoctl (ranged 15) (some ⟨0x10000001, 0⟩) (fun _ => true) = .ok bipolar10 ∧
      ¬ Decodes (ranged 15) 16 0 0x10000001) ∧
      RangeWord rangedChannels 0 256 0x01000001 256 1 ∧
      usedTableAt rangedChannels 0 256 = some unipolar5 ∧
      doRangeinfoIoctl rangedChannels (some ⟨0x01000001, 0⟩) (fun _ => true) = .ok bipolar10 ∧
      ¬ Decodes rangedChannels 0 256 0x01000001 := by
  have hne : bipolar10 ≠ unipolar5 := by decide
  have hno : ∀ (dev : Device) (i c : Nat) (w : U32), usedTableAt dev i c = some unipolar5 →
      doRangeinfoIoctl dev (some ⟨w, 0⟩) (fun _ => true) = .ok bipolar10 → ¬ Decodes dev i c w := by
    rintro dev i c w hu hd ⟨lr, hlr, hok⟩
    cases hu.symm.trans hlr
    exact hne (Except.ok.inj (hd.symm.trans hok))
  refine ⟨⟨?_, rfl, rfl, hno _ _ _ _ rfl rfl⟩, ?_, rfl, rfl, hno _ _ _ _ rfl rfl⟩
  · exact @RangeWord.subdinfo _ _ _ _ unipolar5 0 _
      (subdinfo 16 { nChan := 8, rangeTable := some unipolar5 } 0) rfl rfl rfl rfl
  · exact @RangeWord.chaninfo _ _ _ _ _ unipolar5 { subdev := 0, rangelist := 4096 }
      (fun _ => true) _ _ rfl rfl rfl rfl rfl rfl

end Comedi.RangeWords
