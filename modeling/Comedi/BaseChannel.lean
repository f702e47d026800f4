import Comedi.Instructions

namespace Comedi.BaseChannel

open ChanlistCheck Instructions RunState Function

abbrev Lines := Nat → Bool

/-- An `insn_bits` of a driver: for a chanspec and the two words, what it returns, the words
afterwards, and the lines. -/
abbrev BitsDriver := U32 → U32 → U32 → Lines → Int × (U32 × U32) × Lines

/-- What `insn_bits` is documented to do, if it succeeds: on channel 0 the masked channels are
written, and the states of all channels are returned. -/
structure Documented (nChan : Nat) (d : BitsDriver) : Prop where
  channel : ∀ chanspec, crChan chanspec = 0 → d chanspec = d 0
  writes : ∀ mask bits l, 0 ≤ (d 0 mask bits l).1 → ∀ j < nChan,
    (d 0 mask bits l).2.2 j = if mask.getLsbD j then bits.getLsbD j else l j
  reads : ∀ mask bits l, 0 ≤ (d 0 mask bits l).1 → ∀ j < nChan, j < 32 →
    (d 0 mask bits l).2.1.2.getLsbD j = (d 0 mask bits l).2.2 j

/-- The call of the driver that `parse_insn` makes for `INSN_BITS`, or that `insn_rw_emulate_bits`
makes for another instruction. -/
def driverCall (d : BitsDriver) (s : Subdevice) (insn : Insn) (data : Nat → U32) :
    Lines → Int × (U32 × U32) × Lines :=
  if insn.insn = insnBits then
    let shift := bitShift s insn
    let words := shiftIn shift data
    d (if 0 < shift then 0 else insn.chanspec) (words 0) (words 1)
  else
    let chan := crChan insn.chanspec
    let baseBitfieldChannel := if chan < 32 then 0 else chan
    let bit := (1 : U32) <<< (chan - baseBitfieldChannel).toNat
    if insn.insn = insnWrite then d baseBitfieldChannel bit (if data 0 ≠ 0 then bit else 0)
    else d baseBitfieldChannel 0 0

def isBitsCall : Call → Bool
  | .insnBits => true
  | _ => false

structure Outcome where
  ret : Int
  data : Nat → U32
  lines : Lines

def answerOf (r : Int × (U32 × U32) × Lines) : InsnAnswer where
  ret := r.1
  words := update (update (fun _ => none) 0 (some r.2.1.1)) 1 (some r.2.1.2)

/-- An instruction for the subdevice, whose `insn_bits` is the driver's. -/
def parse (d : BitsDriver) (s : Subdevice) (insn : Insn) (data : Nat → U32) (file : File)
    (l : Lines) : Outcome :=
  let r := driverCall d s insn data l
  let out := subdeviceInsn s { insn := insn, answer := answerOf r } data file
  { ret := out.1
    data := out.2.1
    lines := if out.2.2.2.any isBitsCall then r.2.2 else l }

section Instructions

variable (d : BitsDriver) (s : Subdevice) (chanspec : U32) (data : Nat → U32) (file : File) (l : Lines)

def parseBits : Outcome := parse d s { insn := insnBits, n := 2, chanspec := chanspec } data file l

def parseRead : Outcome := parse d s { insn := insnRead, n := 1, chanspec := chanspec } data file l

def parseWrite : Outcome :=
  parse d s { insn := insnWrite, n := 1, chanspec := chanspec } data file l

end Instructions

/-- The subdevice takes instructions for the chanspec from the file. -/
structure Admits (s : Subdevice) (chanspec : U32) (file : File) : Prop where
  used : s.type ≠ .unused
  unlocked : ¬ s.lockedOut file
  chanspec : ¬ checkChanlist s [chanspec] < 0
  idle : ¬ s.busy.isSome

def words (mask bits : U32) : Nat → U32 := update (update (fun _ => 0) 0 mask) 1 bits

/-- The instruction has the effect of `INSN_BITS`, and fails as it does. -/
structure SameEffect (o bits : Outcome) : Prop where
  lines : o.lines = bits.lines
  failed : bits.ret < 0 → o.ret = bits.ret
  succeeded : 0 ≤ bits.ret → o.ret = 1

variable {d : BitsDriver} {s : Subdevice} {chanspec : U32} {file : File} {l : Lines}
  {data : Nat → U32}

theorem Admits.chan_lt (h : Admits s chanspec file) : (crChan chanspec).toNat < s.nChan := by
  have hok := checkChanlist_nonneg.mp h.chanspec chanspec (List.mem_singleton_self _)
  unfold chanspecOk at hok
  exact (of_decide_eq_true hok).1

theorem Admits.parse_eq (h : Admits s chanspec file) {insn : Insn} (hspec : insn.chanspec = chanspec)
    {r : Int × (U32 × U32) × Lines} (hcall : driverCall d s insn data l = r) {ret : Int}
    {out : Nat → U32} {calls : List Call}
    (hrun : runInsn { s with busy := some .parseInsn } { insn := insn, answer := answerOf r } data =
      (ret, out, calls)) :
    parse d s insn data file l = ⟨ret, out, if calls.any isBitsCall then r.2.2 else l⟩ := by
  have hsub : subdeviceInsn s { insn := insn, answer := answerOf r } data file =
      (ret, out, { s with busy := none }, calls) := by
    unfold subdeviceInsn
    rw [if_neg h.used, if_neg h.unlocked, hspec, if_neg h.chanspec, if_neg h.idle, hrun]
  unfold parse
  dsimp only
  rw [hcall, hsub]

section Run

variable (r : Int × (U32 × U32) × Lines) (data : Nat → U32)

theorem runInsn_bits (hn : s.nChan.val ≤ 32) (hbits : s.insnBits = true) :
    runInsn s { insn := { insn := insnBits, n := 2, chanspec := chanspec }, answer := answerOf r }
        data =
      (r.1, shiftOut (crChan chanspec).toNat (update (store (answerOf r).words
        (shiftIn (crChan chanspec).toNat data)) 0 (data 0)), [.insnBits]) := by
  have hshift (n : U32) : bitShift s { insn := insnBits, n := n, chanspec := chanspec } =
      (crChan chanspec).toNat := if_pos hn
  unfold runInsn
  dsimp only
  rw [if_neg (by decide), if_neg (by decide), if_pos rfl]
  unfold bitsInsn callBits
  dsimp only
  rw [if_neg (by decide), if_pos hbits, hshift]
  rfl

theorem runInsn_read (hread : s.insnRead = .emulateBits) (hbits : s.insnBits = true)
    (hc : crChan chanspec < 32) :
    runInsn s { insn := { insn := insnRead, n := 1, chanspec := chanspec }, answer := answerOf r }
        data =
      if r.1 < 0 then (r.1, data, [.insnBits])
      else (1, update data 0 ((r.2.1.2 >>> (crChan chanspec).toNat) &&& 1), [.insnBits]) := by
  have hbase : (crChan chanspec - 0).toNat = (crChan chanspec).toNat :=
    congrArg BitVec.toNat (BitVec.sub_zero _)
  unfold runInsn callRw
  dsimp only
  rw [if_pos rfl, hread]
  unfold insnRwEmulateBits
  dsimp only
  rw [if_neg fun h => absurd h.1 (by decide), if_neg (by decide), if_pos hbits, if_pos hc, hbase,
    if_pos rfl]
  rfl

theorem runInsn_write (hwrite : s.insnWrite = .emulateBits) (hbits : s.insnBits = true)
    (hwritable : s.subdevFlags &&& sdfWritable ≠ 0)
    (hmax : ¬ maxdataOf s { insn := insnWrite, n := 1, chanspec := chanspec } < data 0) :
    runInsn s { insn := { insn := insnWrite, n := 1, chanspec := chanspec }, answer := answerOf r }
        data =
      if r.1 < 0 then (r.1, data, [.insnBits]) else (1, data, [.insnBits]) := by
  have hany : ((List.range (1 : U32).toNat).any fun i =>
      maxdataOf s { insn := insnWrite, n := 1, chanspec := chanspec } < data i) ≠ true := by
    rw [Ne, List.any_eq_true]
    rintro ⟨i, hi, hlt⟩
    have hi : i = 0 := Nat.lt_one_iff.mp (List.mem_range.mp hi)
    rw [hi] at hlt
    exact hmax (of_decide_eq_true hlt)
  unfold runInsn callRw
  dsimp only
  rw [if_neg (by decide), if_pos rfl, if_neg hany, hwrite]
  unfold insnRwEmulateBits
  dsimp only
  rw [if_neg fun h => hwritable h.2, if_neg (by decide), if_pos hbits]
  exact if_congr Iff.rfl rfl (if_neg (by decide))

end Run

section Calls

variable (h : Admits s chanspec file) (hn : s.nChan.val ≤ 32) (hbits : s.insnBits = true)
  (hdoc : Documented s.nChan d)
include h hn

theorem chan_lt : crChan chanspec < 32 := by
  have hlt := h.chan_lt
  rw [BitVec.lt_def]
  exact Nat.lt_of_lt_of_le hlt hn

omit h in
include hdoc in
theorem driverCall_bits : driverCall d s { insn := insnBits, n := 2, chanspec := chanspec } data l =
    d 0 (data 0 <<< (crChan chanspec).toNat) (data 1 <<< (crChan chanspec).toNat) l := by
  have hshift (n : U32) : bitShift s { insn := insnBits, n := n, chanspec := chanspec } =
      (crChan chanspec).toNat := if_pos hn
  unfold driverCall
  rw [if_pos rfl]
  dsimp only
  rw [hshift]
  unfold shiftIn
  split
  · rw [update_of_ne (by decide), update_self, update_self]
  · next hzero =>
    have hz : (crChan chanspec).toNat = 0 := Nat.eq_zero_of_not_pos hzero
    rw [hz, BitVec.shiftLeft_zero, BitVec.shiftLeft_zero,
      hdoc.channel chanspec (BitVec.eq_of_toNat_eq hz)]

include hbits hdoc in
theorem parse_bits (data : Nat → U32) :
    let r := d 0 (data 0 <<< (crChan chanspec).toNat) (data 1 <<< (crChan chanspec).toNat) l
    let o := parseBits d s chanspec data file l
    o.ret = r.1 ∧ o.data 0 = data 0 ∧ o.data 1 = r.2.1.2 >>> (crChan chanspec).toNat ∧
      o.lines = r.2.2 := by
  intro r o
  have ho : o = _ := h.parse_eq rfl (driverCall_bits hn hdoc)
    (runInsn_bits (s := { s with busy := some .parseInsn }) r data hn hbits)
  rw [ho]
  refine ⟨rfl, ?_, ?_, rfl⟩
  · dsimp only
    unfold shiftOut
    split
    · rw [update_of_ne (by decide), update_self]
    · rw [update_self]
  · dsimp only
    have hword : update (store (answerOf r).words (shiftIn (crChan chanspec).toNat data)) 0 (data 0) 1
        = r.2.1.2 := by
      rw [update_of_ne (by decide)]
      rfl
    unfold shiftOut
    split
    · rw [update_self, hword]
    · next hzero =>
      rw [Nat.eq_zero_of_not_pos hzero] at hword ⊢
      exact hword.trans (BitVec.ushiftRight_zero _).symm

omit h hn in
theorem shiftLeft_getLsbD (x : U32) {j : Nat} (hj : j < 32) :
    (x <<< (crChan chanspec).toNat).getLsbD j =
      (decide ((crChan chanspec).toNat ≤ j) && x.getLsbD (j - (crChan chanspec).toNat)) := by
  rw [BitVec.getLsbD_shiftLeft, decide_eq_true hj, Bool.true_and]
  by_cases hle : (crChan chanspec).toNat ≤ j
  · rw [decide_eq_true hle, decide_eq_false (Nat.not_lt.mpr hle), Bool.not_false]
  · rw [decide_eq_false hle, decide_eq_true (Nat.lt_of_not_le hle), Bool.not_true]

include hbits hdoc in
/-- `INSN_BITS` is shifted to the channels from the base channel on. -/
theorem bits_shifted (data : Nat → U32) :
    let o := parseBits d s chanspec data file l
    0 ≤ o.ret →
      (∀ j < s.nChan.val, o.lines j =
        if (crChan chanspec).toNat ≤ j ∧ (data 0).getLsbD (j - (crChan chanspec).toNat) then
          (data 1).getLsbD (j - (crChan chanspec).toNat) else l j) ∧
      ∀ i, (crChan chanspec).toNat + i < s.nChan.val →
        (o.data 1).getLsbD i = o.lines ((crChan chanspec).toNat + i) := by
  intro o hret
  obtain ⟨hr, -, hword, hlines⟩ := parse_bits (l := l) h hn hbits hdoc data
  have hr0 := hr ▸ hret
  refine ⟨fun j hj => ?_, fun i hi => ?_⟩
  · have hj32 : j < 32 := Nat.lt_of_lt_of_le hj hn
    refine (congrFun hlines j).trans ((hdoc.writes _ _ l hr0 j hj).trans ?_)
    rw [shiftLeft_getLsbD _ hj32, shiftLeft_getLsbD _ hj32]
    by_cases hle : (crChan chanspec).toNat ≤ j
    · rw [decide_eq_true hle, Bool.true_and, Bool.true_and]
      exact if_congr (by simp [hle]) rfl rfl
    · rw [decide_eq_false hle, Bool.false_and, if_neg Bool.false_ne_true, if_neg fun h => hle h.1]
  · rw [show o.data 1 = _ from hword, show o.lines = _ from hlines, BitVec.getLsbD_ushiftRight]
    exact hdoc.reads _ _ l hr0 _ hi (Nat.lt_of_lt_of_le hi hn)

omit h hn in
theorem sameEffect_of {o bits : Outcome} {r : Int × (U32 × U32) × Lines} (hret : bits.ret = r.1)
    (hlines : bits.lines = r.2.2) (ho : o.lines = r.2.2) (hneg : r.1 < 0 → o.ret = r.1)
    (hpos : ¬ r.1 < 0 → o.ret = 1) : SameEffect o bits where
  lines := ho.trans hlines.symm
  failed hbad := (hneg (hret ▸ hbad)).trans hret.symm
  succeeded hok := hpos (Int.not_lt.mpr (hret ▸ hok))

include hbits hdoc in
/-- `INSN_READ` gives the first bit of what `INSN_BITS` gives without a mask. -/
theorem read_same (hread : s.insnRead = .emulateBits) (data : Nat → U32) :
    let o := parseRead d s chanspec data file l
    let bits := parseBits d s chanspec (words 0 0) file l
    SameEffect o bits ∧ (0 ≤ bits.ret → o.data 0 = bits.data 1 &&& 1) := by
  intro o bits
  have hc := chan_lt h hn
  have hcall : driverCall d s { insn := insnRead, n := 1, chanspec := chanspec } data l =
      d 0 0 0 l := by
    unfold driverCall
    dsimp only
    rw [if_neg (by decide), if_pos hc, if_neg (by decide)]
  obtain ⟨hr, -, hword, hlines⟩ := parse_bits (l := l) h hn hbits hdoc (words 0 0)
  have hzero (p : Nat) (hp : words 0 0 p = 0) : words 0 0 p <<< (crChan chanspec).toNat = 0 := by
    rw [hp]
    exact BitVec.zero_shiftLeft _
  rw [hzero 0 rfl, hzero 1 rfl] at hr hword hlines
  have hrun := runInsn_read (s := { s with busy := some .parseInsn }) (d 0 0 0 l) data hread hbits hc
  by_cases hneg : (d 0 0 0 l).1 < 0
  · rw [if_pos hneg] at hrun
    have ho : o = _ := h.parse_eq rfl hcall hrun
    refine ⟨sameEffect_of hr hlines ?_ (fun _ => ?_) (absurd hneg), fun hpos => ?_⟩
    · rw [ho]
      rfl
    · rw [ho]
    · exact absurd (hr ▸ hpos) (Int.not_le.mpr hneg)
  · rw [if_neg hneg] at hrun
    have ho : o = _ := h.parse_eq rfl hcall hrun
    refine ⟨sameEffect_of hr hlines ?_ (fun hbad => absurd hbad hneg) (fun _ => ?_), fun _ => ?_⟩
    · rw [ho]
      rfl
    · rw [ho]
    · rw [ho, show bits.data 1 = _ from hword]
      dsimp only
      rw [update_self]

include hbits hdoc in
/-- `INSN_WRITE` does what `INSN_BITS` does with the first bit of the mask. -/
theorem write_same (hwrite : s.insnWrite = .emulateBits)
    (hwritable : s.subdevFlags &&& sdfWritable ≠ 0) (data : Nat → U32)
    (hmax : ¬ maxdataOf s { insn := insnWrite, n := 1, chanspec := chanspec } < data 0) :
    let o := parseWrite d s chanspec data file l
    let bits := parseBits d s chanspec (words 1 (if data 0 ≠ 0 then 1 else 0)) file l
    SameEffect o bits := by
  intro o bits
  obtain ⟨bit, hdef⟩ : ∃ bit, bit = (1 : U32) <<< (crChan chanspec).toNat := ⟨_, rfl⟩
  have hc := chan_lt h hn
  have hbase : (crChan chanspec - 0).toNat = (crChan chanspec).toNat :=
    congrArg BitVec.toNat (BitVec.sub_zero _)
  have hcall : driverCall d s { insn := insnWrite, n := 1, chanspec := chanspec } data l =
      d 0 bit (if data 0 ≠ 0 then bit else 0) l := by
    unfold driverCall
    dsimp only
    rw [if_neg (by decide), if_pos hc, if_pos rfl, hbase, hdef]
  obtain ⟨hr, -, -, hlines⟩ :=
    parse_bits (l := l) h hn hbits hdoc (words 1 (if data 0 ≠ 0 then 1 else 0))
  have hmask : words 1 (if data 0 ≠ 0 then 1 else 0) 0 <<< (crChan chanspec).toNat = bit :=
    hdef.symm
  have hbit : words 1 (if data 0 ≠ 0 then 1 else 0) 1 <<< (crChan chanspec).toNat =
      if data 0 ≠ 0 then bit else 0 := by
    change (if data 0 ≠ 0 then (1 : U32) else 0) <<< (crChan chanspec).toNat = _
    split
    · exact hdef.symm
    · exact BitVec.zero_shiftLeft _
  rw [hmask, hbit] at hr hlines
  have hrun := runInsn_write (s := { s with busy := some .parseInsn })
    (d 0 bit (if data 0 ≠ 0 then bit else 0) l) data hwrite hbits hwritable hmax
  by_cases hneg : (d 0 bit (if data 0 ≠ 0 then bit else 0) l).1 < 0
  · rw [if_pos hneg] at hrun
    have ho : o = _ := h.parse_eq rfl hcall hrun
    refine sameEffect_of hr hlines ?_ (fun _ => ?_) (absurd hneg)
    · rw [ho]
      rfl
    · rw [ho]
  · rw [if_neg hneg] at hrun
    have ho : o = _ := h.parse_eq rfl hcall hrun
    refine sameEffect_of hr hlines ?_ (fun hbad => absurd hbad hneg) (fun _ => ?_)
    · rw [ho]
      rfl
    · rw [ho]

end Calls

/-- With up to 32 channels, `INSN_BITS` writes and reads the channels from the base channel on and
no others, and gives the mask back; the emulation gives `INSN_READ`, and on a writable subdevice
`INSN_WRITE`, the effect of `INSN_BITS` on their channel. -/
theorem base_channel (hdoc : Documented s.nChan d) (hn : s.nChan.val ≤ 32)
    (hbits : s.insnBits = true) (hread : s.insnRead = .emulateBits)
    (hwrite : s.insnWrite = .emulateBits) (h : Admits s chanspec file) (l : Lines)
    (data : Nat → U32) :
    (parseBits d s chanspec data file l).data 0 = data 0 ∧
    (0 ≤ (parseBits d s chanspec data file l).ret →
      (∀ j < s.nChan.val, (parseBits d s chanspec data file l).lines j =
        if (crChan chanspec).toNat ≤ j ∧ (data 0).getLsbD (j - (crChan chanspec).toNat) then
          (data 1).getLsbD (j - (crChan chanspec).toNat) else l j) ∧
      ∀ i, (crChan chanspec).toNat + i < s.nChan.val →
        ((parseBits d s chanspec data file l).data 1).getLsbD i =
          (parseBits d s chanspec data file l).lines ((crChan chanspec).toNat + i)) ∧
    (SameEffect (parseRead d s chanspec data file l) (parseBits d s chanspec (words 0 0) file l) ∧
      (0 ≤ (parseBits d s chanspec (words 0 0) file l).ret →
        (parseRead d s chanspec data file l).data 0 =
          (parseBits d s chanspec (words 0 0) file l).data 1 &&& 1)) ∧
    (s.subdevFlags &&& sdfWritable ≠ 0 →
      ¬ maxdataOf s { insn := insnWrite, n := 1, chanspec := chanspec } < data 0 →
      SameEffect (parseWrite d s chanspec data file l)
        (parseBits d s chanspec (words 1 (if data 0 ≠ 0 then 1 else 0)) file l)) :=
  ⟨(parse_bits h hn hbits hdoc data).2.1, bits_shifted h hn hbits hdoc data,
    read_same h hn hbits hdoc hread data,
    fun hwritable hmax => write_same h hn hbits hdoc hwrite hwritable data hmax⟩

/-- A driver that keeps the states of its lines. -/
def plainBits : BitsDriver := fun _ mask bits l =>
  let l' : Lines := fun j => if mask.getLsbD j then bits.getLsbD j else l j
  (2, (mask, (BitVec.ofBoolListLE ((List.range 32).map l')).setWidth 32), l')

theorem plainBits_documented (nChan : Nat) : Documented nChan plainBits where
  channel _ _ := rfl
  writes _ _ _ _ _ _ := rfl
  reads mask bits l _ j _ hj := by
    unfold plainBits
    dsimp only
    rw [BitVec.getLsbD_setWidth, BitVec.getLsbD_ofBoolListLE]
    simp [hj]

/-- Eight channels, without the flag for writing. -/
def eightLines (flags : U32) : Subdevice where
  type := .dio
  nChan := 8
  subdevFlags := flags
  maxdata := 1
  rangeTable := some { length := 1 }
  insnRead := .emulateBits
  insnWrite := .emulateBits

theorem eightLines_admits (flags : U32) : Admits (eightLines flags) 3 0 where
  used := nofun
  unlocked := nofun
  chanspec := show ¬ checkChanlist (eightLines 0) [3] < 0 by decide
  idle := nofun

theorem base_channel_write :
    SameEffect (parseWrite plainBits (eightLines sdfWritable) 3 (words 1 0) 0 fun _ => false)
      (parseBits plainBits (eightLines sdfWritable) 3 (words 1 1) 0 fun _ => false) :=
  (base_channel (plainBits_documented 8) (show 8 ≤ 32 by decide) rfl rfl rfl
    (eightLines_admits sdfWritable) (fun _ => false) (words 1 0)).2.2.2 (by decide) (by decide)

/-- Without the flag, the write of a line is refused that `INSN_BITS` carries out. -/
theorem write_refused :
    (parseWrite plainBits (eightLines 0) 3 (words 1 0) 0 fun _ => false).ret = -einval ∧
      (parseWrite plainBits (eightLines 0) 3 (words 1 0) 0 fun _ => false).lines 3 = false ∧
      (parseBits plainBits (eightLines 0) 3 (words 1 1) 0 fun _ => false).ret = 2 ∧
      (parseBits plainBits (eightLines 0) 3 (words 1 1) 0 fun _ => false).lines 3 = true := by
  decide

end Comedi.BaseChannel
