import Comedi.BitFlags
import Comedi.Me4000

namespace Comedi.Me4000Lists

open ChanlistCheck FakeWaveform Me4000
open Pci230 (crAref arefDiff)
open NiChanGain (arefGround arefCommon)

variable {ai : AiInfo} {cmd : Cmd}

/-- The reference of entry `i`. -/
def aref (cmd : Cmd) (i : Nat) : U32 := crAref (chanspec cmd i)

/-- What the core makes sure of: there is a list, and the subdevice takes one of its length. -/
structure Offered (cmd : Cmd) : Prop where
  chanlist : cmd.chanlist ≠ .null
  pos : cmd.chanlistLen ≠ 0
  le : cmd.chanlistLen ≤ me4000AiChannelListCount

/-- The entry `i` in a single read, which writes `word` to the channel list register. -/
def Reads (ai : AiInfo) (cmd : Cmd) (i : Nat) (word : U32) : Prop :=
  ∀ ready lval, (me4000AiInsnRead ai 1 (chanspec cmd i) ready lval).2.1 = [word]

def Rejects (ai : AiInfo) (cmd : Cmd) (i : Nat) : Prop :=
  ∀ ready lval, (me4000AiInsnRead ai 1 (chanspec cmd i) ready lval).1 = -einval

/-- The list means the same as its entries in single reads. -/
structure Agrees (ai : AiInfo) (cmd : Cmd) : Prop where
  words : aiCheckChanlist ai cmd = 0 → ∀ i < cmd.chanlistLen.toNat, ∃ word,
    Reads ai cmd i word ∧ (aiWriteChanlist cmd)[i]? = some (word &&& ~~~listLastEntry)
  rejected : aiCheckChanlist ai cmd ≠ 0 ↔
    (∃ i < cmd.chanlistLen.toNat, Rejects ai cmd i) ∨
      ∃ i < cmd.chanlistLen.toNat, aref cmd i ≠ aref cmd 0

/-- The references differ, or a channel is not there with any reference, or the entries are
single-ended with the ranges that there are. -/
def SingleEnded (ai : AiInfo) (cmd : Cmd) : Prop :=
  (∃ i < cmd.chanlistLen.toNat, aref cmd i ≠ aref cmd 0) ∨
    (∃ i < cmd.chanlistLen.toNat, ai.count ≤ crChan (chanspec cmd i)) ∨
    (aref cmd 0 = arefGround ∨ aref cmd 0 = arefCommon) ∧
      ∀ i < cmd.chanlistLen.toNat, crRange (chanspec cmd i) ≤ 3

theorem boards_counts (h : ai ∈ me4000Boards) :
    ai.diffCount ≤ ai.count ∧ ai.count.toNat ≤ 32 := by
  have hall : ∀ ai ∈ me4000Boards, ai.diffCount ≤ ai.count ∧ ai.count.toNat ≤ 32 := by decide
  exact hall ai h

section Entries

variable {c word : U32}

/-- The reference of an entry is compared with a flag of the subdevice, which it never is. -/
theorem crAref_ne_sdfDiff (c : U32) : crAref c ≠ sdfDiff := by
  have hlt : (crAref c).toNat < 4 := by
    unfold crAref
    rw [BitVec.toNat_and]
    exact Nat.lt_of_le_of_lt Nat.and_le_right (by decide)
  intro heq
  rw [heq] at hlt
  exact absurd hlt (by decide)

theorem accepted_iff (h : Offered cmd) :
    aiCheckChanlist ai cmd = 0 ↔
      (∀ i < cmd.chanlistLen.toNat, aref cmd i = aref cmd 0) ∧
        ∀ i < cmd.chanlistLen.toNat, crChan (chanspec cmd i) < ai.count := by
  have hne : ¬ (-einval : Int) = 0 := by decide
  unfold aiCheckChanlist
  dsimp only
  rw [if_neg h.pos, if_neg (BitVec.not_lt.mpr h.le), if_neg h.chanlist]
  by_cases hmixed : ∃ i ∈ List.range cmd.chanlistLen.toNat,
      crAref (chanspec cmd i) ≠ crAref (chanspec cmd 0)
  · rw [if_pos hmixed]
    obtain ⟨i, hi, hdiffer⟩ := hmixed
    exact iff_of_false hne fun hall => hdiffer (hall.1 i (List.mem_range.mp hi))
  rw [if_neg hmixed, if_neg fun hdiff => crAref_ne_sdfDiff _ hdiff.1]
  have hsame : ∀ i < cmd.chanlistLen.toNat, aref cmd i = aref cmd 0 := by
    intro i hi
    by_contra hdiffer
    exact hmixed ⟨i, List.mem_range.mpr hi, hdiffer⟩
  by_cases hhigh : ∃ i ∈ List.range cmd.chanlistLen.toNat, ai.count ≤ crChan (chanspec cmd i)
  · rw [if_pos ⟨crAref_ne_sdfDiff _, hhigh⟩]
    obtain ⟨i, hi, hcount⟩ := hhigh
    exact iff_of_false hne fun hall =>
      absurd (hall.2 i (List.mem_range.mp hi)) (BitVec.not_lt.mpr hcount)
  · rw [if_neg fun hno => hhigh hno.2, if_neg fun hdiff => crAref_ne_sdfDiff _ hdiff.1]
    refine iff_of_true rfl ⟨hsame, fun i hi => ?_⟩
    by_contra hcount
    exact hhigh ⟨i, List.mem_range.mpr hi, BitVec.not_lt.mp hcount⟩

theorem insnRead_some (h : readEntry ai c = some word) (ready : Bool) (lval : U32) :
    (me4000AiInsnRead ai 1 c ready lval).2.1 = [word] ∧
      (me4000AiInsnRead ai 1 c ready lval).1 ≠ -einval := by
  unfold me4000AiInsnRead
  rw [if_neg (by decide), if_neg (by decide), h]
  cases ready with
  | true => exact ⟨rfl, (by decide : (1 : Int) ≠ -einval)⟩
  | false => exact ⟨rfl, (by decide : (-eio : Int) ≠ -einval)⟩

theorem insnRead_none (h : readEntry ai c = none) (ready : Bool) (lval : U32) :
    me4000AiInsnRead ai 1 c ready lval = (-einval, [], none) := by
  unfold me4000AiInsnRead
  rw [if_neg (by decide), if_neg (by decide), h]

theorem range_cases (h : crRange c ≤ 3) :
    crRange c = 0 ∨ crRange c = 1 ∨ crRange c = 2 ∨ crRange c = 3 := by
  generalize crRange c = range at h ⊢
  bv_omega

theorem readEntry_high (hb : ai ∈ me4000Boards) (h : ai.count ≤ crChan c) :
    readEntry ai c = none := by
  have hdiff : ai.diffCount ≤ crChan c := BitVec.le_trans (boards_counts hb).1 h
  unfold readEntry
  simp only [if_pos h, if_pos hdiff, ite_self]
  exact Option.bind_fun_none _

theorem readEntry_range (h : ¬ crRange c ≤ 3) : readEntry ai c = none := by
  have hne : ∀ range : U32, range ≤ 3 → crRange c ≠ range := by
    intro range hle heq
    exact h (heq ▸ hle)
  unfold readEntry
  dsimp only
  rw [if_neg (hne 0 (by decide)), if_neg (hne 1 (by decide)), if_neg (hne 2 (by decide)),
    if_neg (hne 3 (by decide))]
  rfl

theorem readEntry_other (hs : ¬ (crAref c = arefGround ∨ crAref c = arefCommon))
    (hd : crAref c ≠ arefDiff) : readEntry ai c = none := by
  unfold readEntry
  simp only [if_neg hs, if_neg hd]
  exact Option.bind_fun_none _

/-- A channel that is there fits below the bits of the range and the reference. -/
theorem channel_lt (hb : ai ∈ me4000Boards) (h : crChan c < ai.count) : (crChan c).toNat < 32 :=
  Nat.lt_of_lt_of_le (BitVec.lt_def.mp h) (boards_counts hb).2

theorem channel_bits (h : (crChan c).toNat < 32) :
    crChan c &&& listLastEntry = 0 ∧ crChan c &&& listInputDifferential = 0 := by
  have hall : ∀ chan : Fin 32, BitVec.ofNat 32 chan &&& listLastEntry = 0 ∧
      BitVec.ofNat 32 chan &&& listInputDifferential = 0 := by decide
  have hchan := hall ⟨(crChan c).toNat, h⟩
  rwa [BitVec.ofNat_toNat, BitVec.setWidth_eq] at hchan

/-- The range in the words of both paths. -/
def rangeBits (c : U32) : U32 :=
  if crRange c = 0 then listRangeUnipolar25
  else if crRange c = 1 then listRangeUnipolar10
  else if crRange c = 2 then listRangeBipolar25
  else listRangeBipolar10

theorem rangeBits_bits (c : U32) :
    rangeBits c &&& listLastEntry = 0 ∧ rangeBits c &&& listInputDifferential = 0 := by
  unfold rangeBits
  split
  · decide
  split
  · decide
  split <;> decide

theorem listWord_eq (c : U32) : listWord c = crChan c ||| rangeBits c := by
  unfold listWord
  dsimp only
  rw [if_neg (crAref_ne_sdfDiff c)]
  exact BitVec.or_zero

theorem unmarked {mode : U32} (hc : (crChan c).toNat < 32) (hm : mode &&& listLastEntry = 0) :
    (rangeBits c ||| (mode ||| crChan c) ||| listLastEntry) &&& ~~~listLastEntry =
      rangeBits c ||| (mode ||| crChan c) := by
  have hlow : (mode ||| crChan c) &&& listLastEntry = 0 := by
    rw [BitFlags.and_or_of_disjoint (channel_bits hc).1]
    exact hm
  rw [BitFlags.and_or_of_disjoint (by decide)]
  apply BitFlags.clear_absent
  rw [BitFlags.and_or_of_disjoint hlow]
  exact (rangeBits_bits c).1

theorem readEntry_single (hcount : crChan c < ai.count)
    (hs : crAref c = arefGround ∨ crAref c = arefCommon) (hr : crRange c ≤ 3) :
    readEntry ai c =
      some (rangeBits c ||| (listInputSingleEnded ||| crChan c) ||| listLastEntry) := by
  unfold readEntry rangeBits
  simp only [if_pos hs, if_neg (BitVec.not_le.mpr hcount)]
  obtain hrange | hrange | hrange | hrange := range_cases hr
  all_goals
    rw [hrange]
    rfl

theorem readEntry_diff (hd : crAref c = arefDiff) (h : readEntry ai c = some word) :
    word = rangeBits c ||| (listInputDifferential ||| crChan c) ||| listLastEntry := by
  have hnot : ¬ (crAref c = arefGround ∨ crAref c = arefCommon) := by
    rw [hd]
    decide
  have hr : crRange c ≤ 3 := by
    by_contra hhigh
    rw [readEntry_range hhigh] at h
    cases h
  unfold readEntry at h
  unfold rangeBits
  simp only [if_neg hnot, if_pos hd] at h
  obtain hrange | hrange | hrange | hrange := range_cases hr
  · rw [hrange] at h
    cases h
  · rw [hrange] at h
    cases h
  all_goals
    rw [hrange] at h ⊢
    change (if ai.diffCount ≤ crChan c then none else _) = some word at h
    split at h
    · cases h
    · exact (Option.some.inj h).symm

theorem words_single (hb : ai ∈ me4000Boards) (hcount : crChan c < ai.count)
    (hs : crAref c = arefGround ∨ crAref c = arefCommon) (hr : crRange c ≤ 3) :
    ∃ word, readEntry ai c = some word ∧ listWord c = word &&& ~~~listLastEntry := by
  refine ⟨_, readEntry_single hcount hs hr, ?_⟩
  rw [unmarked (channel_lt hb hcount) (by decide), listWord_eq, BitVec.or_comm]
  exact congrArg _ BitVec.zero_or.symm

/-- A single read sets the bit for differential inputs, which the word of a list lacks. -/
theorem words_diff (hb : ai ∈ me4000Boards) (hd : crAref c = arefDiff)
    (h : readEntry ai c = some word) : listWord c ≠ word &&& ~~~listLastEntry := by
  have hcount : crChan c < ai.count := by
    by_contra hhigh
    rw [readEntry_high hb (BitVec.not_lt.mp hhigh)] at h
    cases h
  have hlt := channel_lt hb hcount
  rw [readEntry_diff hd h, unmarked hlt (by decide), listWord_eq]
  intro heq
  have hbit := congrArg (· &&& listInputDifferential) heq
  rw [BitFlags.and_or_of_disjoint (rangeBits_bits c).2, (channel_bits hlt).2, BitVec.or_comm,
    BitFlags.and_or_of_disjoint (rangeBits_bits c).2,
    BitFlags.and_or_of_disjoint (channel_bits hlt).2] at hbit
  exact absurd hbit (by decide)

end Entries

theorem reads_iff {i : Nat} {word : U32} :
    Reads ai cmd i word ↔ readEntry ai (chanspec cmd i) = some word := by
  constructor
  · intro hreads
    have hword := hreads true 0
    cases hentry : readEntry ai (chanspec cmd i) with
    | none =>
      rw [insnRead_none hentry] at hword
      cases hword
    | some entry =>
      rw [(insnRead_some hentry true 0).1] at hword
      rw [(List.cons.inj hword).1]
  · intro hentry ready lval
    exact (insnRead_some hentry ready lval).1

theorem rejects_iff {i : Nat} :
    Rejects ai cmd i ↔ readEntry ai (chanspec cmd i) = none := by
  constructor
  · intro hrejects
    cases hentry : readEntry ai (chanspec cmd i) with
    | none => rfl
    | some entry => exact absurd (hrejects true 0) (insnRead_some hentry true 0).2
  · intro hentry ready lval
    rw [insnRead_none hentry]

theorem aiWriteChanlist_get {i : Nat} (hi : i < cmd.chanlistLen.toNat) :
    (aiWriteChanlist cmd)[i]? = some (listWord (chanspec cmd i)) := by
  unfold aiWriteChanlist
  rw [List.getElem?_map, List.getElem?_range hi]
  rfl

theorem agrees_of_rejected (hcheck : aiCheckChanlist ai cmd ≠ 0)
    (h : (∃ i < cmd.chanlistLen.toNat, Rejects ai cmd i) ∨
      ∃ i < cmd.chanlistLen.toNat, aref cmd i ≠ aref cmd 0) : Agrees ai cmd where
  words hzero := absurd hzero hcheck
  rejected := iff_of_true hcheck h

theorem agrees_of_single (hb : ai ∈ me4000Boards) (h : Offered cmd)
    (hs : aref cmd 0 = arefGround ∨ aref cmd 0 = arefCommon)
    (hr : ∀ i < cmd.chanlistLen.toNat, crRange (chanspec cmd i) ≤ 3)
    (hsame : ∀ i < cmd.chanlistLen.toNat, aref cmd i = aref cmd 0)
    (hlow : ∀ i < cmd.chanlistLen.toNat, crChan (chanspec cmd i) < ai.count) :
    Agrees ai cmd := by
  have hwords : ∀ i < cmd.chanlistLen.toNat, ∃ word, readEntry ai (chanspec cmd i) = some word ∧
      listWord (chanspec cmd i) = word &&& ~~~listLastEntry := by
    intro i hi
    have hsi : aref cmd i = arefGround ∨ aref cmd i = arefCommon := by
      rw [hsame i hi]
      exact hs
    exact words_single hb (hlow i hi) hsi (hr i hi)
  constructor
  · intro _ i hi
    obtain ⟨word, hentry, hword⟩ := hwords i hi
    exact ⟨word, reads_iff.mpr hentry, (aiWriteChanlist_get hi).trans (congrArg some hword)⟩
  · refine iff_of_false (not_not.mpr ((accepted_iff h).mpr ⟨hsame, hlow⟩)) ?_
    rintro (⟨i, hi, hrejects⟩ | ⟨i, hi, hdiffer⟩)
    · obtain ⟨word, hentry, -⟩ := hwords i hi
      rw [rejects_iff, hentry] at hrejects
      cases hrejects
    · exact hdiffer (hsame i hi)

theorem agrees_of_singleEnded (hb : ai ∈ me4000Boards) (h : Offered cmd)
    (hs : SingleEnded ai cmd) : Agrees ai cmd := by
  by_cases hdiffer : ∃ i < cmd.chanlistLen.toNat, aref cmd i ≠ aref cmd 0
  · refine agrees_of_rejected (fun hzero => ?_) (Or.inr hdiffer)
    obtain ⟨i, hi, hne⟩ := hdiffer
    exact hne (((accepted_iff h).mp hzero).1 i hi)
  by_cases hhigh : ∃ i < cmd.chanlistLen.toNat, ai.count ≤ crChan (chanspec cmd i)
  · obtain ⟨i, hi, hcount⟩ := hhigh
    refine agrees_of_rejected (fun hzero => ?_)
      (Or.inl ⟨i, hi, rejects_iff.mpr (readEntry_high hb hcount)⟩)
    exact absurd (((accepted_iff h).mp hzero).2 i hi) (BitVec.not_lt.mpr hcount)
  obtain hd | hc | ⟨href, hr⟩ := hs
  · exact absurd hd hdiffer
  · exact absurd hc hhigh
  · push Not at hdiffer hhigh
    exact agrees_of_single hb h href hr hdiffer fun i hi => BitVec.not_le.mp (hhigh i hi)

theorem singleEnded_of_agrees (hb : ai ∈ me4000Boards) (h : Offered cmd)
    (hagrees : Agrees ai cmd) : SingleEnded ai cmd := by
  by_cases hdiffer : ∃ i < cmd.chanlistLen.toNat, aref cmd i ≠ aref cmd 0
  · exact Or.inl hdiffer
  by_cases hhigh : ∃ i < cmd.chanlistLen.toNat, ai.count ≤ crChan (chanspec cmd i)
  · exact Or.inr (Or.inl hhigh)
  push Not at hdiffer hhigh
  have haccepted : aiCheckChanlist ai cmd = 0 :=
    (accepted_iff h).mpr ⟨hdiffer, fun i hi => BitVec.not_le.mp (hhigh i hi)⟩
  have hwords : ∀ i < cmd.chanlistLen.toNat, ∃ word, readEntry ai (chanspec cmd i) = some word ∧
      listWord (chanspec cmd i) = word &&& ~~~listLastEntry := by
    intro i hi
    obtain ⟨word, hreads, hword⟩ := hagrees.words haccepted i hi
    rw [aiWriteChanlist_get hi] at hword
    exact ⟨word, reads_iff.mp hreads, Option.some.inj hword⟩
  have hpos : 0 < cmd.chanlistLen.toNat := by
    have hne := h.pos
    bv_omega
  refine Or.inr (Or.inr ⟨?_, fun i hi => ?_⟩)
  · obtain ⟨word, hentry, hword⟩ := hwords 0 hpos
    by_contra hother
    by_cases hd : crAref (chanspec cmd 0) = arefDiff
    · exact words_diff hb hd hentry hword
    · rw [readEntry_other hother hd] at hentry
      cases hentry
  · obtain ⟨word, hentry, -⟩ := hwords i hi
    by_contra hrange
    rw [readEntry_range hrange] at hentry
    cases hentry

/-- Both paths mean the same only by single-ended entries: the check and the words of a list
never see a differential one. -/
theorem lists_agree_iff (hb : ai ∈ me4000Boards) (h : Offered cmd) :
    Agrees ai cmd ↔ SingleEnded ai cmd :=
  ⟨singleEnded_of_agrees hb h, agrees_of_singleEnded hb h⟩

/-- Channels 0 and 1 with the bipolar range 2, against ground on the first board and
differential on the second. -/
theorem agrees_ground_differential :
    Agrees ⟨16, 0⟩ { chanlist := .kernel [0x00020000, 0x00020001], chanlistLen := 2 } ∧
      ¬ Agrees ⟨32, 16⟩ { chanlist := .kernel [0x02020000, 0x02020001], chanlistLen := 2 } := by
  constructor
  · refine (lists_agree_iff (by decide) ⟨by decide, by decide, by decide⟩).mpr ?_
    exact Or.inr (Or.inr ⟨by decide, by decide⟩)
  · refine fun hagrees => absurd ((lists_agree_iff (by decide) ⟨by decide, by decide, by decide⟩).mp
      hagrees) ?_
    rintro (hd | hc | ⟨hs, -⟩)
    · exact absurd hd (by decide)
    · exact absurd hc (by decide)
    · exact absurd hs (by decide)

/-- One differential channel with the bipolar range 2 is read with the word `0x160`, and written
to the channel list register as `0x040`. -/
theorem differential_as_single_ended :
    ∃ cmd : Cmd, cmd.chanlist = .kernel [0x02020000] ∧ cmd.chanlistLen = 1 ∧ Offered cmd ∧
      aiCheckChanlist ⟨32, 16⟩ cmd = 0 ∧
      (me4000AiInsnRead ⟨32, 16⟩ 1 (chanspec cmd 0) true 0).2.1 = [0x160] ∧
      aiWriteChanlist cmd = [0x040] ∧ ¬ Agrees ⟨32, 16⟩ cmd := by
  refine ⟨{ chanlist := .kernel [0x02020000], chanlistLen := 1 }, rfl, rfl,
    ⟨by decide, by decide, by decide⟩, by decide, by decide, by decide, fun hagrees => ?_⟩
  obtain ⟨word, hreads, hword⟩ := hagrees.words (by decide) 0 (by decide)
  have hread := hreads true 0
  have hentry : word = 0x160 := (List.cons.inj hread).1.symm
  rw [hentry] at hword
  exact absurd hword (by decide)

end Comedi.Me4000Lists
