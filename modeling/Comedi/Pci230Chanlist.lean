import Comedi.Pci230
import Comedi.Repeats
import Mathlib.Data.List.Sort

namespace Comedi.Pci230Chanlist

open ChanlistCheck Pci230 Repeats

def pci230AiGain : List Nat := [0, 1, 2, 3, 1, 2, 3]

def pci230AiBipolar : List Nat := [1, 1, 1, 1, 0, 0, 0]

def gain (entry : U32) : Nat := pci230AiGain.getD (crRange entry).toNat 0

def polarity (entry : U32) : Nat := pci230AiBipolar.getD (crRange entry).toNat 0

section Check

/-- The variables of the loop of step 5 of `pci230_ai_cmdtest`. -/
structure Checked where
  subseqLen : Nat := 0
  prevChan : U32 := 0
  prevRange : U32 := 0
  prevAref : U32 := 0
  prevPolarity : Nat := 0
  seqErr : Bool := false
  rangepairErr : Bool := false
  polarityErr : Bool := false
  arefErr : Bool := false
  diffchanErr : Bool := false

variable (nChan : U32) (chanlist : List U32)

def checkEntry (c : Checked) (n : Nat) : Checked :=
  let entry := chanlist.getD n 0
  let chan := crChan entry
  let range := crRange entry
  let aref := crAref entry
  let subseqLen := if 0 < n ∧ chan ≤ c.prevChan ∧ c.subseqLen = 0 then n else c.subseqLen
  { subseqLen
    prevChan := chan
    prevRange := range
    prevAref := aref
    prevPolarity := polarity entry
    seqErr := c.seqErr ∨
      (0 < n ∧ 0 < subseqLen ∧ entry ≠ chanlist.getD (n % subseqLen) 0)
    rangepairErr := c.rangepairErr ∨
      (0 < n ∧ aref ≠ arefDiff ∧ (chan ^^^ c.prevChan) &&& ~~~1 = 0 ∧ range ≠ c.prevRange)
    polarityErr := c.polarityErr ∨ (0 < n ∧ polarity entry ≠ c.prevPolarity)
    arefErr := c.arefErr ∨ (0 < n ∧ aref ≠ c.prevAref)
    diffchanErr := c.diffchanErr ∨ (aref = arefDiff ∧ nChan / 2 ≤ chan) }

def checkEntries : Checked := (List.range chanlist.length).foldl (checkEntry nChan chanlist) {}

/-- Step 5 of `pci230_ai_cmdtest` for a channel list that is there. -/
def checkChanlist (hwver : U16) : Int :=
  let c := checkEntries nChan chanlist
  let subseqLen := if c.subseqLen = 0 then chanlist.length else c.subseqLen
  let seqErr : Bool := c.seqErr ∨ chanlist.length % subseqLen ≠ 0
  let buggyChan0Err : Bool :=
    (0 < hwver ∧ hwver < 4) ∧ 1 < subseqLen ∧ crChan (chanlist.getD 0 0) ≠ 0
  if seqErr ∨ c.rangepairErr ∨ c.polarityErr ∨ c.arefErr ∨ c.diffchanErr ∨ buggyChan0Err then 5
  else 0

end Check

section Programming

/-- The scan list and the gains that `pci230_ai_cmd` collects. -/
structure Enabled where
  adcen : U16
  adcg : U16

variable (hwver : U16) (diff : Prop) [Decidable diff]

def gainshift (chan : U32) : Nat := if diff then 2 * chan.toNat else (chan &&& ~~~1).toNat

def channelBits (chan : U32) : U16 :=
  if diff then (if hwver = 0 then (3 : U16) else 1) <<< gainshift diff chan
  else (1 : U16) <<< chan.toNat

def enableEntry (e : Enabled) (entry : U32) : Enabled :=
  let chan := crChan entry
  { adcen := e.adcen ||| channelBits hwver diff chan
    adcg := (e.adcg &&& ~~~((3 : U16) <<< gainshift diff chan)) |||
      (BitVec.ofNat 16 (gain entry) <<< gainshift diff chan) }

end Programming

/-- The reference of the first entry is that of all entries. -/
def differential (chanlist : List U32) : Prop := crAref (chanlist.getD 0 0) = arefDiff

instance (chanlist : List U32) : Decidable (differential chanlist) :=
  inferInstanceAs (Decidable (_ = _))

/-- The loop of `pci230_ai_cmd` over the channel list. -/
def enableChanlist (hwver adcg : U16) (chanlist : List U32) : Enabled :=
  chanlist.foldl (enableEntry hwver (differential chanlist)) ⟨0, adcg⟩

/-- The channels that the hardware scans, in its order. -/
def scanned (hwver : U16) (diff : Prop) [Decidable diff] (adcen : U16) : List Nat :=
  if diff then
    (List.range 8).filter fun chan =>
      adcen.getLsbD (2 * chan) && (hwver ≠ 0 || adcen.getLsbD (2 * chan + 1))
  else (List.range 16).filter adcen.getLsbD

def gainField (adcg : U16) (shift : Nat) : Nat := ((adcg >>> shift) &&& 3).toNat

/-- What the hardware can scan: exact repetitions of a block of channels that rise. -/
structure Scannable (nChan : U32) (hwver : U16) (chanlist : List U32) : Prop where
  repeats : ∃ block reps, chanlist = (List.replicate reps block).flatten ∧
    (block.Pairwise fun x y => crChan x < crChan y) ∧
    (0 < hwver ∧ hwver < 4 → 1 < block.length → crChan (block.getD 0 0) = 0)
  reference : ∀ x ∈ chanlist, ∀ y ∈ chanlist, crAref x = crAref y
  polarities : ∀ x ∈ chanlist, ∀ y ∈ chanlist, polarity x = polarity y
  pairs : ∀ x ∈ chanlist, ∀ y ∈ chanlist, crAref x ≠ arefDiff → crAref y ≠ arefDiff →
    (crChan x).toNat / 2 = (crChan y).toNat / 2 → crRange x = crRange y
  differentials : ∀ x ∈ chanlist, crAref x = arefDiff → (crChan x).toNat < nChan.toNat / 2

section Loop

variable (nChan : U32) (chanlist : List U32)

def entryAt (n : Nat) : U32 := chanlist.getD n 0

/-- The order of the entries is that of their channels. -/
def chanNat (entry : U32) : Nat := (crChan entry).toNat

def fallAt (n : Nat) : Nat := firstFall (chanNat ∘ entryAt chanlist) n

/-- The variables after `m` entries. -/
structure Seen (m : Nat) (c : Checked) : Prop where
  subseq : c.subseqLen = fallAt chanlist m
  chan : 0 < m → c.prevChan = crChan (entryAt chanlist (m - 1))
  range : 0 < m → c.prevRange = crRange (entryAt chanlist (m - 1))
  aref : 0 < m → c.prevAref = crAref (entryAt chanlist (m - 1))
  prevPolarity : 0 < m → c.prevPolarity = polarity (entryAt chanlist (m - 1))
  seqErr : c.seqErr = true ↔ ∃ n < m, 0 < n ∧ 0 < fallAt chanlist (n + 1) ∧
    entryAt chanlist n ≠ entryAt chanlist (n % fallAt chanlist (n + 1))
  rangepairErr : c.rangepairErr = true ↔ ∃ n < m, 0 < n ∧
    crAref (entryAt chanlist n) ≠ arefDiff ∧
    (crChan (entryAt chanlist n) ^^^ crChan (entryAt chanlist (n - 1))) &&& ~~~1 = 0 ∧
    crRange (entryAt chanlist n) ≠ crRange (entryAt chanlist (n - 1))
  polarityErr : c.polarityErr = true ↔ ∃ n < m, 0 < n ∧
    polarity (entryAt chanlist n) ≠ polarity (entryAt chanlist (n - 1))
  arefErr : c.arefErr = true ↔ ∃ n < m, 0 < n ∧
    crAref (entryAt chanlist n) ≠ crAref (entryAt chanlist (n - 1))
  diffchanErr : c.diffchanErr = true ↔ ∃ n < m,
    crAref (entryAt chanlist n) = arefDiff ∧ nChan / 2 ≤ crChan (entryAt chanlist n)

variable {nChan chanlist} {c : Checked} {m : Nat}

/-- A flag that is set where it was set or the next entry is bad. -/
theorem flag_succ {p : Nat → Prop} {old q : Prop} [Decidable old] [Decidable q]
    (hold : old ↔ ∃ n < m, p n) (hnext : q ↔ p m) :
    decide (old ∨ q) = true ↔ ∃ n < m + 1, p n := by
  rw [decide_eq_true_iff, Nat.exists_lt_succ_right, hold, hnext]

theorem seen_step (h : Seen nChan chanlist m c) :
    Seen nChan chanlist (m + 1) (checkEntry nChan chanlist c m) := by
  have hfall : (if 0 < m ∧ crChan (chanlist.getD m 0) ≤ c.prevChan ∧ c.subseqLen = 0 then m
      else c.subseqLen) = fallAt chanlist (m + 1) := by
    unfold fallAt firstFall
    change (if 0 < m ∧ crChan (entryAt chanlist m) ≤ c.prevChan ∧ c.subseqLen = 0 then m
      else c.subseqLen) = _
    rw [h.subseq]
    refine if_congr ⟨fun hf => ⟨hf.2.2, hf.1, ?_⟩, fun hf => ⟨hf.2.1, ?_, hf.1⟩⟩ rfl rfl
    · have hle := hf.2.1
      rw [h.chan hf.1] at hle
      exact BitVec.le_def.mp hle
    · rw [h.chan hf.2.1]
      exact BitVec.le_def.mpr hf.2.2
  refine ⟨hfall, fun _ => rfl, fun _ => rfl, fun _ => rfl, fun _ => rfl, ?_, ?_, ?_, ?_, ?_⟩
  · refine flag_succ h.seqErr ?_
    rw [hfall]
    rfl
  · refine flag_succ h.rangepairErr (and_congr_right fun hm => ?_)
    rw [h.chan hm, h.range hm]
    rfl
  · refine flag_succ h.polarityErr (and_congr_right fun hm => ?_)
    rw [h.prevPolarity hm]
    rfl
  · refine flag_succ h.arefErr (and_congr_right fun hm => ?_)
    rw [h.aref hm]
    rfl
  · exact flag_succ h.diffchanErr Iff.rfl

theorem seen_entries (m : Nat) :
    Seen nChan chanlist m ((List.range m).foldl (checkEntry nChan chanlist) {}) := by
  induction m with
  | zero =>
    have hnone : ∀ p : Nat → Prop, (false = true ↔ ∃ n < 0, p n) :=
      fun p => iff_of_false nofun fun ⟨n, hn, _⟩ => Nat.not_lt_zero n hn
    exact ⟨rfl, nofun, nofun, nofun, nofun, hnone _, hnone _, hnone _, hnone _, hnone _⟩
  | succ m ih =>
    rw [List.range_succ, List.foldl_append]
    exact seen_step ih

end Loop

section Accepted

variable {nChan : U32} {chanlist : List U32} {hwver : U16}

/-- Two channels are a pair if they differ in the lowest bit at most. -/
theorem pair_iff (x y : U32) : (x ^^^ y) &&& ~~~1 = 0 ↔ x.toNat / 2 = y.toNat / 2 := by
  have hhalf : ∀ z : U32, (z >>> 1).toNat = z.toNat / 2 := fun z => by
    rw [BitVec.toNat_ushiftRight, Nat.shiftRight_eq_div_pow, pow_one]
  have hmask : ∀ i < 32, (~~~(1 : U32)).getLsbD i = decide (0 < i) := by decide
  have hzero : ∀ i, (0 : U32).getLsbD i = false := fun i => BitVec.getLsbD_zero
  rw [← hhalf, ← hhalf, BitVec.toNat_inj]
  constructor
  · intro h
    apply BitVec.eq_of_getLsbD_eq
    intro i hi
    rw [BitVec.getLsbD_ushiftRight, BitVec.getLsbD_ushiftRight]
    by_cases hlast : 1 + i < 32
    · have hbit := congrArg (fun z : U32 => z.getLsbD (1 + i)) h
      rw [BitVec.getLsbD_and, BitVec.getLsbD_xor, hmask _ hlast, hzero] at hbit
      revert hbit
      cases x.getLsbD (1 + i) <;> cases y.getLsbD (1 + i) <;> simp
    · rw [BitVec.getLsbD_of_ge _ _ (by omega), BitVec.getLsbD_of_ge _ _ (by omega)]
  · intro h
    apply BitVec.eq_of_getLsbD_eq
    intro i hi
    rw [BitVec.getLsbD_and, BitVec.getLsbD_xor, hmask i hi, hzero]
    cases i with
    | zero => exact Bool.and_false _
    | succ i =>
      have hbit := congrArg (fun z : U32 => z.getLsbD i) h
      rw [BitVec.getLsbD_ushiftRight, BitVec.getLsbD_ushiftRight, Nat.add_comm] at hbit
      rw [hbit, Bool.xor_self, Bool.false_and]

/-- The block that the list would repeat. -/
def block (chanlist : List U32) : Nat :=
  blockLength (chanNat ∘ entryAt chanlist) chanlist.length

/-- What step 5 asks for, entry by entry. -/
structure Passes (nChan : U32) (hwver : U16) (chanlist : List U32) : Prop where
  periodic : Periodic (entryAt chanlist) (block chanlist) chanlist.length
  references : ∀ i < chanlist.length, ∀ j < chanlist.length,
    crAref (entryAt chanlist i) = crAref (entryAt chanlist j)
  polarities : ∀ i < chanlist.length, ∀ j < chanlist.length,
    polarity (entryAt chanlist i) = polarity (entryAt chanlist j)
  pairs : ∀ i < chanlist.length, 0 < i → crAref (entryAt chanlist i) ≠ arefDiff →
    chanNat (entryAt chanlist i) / 2 = chanNat (entryAt chanlist (i - 1)) / 2 →
      crRange (entryAt chanlist i) = crRange (entryAt chanlist (i - 1))
  differentials : ∀ i < chanlist.length, crAref (entryAt chanlist i) = arefDiff →
    chanNat (entryAt chanlist i) < nChan.toNat / 2
  first : 0 < hwver ∧ hwver < 4 → 1 < block chanlist → crChan (entryAt chanlist 0) = 0

theorem no_flag {flag : Bool} {p : Nat → Prop} {m : Nat} (h : flag = true ↔ ∃ n < m, p n) :
    ¬ flag = true ↔ ∀ n < m, ¬ p n := by
  rw [h]
  exact ⟨fun hnone n hn hp => hnone ⟨n, hn, hp⟩, fun hall ⟨n, hn, hp⟩ => hall n hn hp⟩

theorem checkChanlist_iff :
    checkChanlist nChan chanlist hwver = 0 ↔ Passes nChan hwver chanlist := by
  have hseen := @seen_entries nChan chanlist chanlist.length
  have hblock : (if (checkEntries nChan chanlist).subseqLen = 0 then chanlist.length else
      (checkEntries nChan chanlist).subseqLen) = block chanlist := by
    unfold checkEntries
    rw [hseen.subseq]
    rfl
  unfold checkChanlist
  dsimp only
  rw [hblock]
  unfold checkEntries
  generalize (List.range chanlist.length).foldl (checkEntry nChan chanlist) {} = c at hseen ⊢
  have hperiodic : (¬ c.seqErr = true ∧ chanlist.length % block chanlist = 0) ↔
      Periodic (entryAt chanlist) (block chanlist) chanlist.length := by
    rw [no_flag hseen.seqErr, and_comm, ← Nat.dvd_iff_mod_eq_zero]
    refine and_congr_right fun _ => ?_
    refine Iff.trans ?_ compared_iff
    refine forall_congr' fun i => forall_congr' fun _ => ?_
    rw [not_and, not_and, not_ne_iff]
    rfl
  have hreferences : ¬ c.arefErr = true ↔ ∀ i < chanlist.length, ∀ j < chanlist.length,
      crAref (entryAt chanlist i) = crAref (entryAt chanlist j) := by
    rw [no_flag hseen.arefErr, ← neighbours_iff]
    simp only [not_and, not_ne_iff]
  have hpolarities : ¬ c.polarityErr = true ↔ ∀ i < chanlist.length, ∀ j < chanlist.length,
      polarity (entryAt chanlist i) = polarity (entryAt chanlist j) := by
    rw [no_flag hseen.polarityErr, ← neighbours_iff]
    simp only [not_and, not_ne_iff]
  have hpairs : ¬ c.rangepairErr = true ↔ ∀ i < chanlist.length, 0 < i →
      crAref (entryAt chanlist i) ≠ arefDiff →
        chanNat (entryAt chanlist i) / 2 = chanNat (entryAt chanlist (i - 1)) / 2 →
          crRange (entryAt chanlist i) = crRange (entryAt chanlist (i - 1)) := by
    rw [no_flag hseen.rangepairErr]
    simp only [not_and, not_ne_iff, pair_iff]
    rfl
  have hdifferentials : ¬ c.diffchanErr = true ↔ ∀ i < chanlist.length,
      crAref (entryAt chanlist i) = arefDiff →
        chanNat (entryAt chanlist i) < nChan.toNat / 2 := by
    rw [no_flag hseen.diffchanErr]
    simp only [not_and, BitVec.le_def, BitVec.toNat_udiv, not_le]
    rfl
  have hzero : ∀ (p : Prop) [Decidable p], ((if p then 5 else 0 : Int) = 0 ↔ ¬ p) := by
    intro p _
    by_cases hp : p
    · rw [if_pos hp]
      exact iff_of_false (by decide) (not_not.mpr hp)
    · rw [if_neg hp]
      exact iff_of_true rfl hp
  rw [hzero]
  simp only [decide_eq_true_iff, not_or]
  constructor
  · rintro ⟨⟨hseq, hlength⟩, hrange, hpol, href, hdiff, hfirst⟩
    exact ⟨hperiodic.mp ⟨hseq, not_not.mp hlength⟩, hreferences.mp href, hpolarities.mp hpol,
      hpairs.mp hrange, hdifferentials.mp hdiff,
      fun hver hlong => not_not.mp fun hne => hfirst ⟨hver, hlong, hne⟩⟩
  · intro h
    obtain ⟨hseq, hlength⟩ := hperiodic.mpr h.periodic
    exact ⟨⟨hseq, not_not.mpr hlength⟩, hpairs.mpr h.pairs, hpolarities.mpr h.polarities,
      hreferences.mpr h.references, hdifferentials.mpr h.differentials,
      fun hbad => hbad.2.2 (h.first hbad.1 hbad.2.1)⟩

theorem exists_entry {x : U32} (h : x ∈ chanlist) :
    ∃ i < chanlist.length, entryAt chanlist i = x := by
  obtain ⟨i, hi, rfl⟩ := List.mem_iff_getElem.mp h
  exact ⟨i, hi, List.getD_eq_getElem _ _ hi⟩

/-- In a block that rises the two channels of a pair are neighbours. -/
theorem pair_in_block {n i j : Nat} (hrises : Rises (chanNat ∘ entryAt chanlist) n) (hij : i < j)
    (hj : j < n) (hpair : chanNat (entryAt chanlist i) / 2 = chanNat (entryAt chanlist j) / 2) :
    i = j - 1 := by
  by_contra hne
  have hfirst := hrises.lt (show i < j - 1 by omega) (by omega)
  have hsecond := hrises.lt (show j - 1 < j by omega) hj
  simp only [Function.comp_apply] at hfirst hsecond
  omega

theorem scannable_of_passes (hne : chanlist ≠ []) (h : Passes nChan hwver chanlist) :
    Scannable nChan hwver chanlist := by
  have hpos : 0 < chanlist.length := List.length_pos_iff.mpr hne
  have hblock : 0 < block chanlist := blockLength_pos hpos
  have hle : block chanlist ≤ chanlist.length := blockLength_le
  have hrises : Rises (chanNat ∘ entryAt chanlist) (block chanlist) := rises_blockLength
  have hlength : (chanlist.take (block chanlist)).length = block chanlist := by
    rw [List.length_take, Nat.min_eq_left hle]
  have hranges : ∀ i j, i < j → j < block chanlist → crAref (entryAt chanlist j) ≠ arefDiff →
      chanNat (entryAt chanlist i) / 2 = chanNat (entryAt chanlist j) / 2 →
        crRange (entryAt chanlist i) = crRange (entryAt chanlist j) := by
    intro i j hij hj hsingle hpair
    obtain rfl := pair_in_block hrises hij hj hpair
    exact (h.pairs j (by omega) (by omega) hsingle hpair.symm).symm
  refine ⟨⟨chanlist.take (block chanlist), _, replicate_of_periodic hblock h.periodic, ?_, ?_⟩,
    ?_, ?_, ?_, ?_⟩
  · exact (rises_take hle).mp hrises
  · intro hver hlong
    rw [hlength] at hlong
    have hfirst := h.first hver hlong
    rw [entryAt, List.getD_eq_getElem _ _ hpos] at hfirst
    rw [List.getD_eq_getElem _ _ (by rw [hlength]; omega), List.getElem_take]
    exact hfirst
  · intro x hx y hy
    obtain ⟨i, hi, rfl⟩ := exists_entry hx
    obtain ⟨j, hj, rfl⟩ := exists_entry hy
    exact h.references i hi j hj
  · intro x hx y hy
    obtain ⟨i, hi, rfl⟩ := exists_entry hx
    obtain ⟨j, hj, rfl⟩ := exists_entry hy
    exact h.polarities i hi j hj
  · intro x hx y hy hsingle hsingle' hpair
    obtain ⟨i, hi, rfl⟩ := exists_entry hx
    obtain ⟨j, hj, rfl⟩ := exists_entry hy
    rw [h.periodic.2 i hi] at hsingle hpair ⊢
    rw [h.periodic.2 j hj] at hsingle' hpair ⊢
    have hi' := Nat.mod_lt i hblock
    have hj' := Nat.mod_lt j hblock
    rcases Nat.lt_trichotomy (i % block chanlist) (j % block chanlist) with hlt | heq | hlt
    · exact hranges _ _ hlt hj' hsingle' hpair
    · rw [heq]
    · exact (hranges _ _ hlt hi' hsingle hpair.symm).symm
  · intro x hx hdiff
    obtain ⟨i, hi, rfl⟩ := exists_entry hx
    exact h.differentials i hi hdiff

theorem passes_of_scannable (hne : chanlist ≠ []) (h : Scannable nChan hwver chanlist) :
    Passes nChan hwver chanlist := by
  have hpos : 0 < chanlist.length := List.length_pos_iff.mpr hne
  have hmem : ∀ i < chanlist.length, entryAt chanlist i ∈ chanlist := by
    intro i hi
    rw [entryAt, List.getD_eq_getElem _ _ hi]
    exact List.getElem_mem hi
  obtain ⟨⟨repeated, reps, hlist, hrising, hfirst⟩, href, hpol, hpairs, hdiff⟩ := h
  have hperiodic : Periodic (entryAt chanlist) repeated.length chanlist.length :=
    periodic_of_replicate hlist
  have htotal : chanlist.length = reps * repeated.length := by
    rw [hlist, length_replicate_flatten]
  have hlength : 0 < repeated.length := Nat.pos_of_ne_zero fun hzero => by
    rw [hzero, Nat.mul_zero] at htotal
    omega
  have htake : chanlist.take repeated.length = repeated := by
    cases reps with
    | zero =>
      rw [Nat.zero_mul] at htotal
      omega
    | succ reps =>
      rw [hlist, List.replicate_succ, List.flatten_cons]
      exact List.take_left
  have hle : repeated.length ≤ chanlist.length := Nat.le_of_dvd hpos hperiodic.1
  have hrises : Rises (chanNat ∘ entryAt chanlist) repeated.length := by
    refine (rises_take hle).mpr ?_
    rw [htake]
    exact hrising
  have hblock : block chanlist = repeated.length := blockLength_eq hlength hpos hrises hperiodic
  refine ⟨by rw [hblock]; exact hperiodic, fun i hi j hj => href _ (hmem i hi) _ (hmem j hj),
    fun i hi j hj => hpol _ (hmem i hi) _ (hmem j hj), fun i hi hpos' hsingle hpair => ?_,
    fun i hi => hdiff _ (hmem i hi), fun hver hlong => ?_⟩
  · have hsame := href _ (hmem i hi) _ (hmem (i - 1) (by omega))
    exact hpairs _ (hmem i hi) _ (hmem (i - 1) (by omega)) hsingle (hsame ▸ hsingle) hpair
  · rw [hblock] at hlong
    have hzero := hfirst hver hlong
    rw [← htake, List.getD_eq_getElem _ _ (by rw [htake]; omega), List.getElem_take] at hzero
    rw [entryAt, List.getD_eq_getElem _ _ hpos]
    exact hzero

/-- Step 5 accepts exactly the channel lists that the hardware can scan. -/
theorem checkChanlist_scannable (hne : chanlist ≠ []) :
    checkChanlist nChan chanlist hwver = 0 ↔ Scannable nChan hwver chanlist :=
  checkChanlist_iff.trans ⟨scannable_of_passes hne, passes_of_scannable hne⟩

end Accepted

end Comedi.Pci230Chanlist
