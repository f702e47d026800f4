import Comedi.Pci230Chanlist

namespace Comedi.Pci230ScanList

open ChanlistCheck Pci230 Pci230Chanlist Repeats

section Bits

variable {hwver : U16} {diff : Prop} [Decidable diff] {chan : U32} {i s t : Nat}

theorem one_shift_bit {c : Nat} (hi : i < 16) :
    ((1 : U16) <<< c).getLsbD i = decide (i = c) := by
  have hone : ∀ k, (1 : U16).getLsbD k = decide (k = 0) := fun k => by
    rw [show (1 : U16) = 1#16 from rfl, BitVec.getLsbD_one]
    simp
  rw [BitVec.getLsbD_shiftLeft, hone]
  by_cases h : i < c
  · simp [h, show i ≠ c by omega]
  · simp [hi, h, show i - c = 0 ↔ i = c by omega]

theorem three_shift_bit {c : Nat} (hi : i < 16) :
    ((3 : U16) <<< c).getLsbD i = decide (c ≤ i ∧ i < c + 2) := by
  have hthree : ∀ k < 16, (3 : U16).getLsbD k = decide (k < 2) := by decide
  rw [BitVec.getLsbD_shiftLeft]
  by_cases h : i < c
  · simp [h, show ¬ c ≤ i by omega]
  · rw [hthree _ (by omega)]
    simp [hi, h, show c ≤ i by omega, show i - c < 2 ↔ i < c + 2 by omega]

theorem small_bit {g k : Nat} (hg : g < 4) (hk : 2 ≤ k) :
    (BitVec.ofNat 16 g).getLsbD k = false := by
  have hlt : g < 2 ^ k := lt_of_lt_of_le hg (Nat.pow_le_pow_right (show 0 < 2 by decide) hk)
  rw [BitVec.getLsbD_ofNat, Nat.testBit_lt_two_pow hlt, Bool.and_false]

theorem three_bit (k : Nat) : (3 : U16).getLsbD k = decide (k < 2) := by
  by_cases hk : 2 ≤ k
  · rw [show (3 : U16) = BitVec.ofNat 16 3 from rfl, small_bit (by decide) hk]
    exact (decide_eq_false (by omega)).symm
  · have hall : ∀ k < 2, (3 : U16).getLsbD k = decide (k < 2) := by decide
    exact hall k (by omega)

/-- A gain is put into the field of its own pair of channels alone. -/
theorem gainField_set {g : Nat} (hg : g < 4) (adcg : U16) (hs : s % 2 = 0) (hs' : s < 16)
    (ht : t % 2 = 0) :
    gainField ((adcg &&& ~~~((3 : U16) <<< t)) ||| (BitVec.ofNat 16 g <<< t)) s =
      if t = s then g else gainField adcg s := by
  have hfield : (((adcg &&& ~~~((3 : U16) <<< t)) ||| (BitVec.ofNat 16 g <<< t)) >>> s) &&& 3 =
      if t = s then BitVec.ofNat 16 g else (adcg >>> s) &&& 3 := by
    apply BitVec.eq_of_getLsbD_eq
    intro j hj
    rw [BitVec.getLsbD_and, three_bit]
    by_cases hj' : j < 2
    · have hthree : ((3 : U16) <<< t).getLsbD (s + j) = decide (t = s) := by
        rw [three_shift_bit (by omega), decide_eq_decide]
        omega
      have hgain : (BitVec.ofNat 16 g <<< t).getLsbD (s + j) =
          (decide (t = s) && (BitVec.ofNat 16 g).getLsbD j) := by
        rw [BitVec.getLsbD_shiftLeft, decide_eq_true (show s + j < 16 by omega), Bool.true_and]
        by_cases heq : t = s
        · rw [decide_eq_true heq, decide_eq_false (by omega), heq, Nat.add_sub_cancel_left]
          rfl
        · rw [decide_eq_false heq, Bool.false_and]
          by_cases hlow : s + j < t
          · rw [decide_eq_true hlow]
            rfl
          · rw [small_bit hg (by omega), Bool.and_false]
      rw [decide_eq_true hj', Bool.and_true, BitVec.getLsbD_ushiftRight, BitVec.getLsbD_or,
        BitVec.getLsbD_and, BitVec.getLsbD_not, hthree, hgain]
      by_cases heq : t = s
      · simp [heq]
      · rw [if_neg heq, decide_eq_false heq, BitVec.getLsbD_and, BitVec.getLsbD_ushiftRight,
          three_bit, decide_eq_true hj']
        simp [show s + j < 16 by omega]
    · rw [decide_eq_false hj', Bool.and_false]
      split
      next => exact (small_bit hg (by omega)).symm
      next =>
        rw [BitVec.getLsbD_and, three_bit, decide_eq_false hj', Bool.and_false]
  have hsmall : (BitVec.ofNat 16 g).toNat = g := by
    rw [BitVec.toNat_ofNat, Nat.mod_eq_of_lt (by omega)]
  unfold gainField
  rw [hfield]
  split
  · exact hsmall
  · rfl

end Bits

section Loop

variable {hwver : U16} {diff : Prop} [Decidable diff] {chanlist : List U32} {e : Enabled}
  {s g i : Nat}

def enableAll (hwver : U16) (diff : Prop) [Decidable diff] (e : Enabled) (chanlist : List U32) :
    Enabled := chanlist.foldl (enableEntry hwver diff) e

theorem gain_lt (entry : U32) : gain entry < 4 := by
  unfold gain
  generalize (crRange entry).toNat = n
  rcases Nat.lt_or_ge n 7 with h | h
  · have hall : ∀ n < 7, pci230AiGain.getD n 0 < 4 := by decide
    exact hall n h
  · rw [List.getD_eq_default _ _ h]
    decide

/-- The channels of a field share it. -/
theorem gainshift_even (diff : Prop) [Decidable diff] (chan : U32) :
    gainshift diff chan = if diff then 2 * chan.toNat else chan.toNat / 2 * 2 := by
  have hmask : ∀ i < 32, (~~~(1 : U32)).getLsbD i = !decide (i < 1) := by decide
  have hpair : chan &&& ~~~(1 : U32) = (chan >>> 1) <<< 1 := by
    apply BitVec.eq_of_getLsbD_eq
    intro i hi
    rw [BitVec.getLsbD_and, hmask i hi, BitVec.getLsbD_shiftLeft, BitVec.getLsbD_ushiftRight]
    cases i with
    | zero => simp
    | succ i => simp [hi, Nat.add_comm 1 i]
  have hchan := chan.isLt
  unfold gainshift
  split
  · rfl
  · rw [hpair, BitVec.toNat_shiftLeft, BitVec.toNat_ushiftRight, Nat.shiftRight_eq_div_pow,
      Nat.shiftLeft_eq, pow_one, Nat.mod_eq_of_lt (by omega)]

/-- Where all entries for a field have one gain, the field has it after the loop if there is such an
entry or it had that gain before. -/
theorem enableAll_gain (hs : s % 2 = 0) (hs' : s < 16)
    (hgain : ∀ x ∈ chanlist, gainshift diff (crChan x) = s → gain x = g)
    (h : gainField e.adcg s = g ∨ ∃ x ∈ chanlist, gainshift diff (crChan x) = s) :
    gainField (enableAll hwver diff e chanlist).adcg s = g := by
  induction chanlist generalizing e with
  | nil =>
    rcases h with h | ⟨x, hx, -⟩
    · exact h
    · cases hx
  | cons x chanlist ih =>
    have heven : gainshift diff (crChan x) % 2 = 0 := by
      rw [gainshift_even]
      split <;> omega
    have hset := @gainField_set s (gainshift diff (crChan x)) (gain x) (gain_lt x) e.adcg hs hs'
      heven
    refine ih (fun y hy => hgain y (List.mem_cons_of_mem _ hy)) ?_
    by_cases heq : gainshift diff (crChan x) = s
    · rw [if_pos heq] at hset
      exact .inl (hset.trans (hgain x List.mem_cons_self heq))
    · rw [if_neg heq] at hset
      rcases h with h | ⟨y, hy, hshift⟩
      · exact .inl (hset.trans h)
      · rcases List.mem_cons.mp hy with rfl | hy
        · exact absurd hshift heq
        · exact .inr ⟨y, hy, hshift⟩

theorem enableAll_bit (i : Nat) :
    (enableAll hwver diff e chanlist).adcen.getLsbD i = true ↔
      e.adcen.getLsbD i = true ∨
        ∃ x ∈ chanlist, (channelBits hwver diff (crChan x)).getLsbD i = true := by
  induction chanlist generalizing e with
  | nil => simp [enableAll]
  | cons x chanlist ih =>
    have hstep : (enableEntry hwver diff e x).adcen.getLsbD i =
        (e.adcen.getLsbD i || (channelBits hwver diff (crChan x)).getLsbD i) :=
      BitVec.getLsbD_or
    change (enableAll hwver diff (enableEntry hwver diff e x) chanlist).adcen.getLsbD i = true ↔ _
    rw [ih, hstep, Bool.or_eq_true, List.exists_mem_cons_iff, or_assoc]

end Loop

section Scans

variable {hwver : U16} {diff : Prop} [Decidable diff] {chanlist : List U32} {adcg : U16}
  {nChan : U32}

/-- The channels that the board has in the mode of its inputs. -/
def Present (diff : Prop) [Decidable diff] (chanlist : List U32) : Prop :=
  ∀ x ∈ chanlist, chanNat x < if diff then 8 else 16

theorem mem_scanned (hpresent : Present diff chanlist) (n : Nat) :
    n ∈ scanned hwver diff (enableAll hwver diff ⟨0, adcg⟩ chanlist).adcen ↔
      ∃ x ∈ chanlist, chanNat x = n := by
  have hbit : ∀ i, (enableAll hwver diff ⟨0, adcg⟩ chanlist).adcen.getLsbD i = true ↔
      ∃ x ∈ chanlist, (channelBits hwver diff (crChan x)).getLsbD i = true := by
    intro i
    rw [enableAll_bit]
    exact or_iff_right (by simp)
  unfold scanned
  by_cases hdiff : diff
  · have hlt : ∀ x ∈ chanlist, chanNat x < 8 := fun x hx => by simpa [hdiff] using hpresent x hx
    have hgate : ∀ x, n < 8 → (channelBits hwver diff (crChan x)).getLsbD (2 * n) =
        decide (chanNat x = n) := by
      intro x hn
      unfold channelBits gainshift
      rw [if_pos hdiff, if_pos hdiff]
      split
      · rw [three_shift_bit (by omega), decide_eq_decide]
        unfold chanNat
        omega
      · rw [one_shift_bit (by omega), decide_eq_decide]
        unfold chanNat
        omega
    have hodd : ∀ x, n < 8 → hwver = 0 →
        (channelBits hwver diff (crChan x)).getLsbD (2 * n + 1) = decide (chanNat x = n) := by
      intro x hn hzero
      unfold channelBits gainshift
      rw [if_pos hdiff, if_pos hdiff, if_pos hzero, three_shift_bit (by omega), decide_eq_decide]
      unfold chanNat
      omega
    rw [if_pos hdiff, List.mem_filter, List.mem_range, Bool.and_eq_true, Bool.or_eq_true, hbit,
      hbit, decide_eq_true_iff]
    constructor
    · rintro ⟨hn, ⟨x, hx, heven⟩, -⟩
      rw [hgate x hn, decide_eq_true_iff] at heven
      exact ⟨x, hx, heven⟩
    · rintro ⟨x, hx, rfl⟩
      have hn := hlt x hx
      refine ⟨hn, ⟨x, hx, (hgate x hn).trans (decide_eq_true rfl)⟩, ?_⟩
      by_cases hzero : hwver = 0
      · exact .inr ⟨x, hx, (hodd x hn hzero).trans (decide_eq_true rfl)⟩
      · exact .inl hzero
  · have hlt : ∀ x ∈ chanlist, chanNat x < 16 := fun x hx => by simpa [hdiff] using hpresent x hx
    have hgate : ∀ x, n < 16 → (channelBits hwver diff (crChan x)).getLsbD n =
        decide (n = chanNat x) := by
      intro x hn
      unfold channelBits
      rw [if_neg hdiff]
      exact one_shift_bit hn
    rw [if_neg hdiff, List.mem_filter, List.mem_range, hbit]
    constructor
    · rintro ⟨hn, x, hx, hset⟩
      rw [hgate x hn, decide_eq_true_iff] at hset
      exact ⟨x, hx, hset.symm⟩
    · rintro ⟨x, hx, rfl⟩
      exact ⟨hlt x hx, x, hx, (hgate x (hlt x hx)).trans (decide_eq_true rfl)⟩

/-- The hardware scans the channels of the block in their order. -/
theorem scanned_eq {hwver' : U16} (hne : chanlist ≠ []) (h : Passes nChan hwver' chanlist)
    (hpresent : Present diff chanlist) :
    scanned hwver diff (enableAll hwver diff ⟨0, adcg⟩ chanlist).adcen =
      (chanlist.take (block chanlist)).map chanNat := by
  have hpos : 0 < chanlist.length := List.length_pos_iff.mpr hne
  have hblock : 0 < block chanlist := blockLength_pos hpos
  have hle : block chanlist ≤ chanlist.length := blockLength_le
  have hsorted : (scanned hwver diff
      (enableAll hwver diff ⟨0, adcg⟩ chanlist).adcen).Pairwise (· < ·) := by
    unfold scanned
    split
    · exact List.pairwise_lt_range.filter _
    · exact List.pairwise_lt_range.filter _
  have hrises : ((chanlist.take (block chanlist)).map chanNat).Pairwise (· < ·) :=
    List.pairwise_map.mpr ((rises_take hle).mp rises_blockLength)
  refine hsorted.eq_of_mem_iff hrises fun n => ?_
  rw [mem_scanned hpresent, List.mem_map]
  constructor
  · rintro ⟨x, hx, rfl⟩
    obtain ⟨i, hi, rfl⟩ := exists_entry hx
    have hmod := Nat.mod_lt i hblock
    refine ⟨entryAt chanlist (i % block chanlist), ?_, by rw [← h.periodic.2 i hi]⟩
    rw [entryAt, List.getD_eq_getElem _ _ (by omega)]
    exact List.mem_take_iff_getElem.mpr ⟨_, by omega, rfl⟩
  · rintro ⟨x, hx, rfl⟩
    exact ⟨x, List.mem_of_mem_take hx, rfl⟩

theorem all_differential (h : Scannable nChan hwver chanlist) (hdiff : differential chanlist)
    {x : U32} (hx : x ∈ chanlist) : crAref x = arefDiff := by
  have hpos : 0 < chanlist.length := List.length_pos_iff.mpr (List.ne_nil_of_mem hx)
  have hfirst : chanlist.getD 0 0 ∈ chanlist := by
    rw [List.getD_eq_getElem _ _ hpos]
    exact List.getElem_mem hpos
  exact (h.reference x hx _ hfirst).trans hdiff

theorem all_single (h : Scannable nChan hwver chanlist) (hdiff : ¬ differential chanlist)
    {x : U32} (hx : x ∈ chanlist) : crAref x ≠ arefDiff := by
  have hpos : 0 < chanlist.length := List.length_pos_iff.mpr (List.ne_nil_of_mem hx)
  have hfirst : chanlist.getD 0 0 ∈ chanlist := by
    rw [List.getD_eq_getElem _ _ hpos]
    exact List.getElem_mem hpos
  exact fun heq => hdiff ((h.reference x hx _ hfirst).symm.trans heq)

/-- A channel has one entry in the block, which is then repeated. -/
theorem entry_of_chan (h : Passes nChan hwver chanlist) {x y : U32} (hx : x ∈ chanlist)
    (hy : y ∈ chanlist) (hchan : chanNat x = chanNat y) : x = y := by
  have hblock : 0 < block chanlist :=
    blockLength_pos (List.length_pos_iff.mpr (List.ne_nil_of_mem hx))
  have hrises : Rises (chanNat ∘ entryAt chanlist) (block chanlist) := rises_blockLength
  obtain ⟨i, hi, rfl⟩ := exists_entry hx
  obtain ⟨j, hj, rfl⟩ := exists_entry hy
  rw [h.periodic.2 i hi, h.periodic.2 j hj] at hchan ⊢
  have hi' := Nat.mod_lt i hblock
  have hj' := Nat.mod_lt j hblock
  rcases Nat.lt_trichotomy (i % block chanlist) (j % block chanlist) with hlt | heq | hlt
  · exact absurd hchan (hrises.lt hlt hj').ne
  · rw [heq]
  · exact absurd hchan (hrises.lt hlt hi').ne'

/-- Entries for one field of gains have one gain. -/
theorem gain_of_shift (h : Scannable nChan hwver chanlist) {x y : U32} (hx : x ∈ chanlist)
    (hy : y ∈ chanlist)
    (hshift : gainshift (differential chanlist) (crChan x) =
      gainshift (differential chanlist) (crChan y)) : gain x = gain y := by
  rw [gainshift_even, gainshift_even] at hshift
  by_cases hdiff : differential chanlist
  · rw [if_pos hdiff, if_pos hdiff] at hshift
    have hpasses := passes_of_scannable (List.ne_nil_of_mem hx) h
    rw [entry_of_chan hpasses hx hy (by unfold chanNat; omega)]
  · rw [if_neg hdiff, if_neg hdiff] at hshift
    have hrange := h.pairs x hx y hy (all_single h hdiff hx) (all_single h hdiff hy) (by omega)
    unfold gain
    rw [hrange]

theorem present_of_scannable (h : Scannable nChan hwver chanlist) (hchans : nChan.toNat ≤ 16)
    (hpresent : ∀ x ∈ chanlist, chanNat x < nChan.toNat) :
    Present (differential chanlist) chanlist := by
  intro x hx
  split
  next hdiff =>
    have hhalf := h.differentials x hx (all_differential h hdiff hx)
    unfold chanNat
    omega
  next =>
    have hchan := hpresent x hx
    omega

/-- What is programmed for a list: sample `k` of the scans is of the channel of entry `k`, with its
gain. -/
structure Programs (hwver adcg : U16) (chanlist : List U32) (k : Nat) : Prop where
  channel : (scanned hwver (differential chanlist) (enableChanlist hwver adcg chanlist).adcen)[k %
    (scanned hwver (differential chanlist) (enableChanlist hwver adcg chanlist).adcen).length]? =
      some (chanNat (entryAt chanlist k))
  gain : gainField (enableChanlist hwver adcg chanlist).adcg
    (gainshift (differential chanlist) (crChan (entryAt chanlist k))) = gain (entryAt chanlist k)

/-- Step 5 accepts exactly the lists that the hardware can scan, and what is then programmed scans
them. -/
theorem scan_list (hne : chanlist ≠ []) (hchans : nChan.toNat ≤ 16)
    (hpresent : ∀ x ∈ chanlist, (crChan x).toNat < nChan.toNat) (hwver adcg : U16) :
    (checkChanlist nChan chanlist hwver = 0 ↔ Scannable nChan hwver chanlist) ∧
      (checkChanlist nChan chanlist hwver = 0 →
        ∀ k < chanlist.length, Programs hwver adcg chanlist k) := by
  refine ⟨checkChanlist_scannable hne, fun haccepted k hk => ?_⟩
  have hpasses := checkChanlist_iff.mp haccepted
  have hscannable := (checkChanlist_scannable hne).mp haccepted
  have hpresent' := present_of_scannable hscannable hchans hpresent
  have hpos : 0 < chanlist.length := by omega
  have hblock : 0 < block chanlist := blockLength_pos hpos
  have hle : block chanlist ≤ chanlist.length := blockLength_le
  have hmem : ∀ i < chanlist.length, entryAt chanlist i ∈ chanlist := by
    intro i hi
    rw [entryAt, List.getD_eq_getElem _ _ hi]
    exact List.getElem_mem hi
  have hmod := Nat.mod_lt k hblock
  constructor
  · have hscanned := @scanned_eq hwver (differential chanlist) _ chanlist adcg nChan hwver hne
      hpasses hpresent'
    unfold enableChanlist
    change (scanned hwver _ (enableAll hwver _ ⟨0, adcg⟩ chanlist).adcen)[k %
      (scanned hwver _ (enableAll hwver _ ⟨0, adcg⟩ chanlist).adcen).length]? = _
    rw [hscanned, List.length_map, List.length_take, Nat.min_eq_left hle, List.getElem?_map,
      List.getElem?_take_of_lt hmod, List.getElem?_eq_getElem (by omega), Option.map_some,
      hpasses.periodic.2 k hk, entryAt, List.getD_eq_getElem _ _ (by omega)]
  · have hshift := gainshift_even (differential chanlist) (crChan (entryAt chanlist k))
    have hlt := hpresent' _ (hmem k hk)
    refine enableAll_gain (by rw [hshift]; split <;> omega) ?_
      (fun x hx heq => gain_of_shift hscannable hx (hmem k hk) heq) (.inr ⟨_, hmem k hk, rfl⟩)
    rw [hshift]
    unfold chanNat at hlt
    split at hlt
    next hdiff =>
      rw [if_pos hdiff]
      omega
    next hdiff =>
      rw [if_neg hdiff]
      omega

theorem scan_list_pairs :
    checkChanlist 16 [0, 1, 0, 1] 1 = 0 ∧ Programs 1 0xffff [0, 1, 0, 1] 3 := by
  have hpresent : ([0, 1, 0, 1] : List U32).all fun x => (crChan x).toNat < (16 : U32).toNat := by
    decide
  exact ⟨by decide, (@scan_list [0, 1, 0, 1] 16 nofun (by decide)
    (fun x hx => of_decide_eq_true (List.all_eq_true.mp hpresent x hx)) 1 0xffff).2
    (by decide) 3 (by decide)⟩

end Scans

end Comedi.Pci230ScanList
