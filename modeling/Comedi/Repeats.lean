import Mathlib.Data.List.GetD
import Mathlib.Data.Nat.Basic
import Mathlib.Order.Lattice

namespace Repeats

variable {α κ : Type*} [LinearOrder κ] {key : α → κ} {x : Nat → α} {a : Nat → κ} {b n m : Nat}

/-- The first place, after the beginning and among the first `n`, where a sequence does not rise, or
0. -/
def firstFall (a : Nat → κ) : Nat → Nat
  | 0 => 0
  | n + 1 => if firstFall a n = 0 ∧ 0 < n ∧ a n ≤ a (n - 1) then n else firstFall a n

def Rises (a : Nat → κ) (n : Nat) : Prop := ∀ i, 0 < i → i < n → a (i - 1) < a i

theorem firstFall_eq_zero : firstFall a n = 0 ↔ Rises a n := by
  induction n with
  | zero => exact iff_of_true rfl nofun
  | succ n ih =>
    unfold firstFall
    split
    next h =>
      refine iff_of_false (by omega) fun hrises => ?_
      exact absurd (hrises n h.2.1 (by omega)) (not_lt.mpr h.2.2)
    next h =>
      rw [ih]
      constructor
      · intro hrises i hi hlt
        by_cases heq : i = n
        · subst heq
          exact lt_of_not_ge fun hle => h ⟨ih.mpr hrises, hi, hle⟩
        · exact hrises i hi (by omega)
      · exact fun hrises i hi hlt => hrises i hi (by omega)

theorem firstFall_spec (h : firstFall a n ≠ 0) :
    firstFall a n < n ∧ a (firstFall a n) ≤ a (firstFall a n - 1) ∧
      Rises a (firstFall a n) := by
  induction n with
  | zero => exact absurd rfl h
  | succ n ih =>
    unfold firstFall at h ⊢
    split
    next hfall => exact ⟨by omega, hfall.2.2, firstFall_eq_zero.mp hfall.1⟩
    next hfall =>
      rw [if_neg hfall] at h
      obtain ⟨hlt, hle, hrises⟩ := ih h
      exact ⟨by omega, hle, hrises⟩

/-- A sequence that rises up to a fall has its first fall there. -/
theorem firstFall_eq (hrises : Rises a b) (hpos : 0 < b) (hfall : a b ≤ a (b - 1)) (hlt : b < n) :
    firstFall a n = b := by
  induction n with
  | zero => exact absurd hlt (Nat.not_lt_zero _)
  | succ n ih =>
    unfold firstFall
    by_cases heq : b = n
    · subst heq
      rw [if_pos ⟨firstFall_eq_zero.mpr hrises, hpos, hfall⟩]
    · rw [ih (by omega), if_neg fun h => by omega]

theorem firstFall_stable (h : firstFall a n ≠ 0) (hle : n ≤ m) : firstFall a m = firstFall a n := by
  obtain ⟨hlt, hfall, hrises⟩ := firstFall_spec h
  exact firstFall_eq hrises (Nat.pos_of_ne_zero h) hfall (by omega)

/-- The length of the block that a sequence of `n` would have to repeat. -/
def blockLength (a : Nat → κ) (n : Nat) : Nat := if firstFall a n = 0 then n else firstFall a n

/-- The first `n` elements repeat a block of `b` exactly. -/
def Periodic (x : Nat → α) (b n : Nat) : Prop := b ∣ n ∧ ∀ i < n, x i = x (i % b)

theorem blockLength_pos (h : 0 < n) : 0 < blockLength a n := by
  unfold blockLength
  split
  · exact h
  next hne => exact Nat.pos_of_ne_zero hne

theorem blockLength_le : blockLength a n ≤ n := by
  unfold blockLength
  split
  · exact le_refl _
  next hne => exact (firstFall_spec hne).1.le

theorem rises_blockLength : Rises a (blockLength a n) := by
  unfold blockLength
  split
  next h => exact firstFall_eq_zero.mp h
  next h => exact (firstFall_spec h).2.2

theorem Rises.lt (h : Rises a n) {i j : Nat} (hij : i < j) (hj : j < n) : a i < a j := by
  induction j with
  | zero => exact absurd hij (Nat.not_lt_zero _)
  | succ j ih =>
    have hlast := h (j + 1) (by omega) hj
    rcases Nat.lt_or_eq_of_le (Nat.le_of_lt_succ hij) with hlt | rfl
    · exact (ih hlt (by omega)).trans hlast
    · exact hlast

theorem Rises.le (h : Rises a n) {i : Nat} (hi : i < n) : a 0 ≤ a i := by
  rcases Nat.eq_zero_or_pos i with rfl | hpos
  · exact le_refl _
  · exact (h.lt hpos hi).le

/-- Only a block up to the first fall can be repeated. -/
theorem blockLength_eq (hpos : 0 < b) (hn : 0 < n) (hrises : Rises (key ∘ x) b)
    (h : Periodic x b n) : blockLength (key ∘ x) n = b := by
  obtain ⟨⟨k, rfl⟩, hrepeat⟩ := h
  unfold blockLength
  rcases Nat.lt_or_ge 1 k with hk | hk
  · have hlt : b < b * k := by
      have hmul := Nat.mul_le_mul_left b hk
      omega
    have hagain := hrepeat b hlt
    rw [Nat.mod_self] at hagain
    have hfall : (key ∘ x) b ≤ (key ∘ x) (b - 1) := by
      change key (x b) ≤ _
      rw [hagain]
      exact hrises.le (by omega)
    rw [firstFall_eq hrises hpos hfall hlt, if_neg (by omega)]
  · obtain rfl : k = 1 := by
      rcases Nat.eq_zero_or_pos k with rfl | hk'
      · omega
      · omega
    rw [Nat.mul_one, firstFall_eq_zero.mpr hrises, if_pos rfl]

/-- To compare each element with the one that the first fall so far refers it to is to compare it
with its place in the block. -/
theorem compared_iff :
    (∀ i < n, 0 < i → 0 < firstFall a (i + 1) → x i = x (i % firstFall a (i + 1))) ↔
      ∀ i < n, x i = x (i % blockLength a n) := by
  have hplace : ∀ i < n, firstFall a (i + 1) = 0 → i < blockLength a n := by
    intro i hi hnone
    unfold blockLength
    split
    next => exact hi
    next hfall =>
      by_contra hle
      obtain ⟨-, hfall', -⟩ := firstFall_spec hfall
      have hrises := firstFall_eq_zero.mp hnone (firstFall a n) (Nat.pos_of_ne_zero hfall)
        (by omega)
      exact absurd hfall' (not_le.mpr hrises)
  have hblock : ∀ i < n, firstFall a (i + 1) ≠ 0 → blockLength a n = firstFall a (i + 1) := by
    intro i hi hfall
    have hstable := firstFall_stable hfall (Nat.succ_le_of_lt hi)
    unfold blockLength
    rw [if_neg (by rw [hstable]; exact hfall), hstable]
  constructor
  · intro h i hi
    by_cases hfall : firstFall a (i + 1) = 0
    · rw [Nat.mod_eq_of_lt (hplace i hi hfall)]
    · rw [hblock i hi hfall]
      rcases Nat.eq_zero_or_pos i with rfl | hpos
      · rw [Nat.zero_mod]
      · exact h i hi hpos (Nat.pos_of_ne_zero hfall)
  · intro h i hi hpos hfall
    have hplaced := h i hi
    rwa [hblock i hi (Nat.pos_iff_ne_zero.mp hfall)] at hplaced

/-- Neighbours that all agree agree with all. -/
theorem neighbours_iff {β : Type*} {f : Nat → β} :
    (∀ i < n, 0 < i → f i = f (i - 1)) ↔ ∀ i < n, ∀ j < n, f i = f j := by
  constructor
  · intro h
    have hfirst : ∀ i < n, f i = f 0 := by
      intro i
      induction i with
      | zero => exact fun _ => rfl
      | succ i ih =>
        intro hi
        exact (h (i + 1) hi (Nat.succ_pos i)).trans (ih (by omega))
    exact fun i hi j hj => (hfirst i hi).trans (hfirst j hj).symm
  · exact fun h i hi _ => h i hi (i - 1) (by omega)

section Lists

variable {l block : List α} {d : α} {reps : Nat}

theorem getD_replicate_flatten (reps : Nat) (block : List α) (d : α) {i : Nat}
    (hi : i < reps * block.length) :
    ((List.replicate reps block).flatten).getD i d = block.getD (i % block.length) d := by
  induction reps generalizing i with
  | zero =>
    rw [Nat.zero_mul] at hi
    exact absurd hi (Nat.not_lt_zero _)
  | succ reps ih =>
    rw [List.replicate_succ, List.flatten_cons]
    rcases Nat.lt_or_ge i block.length with h | h
    · rw [List.getD_append _ _ _ _ h, Nat.mod_eq_of_lt h]
    · rw [Nat.succ_mul] at hi
      rw [List.getD_append_right _ _ _ _ h, ih (by omega), ← Nat.mod_eq_sub_mod h]

theorem length_replicate_flatten (reps : Nat) (block : List α) :
    ((List.replicate reps block).flatten).length = reps * block.length := by
  rw [List.length_flatten, List.map_replicate, List.sum_replicate_nat]

theorem periodic_of_replicate (h : l = (List.replicate reps block).flatten) :
    Periodic (fun i => l.getD i d) block.length l.length := by
  have hlength : l.length = reps * block.length := by
    rw [h, length_replicate_flatten]
  refine ⟨⟨reps, by rw [hlength, Nat.mul_comm]⟩, fun i hi => ?_⟩
  have hpos : 0 < block.length := Nat.pos_of_ne_zero fun hzero => by
    rw [hlength, hzero, Nat.mul_zero] at hi
    exact absurd hi (Nat.not_lt_zero _)
  have hmod : i % block.length < reps * block.length :=
    lt_of_le_of_lt (Nat.mod_le _ _) (hlength ▸ hi)
  change l.getD i d = l.getD (i % block.length) d
  rw [h, getD_replicate_flatten _ _ _ (hlength ▸ hi), getD_replicate_flatten _ _ _ hmod,
    Nat.mod_mod]

theorem replicate_of_periodic (hb : 0 < b) (h : Periodic (fun i => l.getD i d) b l.length) :
    l = (List.replicate (l.length / b) (l.take b)).flatten := by
  obtain ⟨⟨k, hk⟩, hrepeat⟩ := h
  rcases Nat.eq_zero_or_pos k with rfl | hkpos
  · rw [Nat.mul_zero] at hk
    rw [hk, Nat.zero_div, List.length_eq_zero_iff.mp hk]
    rfl
  have hle : b ≤ l.length := by
    rw [hk]
    exact Nat.le_mul_of_pos_right _ hkpos
  have htake : (l.take b).length = b := by
    rw [List.length_take, Nat.min_eq_left hle]
  have hlength : (List.replicate (l.length / b) (l.take b)).flatten.length = l.length := by
    rw [length_replicate_flatten, htake, Nat.div_mul_cancel ⟨k, hk⟩]
  refine List.ext_getElem hlength.symm fun i hi hi' => ?_
  have hget := @getD_replicate_flatten α (l.length / b) (l.take b) d i
    (by rw [htake, Nat.div_mul_cancel ⟨k, hk⟩]; exact hi)
  have hmod := Nat.mod_lt i hb
  have htaken : (l.take b).getD (i % b) d = l.getD (i % b) d := by
    rw [List.getD_eq_getElem _ _ (by omega), List.getD_eq_getElem _ _ (by omega),
      List.getElem_take]
  have hperiod : l.getD i d = l.getD (i % b) d := hrepeat i hi
  rw [htake, htaken, ← hperiod, List.getD_eq_getElem _ _ hi'] at hget
  exact ((List.getD_eq_getElem l d hi).symm.trans hget.symm)

theorem rises_take (hb : b ≤ l.length) :
    Rises (key ∘ fun i => l.getD i d) b ↔ (l.take b).Pairwise fun y z => key y < key z := by
  rw [List.pairwise_iff_getElem]
  constructor
  · intro hrises i j hi hj hij
    rw [List.length_take, Nat.min_eq_left hb] at hi hj
    have hlt := hrises.lt hij hj
    simp only [Function.comp_apply] at hlt
    rw [List.getD_eq_getElem _ _ (by omega), List.getD_eq_getElem _ _ (by omega)] at hlt
    rwa [List.getElem_take, List.getElem_take]
  · intro hpairs i hi hlt
    have hlength : (l.take b).length = b := by
      rw [List.length_take, Nat.min_eq_left hb]
    have hpair := hpairs (i - 1) i (by omega) (by omega) (by omega)
    rw [List.getElem_take, List.getElem_take] at hpair
    simp only [Function.comp_apply]
    rwa [List.getD_eq_getElem _ _ (by omega), List.getD_eq_getElem _ _ (by omega)]

end Lists

end Repeats
