import Mathlib.Data.BitVec
import Mathlib.Data.Finset.Card
import Mathlib.Data.Finset.Range

namespace Gathering

variable {w : Nat} {valid seen : BitVec w} {readings : Nat → BitVec w} {fuel n : Nat}

/-- A register is read until it shows no valid flag that has not been seen before. -/
def gather (valid : BitVec w) : Nat → (Nat → BitVec w) → BitVec w → Option (BitVec w)
  | 0, _, _ => none
  | fuel + 1, readings, seen =>
    if readings 0 &&& valid &&& ~~~seen = 0 then some seen
    else gather valid fuel (fun k => readings (k + 1)) (seen ||| readings 0 &&& valid &&& ~~~seen)

/-- The reading `n` is the first that shows no valid flag beyond those seen before. -/
structure FirstQuiet (valid seen : BitVec w) (readings : Nat → BitVec w) (n : Nat) : Prop where
  quiet : ∀ i, valid.getLsbD i = true → (readings n).getLsbD i = true →
    seen.getLsbD i = true ∨ ∃ k < n, (readings k).getLsbD i = true
  fresh : ∀ m < n, ∃ i, valid.getLsbD i = true ∧ (readings m).getLsbD i = true ∧
    seen.getLsbD i = false ∧ ∀ k < m, (readings k).getLsbD i = false

/-- The valid flags that have not been seen. -/
def unseen (valid seen : BitVec w) : Finset Nat :=
  (Finset.range w).filter fun i => valid.getLsbD i = true ∧ seen.getLsbD i = false

theorem unseen_card_le : (unseen valid seen).card ≤ w := by
  have h := Finset.card_filter_le (Finset.range w)
    fun i => valid.getLsbD i = true ∧ seen.getLsbD i = false
  rwa [Finset.card_range] at h

theorem new_flag {x : BitVec w} (h : x &&& valid &&& ~~~seen ≠ 0) :
    ∃ i < w, valid.getLsbD i = true ∧ x.getLsbD i = true ∧ seen.getLsbD i = false := by
  by_contra hnone
  push Not at hnone
  refine h (BitVec.eq_of_getLsbD_eq fun i hi => ?_)
  have := hnone i hi
  simp only [BitVec.getLsbD_and, BitVec.getLsbD_not, hi, decide_true, Bool.true_and]
  cases hv : valid.getLsbD i <;> cases hx : x.getLsbD i <;> cases hs : seen.getLsbD i <;> simp_all

theorem no_new_flag {x : BitVec w} (h : x &&& valid &&& ~~~seen = 0) {i : Nat}
    (hv : valid.getLsbD i = true) (hx : x.getLsbD i = true) : seen.getLsbD i = true := by
  have hi : i < w := BitVec.lt_of_getLsbD hv
  have hbit : (x &&& valid &&& ~~~seen).getLsbD i = false := by
    rw [h]
    exact BitVec.getLsbD_zero
  simpa [hv, hx, hi] using hbit

theorem seen_next {x : BitVec w} {i : Nat} :
    (seen ||| x &&& valid &&& ~~~seen).getLsbD i = true ↔
      seen.getLsbD i = true ∨ valid.getLsbD i = true ∧ x.getLsbD i = true := by
  by_cases hi : i < w
  · simp only [BitVec.getLsbD_or, BitVec.getLsbD_and, BitVec.getLsbD_not, hi, decide_true,
      Bool.true_and, Bool.or_eq_true, Bool.and_eq_true]
    cases seen.getLsbD i <;> simp [and_comm]
  · simp [BitVec.getLsbD_of_ge _ _ (Nat.le_of_not_lt hi)]

/-- Each reading that goes on leaves fewer flags to be seen. -/
theorem unseen_next {x : BitVec w} (h : x &&& valid &&& ~~~seen ≠ 0) :
    (unseen valid (seen ||| x &&& valid &&& ~~~seen)).card < (unseen valid seen).card := by
  obtain ⟨i, hi, hv, hx, hs⟩ := new_flag h
  refine Finset.card_lt_card (Finset.ssubset_iff_of_subset ?_ |>.mpr ⟨i, ?_, ?_⟩)
  · intro j hj
    obtain ⟨hjw, hjv, hjs⟩ := Finset.mem_filter.mp hj
    refine Finset.mem_filter.mpr ⟨hjw, hjv, ?_⟩
    by_contra hseen
    have hnext : (seen ||| x &&& valid &&& ~~~seen).getLsbD j = true :=
      seen_next.mpr (.inl (Bool.not_eq_false _ |>.mp hseen))
    rw [hnext] at hjs
    cases hjs
  · exact Finset.mem_filter.mpr ⟨Finset.mem_range.mpr hi, hv, hs⟩
  · intro hmem
    have hfalse := (Finset.mem_filter.mp hmem).2.2
    rw [seen_next.mpr (.inr ⟨hv, hx⟩)] at hfalse
    cases hfalse

theorem FirstQuiet.zero (h : readings 0 &&& valid &&& ~~~seen = 0) :
    FirstQuiet valid seen readings 0 where
  quiet _ hv hx := .inl (no_new_flag h hv hx)
  fresh m hm := absurd hm (Nat.not_lt_zero m)

theorem FirstQuiet.succ (hnew : readings 0 &&& valid &&& ~~~seen ≠ 0)
    (h : FirstQuiet valid (seen ||| readings 0 &&& valid &&& ~~~seen)
      (fun k => readings (k + 1)) n) : FirstQuiet valid seen readings (n + 1) where
  quiet i hv hx := by
    rcases h.quiet i hv hx with hseen | ⟨k, hk, hbit⟩
    · rcases seen_next.mp hseen with hs | ⟨-, hbit⟩
      · exact .inl hs
      · exact .inr ⟨0, Nat.succ_pos n, hbit⟩
    · exact .inr ⟨k + 1, Nat.succ_lt_succ hk, hbit⟩
  fresh m hm := by
    cases m with
    | zero =>
      obtain ⟨i, -, hv, hx, hs⟩ := new_flag hnew
      exact ⟨i, hv, hx, hs, fun k hk => absurd hk (Nat.not_lt_zero k)⟩
    | succ m =>
      obtain ⟨i, hv, hx, hs, hbefore⟩ := h.fresh m (Nat.lt_of_succ_lt_succ hm)
      have hnot : ¬ (seen.getLsbD i = true ∨
          valid.getLsbD i = true ∧ (readings 0).getLsbD i = true) := by
        rw [← seen_next, hs]
        nofun
      refine ⟨i, hv, hx, Bool.eq_false_iff.mpr fun h => hnot (.inl h), fun k hk => ?_⟩
      cases k with
      | zero => exact Bool.eq_false_iff.mpr fun h => hnot (.inr ⟨hv, h⟩)
      | succ k => exact hbefore k (Nat.lt_of_succ_lt_succ hk)

/-- With fuel for one reading more than there are flags to be seen the loop ends, and the result is
what the readings have shown. -/
theorem gather_spec (valid seen : BitVec w) (readings : Nat → BitVec w)
    (h : (unseen valid seen).card < fuel) :
    ∃ n seen', gather valid fuel readings seen = some seen' ∧ FirstQuiet valid seen readings n ∧
      ∀ i, seen'.getLsbD i = true ↔ seen.getLsbD i = true ∨
        valid.getLsbD i = true ∧ ∃ k < n, (readings k).getLsbD i = true := by
  induction fuel generalizing readings seen with
  | zero => exact absurd h (Nat.not_lt_zero _)
  | succ fuel ih =>
    by_cases hnew : readings 0 &&& valid &&& ~~~seen = 0
    · refine ⟨0, seen, ?_, FirstQuiet.zero hnew, fun i => ?_⟩
      · rw [gather, if_pos hnew]
      · simp
    · have hless := unseen_next hnew
      obtain ⟨n, seen', hrun, hquiet, hbits⟩ := ih
        (seen ||| readings 0 &&& valid &&& ~~~seen) (fun k => readings (k + 1)) (by omega)
      refine ⟨n + 1, seen', ?_, hquiet.succ hnew, fun i => ?_⟩
      · rw [gather, if_neg hnew]
        exact hrun
      · rw [hbits, seen_next, or_assoc, ← and_or_left]
        refine or_congr_right (and_congr_right fun _ => ?_)
        constructor
        · rintro (h0 | ⟨k, hk, hbit⟩)
          · exact ⟨0, Nat.succ_pos n, h0⟩
          · exact ⟨k + 1, Nat.succ_lt_succ hk, hbit⟩
        · rintro ⟨k, hk, hbit⟩
          cases k with
          | zero => exact .inl hbit
          | succ k => exact .inr ⟨k, Nat.lt_of_succ_lt_succ hk, hbit⟩

end Gathering
