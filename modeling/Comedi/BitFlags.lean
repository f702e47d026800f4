import Mathlib.Data.BitVec

namespace BitFlags

variable {w : Nat} {x y z m b : BitVec w}

theorem clear_clear_of_clear (h : x &&& ~~~y &&& z = 0) : x &&& ~~~y = x &&& ~~~(y ||| z) := by
  apply BitVec.eq_of_getLsbD_eq
  intro i hi
  have hb : (x &&& ~~~y &&& z).getLsbD i = false := by simp [h]
  simp only [BitVec.getLsbD_and, BitVec.getLsbD_not, BitVec.getLsbD_or] at hb ⊢
  cases hx : x.getLsbD i <;> cases hy : y.getLsbD i <;> cases hz : z.getLsbD i <;> simp_all

theorem and_or_of_disjoint (h : y &&& z = 0) : (x ||| y) &&& z = x &&& z := by
  rw [BitVec.and_comm, BitVec.and_or_distrib_left, BitVec.and_comm z y, h, BitVec.and_comm]
  exact BitVec.or_zero

theorem or_self_and : (x ||| m) &&& m = m := by
  ext i hi
  simpa using Or.inr

/-- A single flag is clear or set. -/
theorem and_twoPow_cases (x : BitVec w) (i : Nat) :
    x &&& .twoPow w i = 0 ∨ x &&& .twoPow w i = .twoPow w i := by
  rw [BitVec.and_twoPow]
  split
  · exact .inr rfl
  · exact .inl rfl

/-- Clearing some flags clears those among them that one looks at. -/
theorem cleared (h : z &&& ~~~m = 0) : x &&& ~~~m &&& z = 0 := by
  rw [BitVec.and_assoc, BitVec.and_comm (~~~m), h]
  exact BitVec.and_zero

theorem split (z m : BitVec w) : z = z &&& m ||| z &&& ~~~m := by
  rw [← BitVec.and_or_distrib_left, BitVec.or_not_self, BitVec.and_allOnes]

/-- Flags that are not set need no clearing. -/
theorem clear_absent (h : z &&& m = 0) : z &&& ~~~m = z := by
  have hsplit := split z m
  rw [h] at hsplit
  exact (hsplit.trans BitVec.zero_or).symm

/-- Clearing some flags leaves the others. -/
theorem clear_keeps (h : z &&& m = 0) : x &&& ~~~m &&& z = x &&& z := by
  rw [BitVec.and_assoc, BitVec.and_comm (~~~m), clear_absent h]

/-- Setting the flags of `m` to those of `b` leaves the other flags. -/
theorem set_keeps (h : z &&& m = 0) : (x &&& ~~~m ||| b &&& m) &&& z = x &&& z := by
  have hb : b &&& m &&& z = 0 := by
    rw [BitVec.and_assoc, BitVec.and_comm m, h]
    exact BitVec.and_zero
  rw [and_or_of_disjoint hb, clear_keeps h]

/-- Flags among those of `m` are those of `b` afterwards. -/
theorem set_reads (h : z &&& ~~~m = 0) : (x &&& ~~~m ||| b &&& m) &&& z = b &&& z := by
  have hx : x &&& ~~~m &&& z = 0 := cleared h
  have hz : m &&& z = z := by
    have hsplit := split z m
    rw [h] at hsplit
    rw [BitVec.and_comm]
    exact (hsplit.trans BitVec.or_zero).symm
  rw [BitVec.and_comm, BitVec.and_or_distrib_left, BitVec.and_comm z, hx, BitVec.and_comm z,
    BitVec.and_assoc, hz]
  exact BitVec.zero_or

theorem ne_zero_iff_bit : x ≠ 0 ↔ ∃ i, x.getLsbD i = true := by
  constructor
  · intro h
    by_contra hnone
    push Not at hnone
    refine h (BitVec.eq_of_getLsbD_eq fun i _ => ?_)
    rw [Bool.not_eq_true _ |>.mp (hnone i)]
    exact BitVec.getLsbD_zero.symm
  · rintro ⟨i, hi⟩ rfl
    exact Bool.false_ne_true (BitVec.getLsbD_zero.symm.trans hi)

theorem one_shiftLeft_bit {c i : Nat} (hi : i < w) :
    ((1#w) <<< c).getLsbD i = decide (i = c) := by
  rw [BitVec.getLsbD_shiftLeft, BitVec.getLsbD_one]
  by_cases h : i < c
  · simp [h, Nat.ne_of_lt h]
  · simp [hi, h, show 0 < w by omega, show i - c = 0 ↔ i = c by omega]

theorem and_one_shiftLeft_ne {c : Nat} (hc : c < w) :
    x &&& (1#w) <<< c ≠ 0 ↔ x.getLsbD c = true := by
  constructor
  · intro h
    by_contra hbit
    refine h (BitVec.eq_of_getLsbD_eq fun i hi => ?_)
    rw [BitVec.getLsbD_and, one_shiftLeft_bit hi]
    by_cases heq : i = c
    · simpa [heq] using hbit
    · simp [heq]
  · intro h heq
    have hbit : (x &&& (1#w) <<< c).getLsbD c = true := by
      rw [BitVec.getLsbD_and, one_shiftLeft_bit hc, h]
      simp
    rw [heq] at hbit
    simp at hbit

/-- The flags that a loop sets one after the other. -/
theorem foldl_range_bit {set : BitVec w → Nat → BitVec w} {p : Nat → Prop} {i : Nat}
    (hset : ∀ v n, (set v n).getLsbD i = true ↔ v.getLsbD i = true ∨ p n) (m : Nat)
    (v : BitVec w) :
    ((List.range m).foldl set v).getLsbD i = true ↔ v.getLsbD i = true ∨ ∃ n < m, p n := by
  induction m with
  | zero => simp
  | succ m ih =>
    rw [List.range_succ, List.foldl_append, List.foldl_cons, List.foldl_nil, hset, ih, or_assoc]
    refine or_congr_right ?_
    constructor
    · rintro (⟨n, hn, hp⟩ | hp)
      · exact ⟨n, Nat.lt_succ_of_lt hn, hp⟩
      · exact ⟨m, Nat.lt_succ_self m, hp⟩
    · rintro ⟨n, hn, hp⟩
      rcases Nat.lt_succ_iff_lt_or_eq.mp hn with hlt | rfl
      · exact .inl ⟨n, hlt, hp⟩
      · exact .inr hp

end BitFlags
