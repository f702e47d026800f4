import Mathlib.Data.BitVec

namespace BitFields

variable {w : Nat}

/-- The field of `n` bits from bit `lo` on. -/
def field (x : BitVec w) (lo n : Nat) : Nat := x.toNat / 2 ^ lo % 2 ^ n

theorem toNat_shift_and (x : BitVec w) (lo n : Nat) (hn : n ≤ w) :
    ((x >>> lo) &&& BitVec.ofNat w (2 ^ n - 1)).toNat = field x lo n := by
  have hlt : 2 ^ n - 1 < 2 ^ w :=
    lt_of_lt_of_le (Nat.sub_lt (Nat.two_pow_pos n) Nat.one_pos) (Nat.pow_le_pow_right (by decide) hn)
  rw [BitVec.toNat_and, BitVec.toNat_ushiftRight, BitVec.toNat_ofNat, Nat.mod_eq_of_lt hlt,
    Nat.and_two_pow_sub_one_eq_mod, Nat.shiftRight_eq_div_pow, field]

theorem field_or (x y : BitVec w) (lo n : Nat) :
    field (x ||| y) lo n = field x lo n ||| field y lo n := by
  unfold field
  rw [BitVec.toNat_or, ← Nat.shiftRight_eq_div_pow, ← Nat.shiftRight_eq_div_pow,
    ← Nat.shiftRight_eq_div_pow, Nat.shiftRight_or_distrib, Nat.or_mod_two_pow]

theorem field_shiftLeft (v k lo n : Nat) :
    field (BitVec.ofNat w v <<< k) lo n = v * 2 ^ k % 2 ^ w / 2 ^ lo % 2 ^ n := by
  unfold field
  rw [BitVec.toNat_shiftLeft, BitVec.toNat_ofNat, Nat.shiftLeft_eq, Nat.mod_mul_mod]

theorem field_ofNat {v : Nat} (hv : v < 2 ^ w) (lo n : Nat) :
    field (BitVec.ofNat w v) lo n = v / 2 ^ lo % 2 ^ n := by
  rw [field, BitVec.toNat_ofNat, Nat.mod_eq_of_lt hv]

/-- A field below the bits that were shifted in. -/
theorem field_shiftLeft_below (x : BitVec w) {k lo n : Nat} (h : lo + n ≤ k) (hk : k ≤ w) :
    field (x <<< k) lo n = 0 := by
  obtain ⟨m, rfl⟩ := Nat.exists_eq_add_of_le h
  obtain ⟨j, rfl⟩ := Nat.exists_eq_add_of_le hk
  have hdvd : 2 ^ (lo + n) ∣ x.toNat * 2 ^ (lo + n + m) % 2 ^ (lo + n + m + j) := by
    rw [Nat.pow_add 2 (lo + n + m) j, Nat.mul_comm x.toNat, Nat.mul_mod_mul_left]
    exact Nat.dvd_mul_right_of_dvd (Nat.pow_dvd_pow 2 (Nat.le_add_right _ _)) _
  rw [field, BitVec.toNat_shiftLeft, Nat.shiftLeft_eq]
  obtain ⟨q, hq⟩ := hdvd
  rw [hq, Nat.pow_add, Nat.mul_assoc, Nat.mul_div_cancel_left _ (Nat.two_pow_pos lo),
    Nat.mul_mod_right]

/-- What a longer shift drops and the bits it drops, put together again. -/
theorem shiftRight_join (x : BitVec w) (lo n : Nat) (hn : n ≤ w) :
    ((x >>> (lo + n)) <<< n) ||| ((x >>> lo) &&& BitVec.ofNat w (2 ^ n - 1)) = x >>> lo := by
  apply BitVec.eq_of_toNat_eq
  have hshift : (x >>> (lo + n)).toNat = x.toNat / 2 ^ lo / 2 ^ n := by
    rw [BitVec.toNat_ushiftRight, Nat.shiftRight_eq_div_pow, Nat.pow_add, Nat.div_div_eq_div_mul]
  have hlt : x.toNat / 2 ^ lo / 2 ^ n * 2 ^ n < 2 ^ w :=
    lt_of_le_of_lt (Nat.div_mul_le_self _ _) (lt_of_le_of_lt (Nat.div_le_self _ _) x.isLt)
  rw [BitVec.toNat_or, toNat_shift_and x lo n hn, field, BitVec.toNat_shiftLeft, hshift,
    Nat.shiftLeft_eq, Nat.mod_eq_of_lt hlt, ← Nat.shiftLeft_eq,
    ← Nat.shiftLeft_add_eq_or_of_lt (Nat.mod_lt _ (Nat.two_pow_pos n)), Nat.shiftLeft_eq,
    Nat.div_add_mod', BitVec.toNat_ushiftRight, Nat.shiftRight_eq_div_pow]

end BitFields
