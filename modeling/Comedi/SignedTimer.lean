import Comedi.NiTimer

namespace Comedi.SignedTimer

open ConfigRetry (trigRoundDown trigRoundUp)
open NiTimer (slack rounded)

section Timer

variable (base : U32)

/-- The divider for a period that is rounded as an `int`. -/
def divider (nanosec roundMode : U32) : U32 :=
  if roundMode = trigRoundDown then nanosec.sdiv base
  else if roundMode = trigRoundUp then (nanosec + base - 1).sdiv base
  else (nanosec + base / 2).sdiv base

/-- The period that the counter can have instead of `nanosec`. -/
def roundNs (nanosec roundMode : U32) : U32 := base * divider base nanosec roundMode

end Timer

variable {base x ns roundMode : U32}

theorem divider_eq (hbase : 0 < base.toNat) :
    divider base ns roundMode = (ns + BitVec.ofNat 32 (slack base roundMode)).sdiv base := by
  have hone : (1 : U32).toNat = 1 := rfl
  unfold divider slack
  split
  · exact congrArg (BitVec.sdiv · base) (BitVec.add_zero ns).symm
  split
  · congr 1
    apply BitVec.eq_of_toNat_eq
    rw [BitVec.toNat_sub, BitVec.toNat_add, BitVec.toNat_add, BitVec.toNat_ofNat, hone]
    omega
  · congr 2
    apply BitVec.eq_of_toNat_eq
    have htwo : (2 : U32).toNat = 2 := rfl
    rw [BitVec.toNat_udiv, BitVec.toNat_ofNat, htwo]
    omega

section Base

variable (hbase : 0 < base.toNat) (hhalf : base.toNat < 2 ^ 31)

theorem msb_small (h : x.toNat < 2 ^ 31) : x.msb = false := by
  rw [BitVec.msb_eq_false_iff_two_mul_lt]
  omega

theorem msb_large (h : 2 ^ 31 ≤ x.toNat) : x.msb = true := by
  rw [BitVec.msb_eq_true_iff_two_mul_ge]
  omega

include hhalf

theorem sdiv_small (h : x.toNat < 2 ^ 31) : (x.sdiv base).toNat = x.toNat / base.toNat := by
  rw [BitVec.sdiv_eq, msb_small h, msb_small hhalf]
  exact BitVec.toNat_udiv

theorem sdiv_large (h : 2 ^ 31 ≤ x.toNat) : x.sdiv base = -((-x) / base) := by
  rw [BitVec.sdiv_eq, msb_large h, msb_small hhalf]
  rfl

include hbase

theorem slack_toNat : (BitVec.ofNat 32 (slack base roundMode)).toNat = slack base roundMode := by
  have hslack := NiTimer.slack_lt hbase roundMode
  rw [BitVec.toNat_ofNat]
  exact Nat.mod_eq_of_lt (by omega)

/-- A period that stays an `int` when it is rounded. -/
theorem divider_toNat (h : ns.toNat + slack base roundMode < 2 ^ 31) :
    (divider base ns roundMode).toNat = (ns.toNat + slack base roundMode) / base.toNat := by
  have hsum : (ns + BitVec.ofNat 32 (slack base roundMode)).toNat =
      ns.toNat + slack base roundMode := by
    rw [BitVec.toNat_add, slack_toNat hbase hhalf]
    exact Nat.mod_eq_of_lt (by omega)
  rw [divider_eq hbase, sdiv_small hhalf (hsum.symm ▸ h), hsum]

theorem roundNs_toNat (h : ns.toNat + slack base roundMode < 2 ^ 31) :
    (roundNs base ns roundMode).toNat = rounded base roundMode ns.toNat := by
  have hle := @NiTimer.rounded_le base roundMode ns.toNat
  unfold roundNs
  rw [BitVec.toNat_mul, divider_toNat hbase hhalf h, Nat.mul_comm]
  exact Nat.mod_eq_of_lt (hle.trans_lt (h.trans (by decide)))

/-- A negative `int`, or one that becomes negative, is rounded towards zero. -/
theorem roundNs_negative (h : 2 ^ 31 ≤ ns.toNat + slack base roundMode) :
    (roundNs base ns roundMode).toNat =
      (2 ^ 32 - (2 ^ 32 - (ns.toNat + slack base roundMode)) / base.toNat * base.toNat) %
        2 ^ 32 := by
  have hslack := NiTimer.slack_lt hbase roundMode
  have hns := ns.isLt
  have hsum : (ns + BitVec.ofNat 32 (slack base roundMode)).toNat =
      (ns.toNat + slack base roundMode) % 2 ^ 32 := by
    rw [BitVec.toNat_add, slack_toNat hbase hhalf]
  unfold roundNs
  rw [BitVec.toNat_mul, divider_eq hbase]
  by_cases hover : 2 ^ 32 ≤ ns.toNat + slack base roundMode
  · have hsmall : (ns + BitVec.ofNat 32 (slack base roundMode)).toNat < base.toNat := by
      rw [hsum]
      omega
    rw [sdiv_small hhalf (hsmall.trans hhalf), Nat.div_eq_of_lt hsmall, Nat.sub_eq_zero_of_le hover,
      Nat.zero_div, Nat.zero_mul, Nat.mul_zero]
    rfl
  · rw [Nat.mod_eq_of_lt (Nat.not_le.mp hover)] at hsum
    have hneg : (-(ns + BitVec.ofNat 32 (slack base roundMode))).toNat =
        2 ^ 32 - (ns.toNat + slack base roundMode) := by
      rw [BitVec.toNat_neg, hsum]
      omega
    have hle := Nat.div_mul_le_self (2 ^ 32 - (ns.toNat + slack base roundMode)) base.toNat
    rw [sdiv_large hhalf (hsum.symm ▸ h), ← BitVec.toNat_mul, BitVec.mul_neg, BitVec.toNat_neg,
      BitVec.toNat_mul, BitVec.toNat_udiv, hneg, Nat.mul_comm base.toNat,
      Nat.mod_eq_of_lt (hle.trans_lt (by omega))]

/-- A period that is a number of ticks gives this number. -/
theorem divider_of_ticks {ticks : Nat} (hticks : ns.toNat = base.toNat * ticks)
    (h : ns.toNat + slack base roundMode < 2 ^ 31) :
    (divider base ns roundMode).toNat = ticks := by
  rw [divider_toNat hbase hhalf h, hticks, Nat.mul_add_div hbase,
    Nat.div_eq_of_lt (NiTimer.slack_lt hbase roundMode), Nat.add_zero]

end Base

end Comedi.SignedTimer
