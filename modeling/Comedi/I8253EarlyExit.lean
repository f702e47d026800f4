import Comedi.I8253Periods

namespace Comedi.I8253EarlyExit

open I8253 I8253Search I8253Periods

section Divisors

variable (base d1 d2 nanosec : U32)

/-- The period that the counters give is the one in `*nanosec`. -/
def PeriodExact : Prop :=
  (2 ≤ (divisor d1).toNat ∧ (divisor d1).toNat ≤ 65536) ∧
    (2 ≤ (divisor d2).toNat ∧ (divisor d2).toNat ≤ 65536) ∧
    (divisor d1).toNat * (divisor d2).toNat * base.toNat = nanosec.toNat

/-- The period is past the largest word, and `*nanosec` is what remains of it, which is still
larger than the product of the divisors and than the base. -/
structure Wraps : Prop where
  two_le1 : 2 ≤ (divisor d1).toNat
  two_le2 : 2 ≤ (divisor d2).toNat
  divider : (divisor d1).toNat * (divisor d2).toNat < 2 ^ 32
  period : 2 ^ 32 ≤ (divisor d1).toNat * (divisor d2).toNat * base.toNat
  rest : (divisor d1).toNat * (divisor d2).toNat * base.toNat % 2 ^ 32 = nanosec.toNat
  divider_lt : (divisor d1).toNat * (divisor d2).toNat < nanosec.toNat
  base_lt : base.toNat < nanosec.toNat

end Divisors

variable {base d1 d2 nanosec : U32}

theorem divisor_le {d : U32} (h : d.toNat ≤ 65535) : (divisor d).toNat ≤ 65536 := by
  unfold divisor
  split
  · omega
  · exact Nat.le_refl _

theorem period_toNat : (divisor d1 * divisor d2 * base).toNat =
    (divisor d1).toNat * (divisor d2).toNat * base.toNat % 2 ^ 32 := by
  rw [BitVec.toNat_mul, BitVec.toNat_mul, Nat.mod_mul_mod]

/-- The test does see an overflow of the two divisors. -/
theorem divider_lt_of_alreadyCorrect (h1 : (divisor d1).toNat ≤ 65536)
    (h2 : (divisor d2).toNat ≤ 65536) (h : alreadyCorrect base d1 d2 nanosec) :
    (divisor d1).toNat * (divisor d2).toNat < 2 ^ 32 := by
  obtain ⟨-, -, -, -, -, hlt, -⟩ := h
  have hle : (divisor d1).toNat * (divisor d2).toNat ≤ 65536 * 65536 := Nat.mul_le_mul h1 h2
  by_contra hge
  have heq : (divisor d1).toNat * (divisor d2).toNat = 2 ^ 32 := by omega
  rw [BitVec.lt_def, BitVec.toNat_mul, heq, Nat.mod_self] at hlt
  exact Nat.not_lt_zero _ hlt

/-- The test, in numbers. -/
theorem alreadyCorrect_iff (h1 : (divisor d1).toNat ≤ 65536) (h2 : (divisor d2).toNat ≤ 65536) :
    alreadyCorrect base d1 d2 nanosec ↔
      (divisor d1).toNat * (divisor d2).toNat * base.toNat % 2 ^ 32 = nanosec.toNat ∧
        2 ≤ (divisor d1).toNat ∧ 2 ≤ (divisor d2).toNat ∧
        (divisor d1).toNat * (divisor d2).toNat < 2 ^ 32 ∧
        (divisor d1).toNat * (divisor d2).toNat < nanosec.toNat ∧
        base.toNat < nanosec.toNat := by
  have hperiod : divisor d1 * divisor d2 * base = nanosec ↔
      (divisor d1).toNat * (divisor d2).toNat * base.toNat % 2 ^ 32 = nanosec.toNat := by
    rw [← period_toNat]
    exact BitVec.toNat_inj.symm
  constructor
  · intro h
    have hlt := divider_lt_of_alreadyCorrect h1 h2 h
    obtain ⟨heq, hone1, -, hone2, -, -, -, hdivider, hbase⟩ := h
    have hmul : (divisor d1 * divisor d2).toNat = (divisor d1).toNat * (divisor d2).toNat := by
      rw [BitVec.toNat_mul]
      exact Nat.mod_eq_of_lt hlt
    rw [heq, BitVec.lt_def, hmul] at hdivider
    rw [heq, BitVec.lt_def] at hbase
    exact ⟨hperiod.mp heq, hone1, hone2, hlt, hdivider, hbase⟩
  · rintro ⟨heq, htwo1, htwo2, hlt, hdivider, hbase⟩
    have hmul : (divisor d1 * divisor d2).toNat = (divisor d1).toNat * (divisor d2).toNat := by
      rw [BitVec.toNat_mul]
      exact Nat.mod_eq_of_lt hlt
    have hleft : (divisor d1).toNat * 2 ≤ (divisor d1).toNat * (divisor d2).toNat :=
      Nat.mul_le_mul_left _ htwo2
    have hright : 2 * (divisor d2).toNat ≤ (divisor d1).toNat * (divisor d2).toNat :=
      Nat.mul_le_mul_right _ htwo1
    have hns := hperiod.mpr heq
    unfold alreadyCorrect
    dsimp only
    rw [hns]
    refine ⟨rfl, htwo1, h1, htwo2, h2, ?_, ?_, ?_, hbase⟩
    · rw [BitVec.lt_def, hmul]
      omega
    · rw [BitVec.lt_def, hmul]
      omega
    · rw [BitVec.lt_def, hmul]
      exact hdivider

/-- Who leaves through the test has the exact period, unless the product of the three factors
overflows to a word that is larger than the factors. -/
theorem earlyExit_exact_iff (base d1 d2 nanosec roundMode : U32) (h1 : d1.toNat ≤ 65535)
    (h2 : d2.toNat ≤ 65535) :
    (alreadyCorrect base d1 d2 nanosec →
        cascadeNsToTimer2div base ⟨d1, d2, nanosec⟩ roundMode = ⟨d1, d2, nanosec⟩ ∧
          PeriodExact base d1 d2 nanosec) ↔
      ¬ Wraps base d1 d2 nanosec := by
  have h1' := divisor_le h1
  have h2' := divisor_le h2
  rw [alreadyCorrect_iff h1' h2']
  constructor
  · intro h hw
    obtain ⟨-, -, -, heq⟩ := h ⟨hw.rest, hw.two_le1, hw.two_le2, hw.divider, hw.divider_lt,
      hw.base_lt⟩
    have := hw.period
    have := nanosec.isLt
    omega
  · rintro hw ⟨heq, htwo1, htwo2, hlt, hdivider, hbase⟩
    have hexit : alreadyCorrect base d1 d2 nanosec :=
      (alreadyCorrect_iff h1' h2').mpr ⟨heq, htwo1, htwo2, hlt, hdivider, hbase⟩
    refine ⟨cascade_of_alreadyCorrect (t := ⟨d1, d2, nanosec⟩) hexit roundMode, ⟨htwo1, h1'⟩,
      ⟨htwo2, h2'⟩, ?_⟩
    rcases Nat.lt_or_ge ((divisor d1).toNat * (divisor d2).toNat * base.toNat) (2 ^ 32) with h | h
    · rw [← heq]
      exact (Nat.mod_eq_of_lt h).symm
    · exact absurd ⟨htwo1, htwo2, hlt, h, heq, hdivider, hbase⟩ hw

theorem earlyExit_exact_iff_small :
    cascadeNsToTimer2div 100 ⟨4, 5, 2000⟩ trigRoundUp = ⟨4, 5, 2000⟩ ∧
      PeriodExact 100 4 5 2000 := by
  have hexit : alreadyCorrect 100 4 5 2000 := by decide
  have h := earlyExit_exact_iff 100 4 5 2000 trigRoundUp (by decide) (by decide)
  exact h.mpr (fun hw => absurd hw.period (by decide)) hexit

/-- A period of 6.5 s is kept for one of 2.2 s. -/
theorem wrapped_kept : alreadyCorrect 100 0 1000 2258632704 ∧
    cascadeNsToTimer2div 100 ⟨0, 1000, 2258632704⟩ trigRoundUp = ⟨0, 1000, 2258632704⟩ ∧
    ¬ PeriodExact 100 0 1000 2258632704 := by
  have h : alreadyCorrect 100 0 1000 2258632704 := by decide
  refine ⟨h, cascade_of_alreadyCorrect (t := ⟨0, 1000, 2258632704⟩) h _, fun hexact => ?_⟩
  exact absurd hexact.2.2 (by decide)

end Comedi.I8253EarlyExit
