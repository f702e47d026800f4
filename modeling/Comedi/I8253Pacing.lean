import Comedi.I8253Rounding

namespace Comedi.I8253Pacing

open I8253 I8253Search I8253Periods I8253Rounding

variable {base d1 d2 ns mode : U32} {f : Found}

/-- A period that the search leaves as it is, whatever the divisors were. -/
def Steady (base ns : U32) : Prop :=
  ∀ d1 d2 mode, (cascadeNsToTimer2div base ⟨d1, d2, ns⟩ mode).nanosec = ns

/-- The period that the search finds. -/
def pacedNs (base ns mode : U32) : U32 := (cascadeNsToTimer2div base ⟨0, 0, ns⟩ mode).nanosec

/-- The divisors that are left after searches, the first one without any. -/
inductive Left (base : U32) : U32 → U32 → Prop
  | start : Left base 0 0
  | search {t : Timer} (mode : U32) : Left base t.d1 t.d2 →
    Left base (cascadeNsToTimer2div base t mode).d1 (cascadeNsToTimer2div base t mode).d2

/-- What the search asks of the base. -/
structure EvenBase (base : U32) : Prop where
  two_le : 2 ≤ base.toNat
  le : base.toNat ≤ 65534
  even : 2 ∣ base.toNat

theorem timerOf_empty (base ns : U32) : (timerOf base ⟨ns, 0, 0⟩).nanosec = 0 := by
  change 0#32 * 0#32 * base = 0#32
  rw [BitVec.mul_zero, BitVec.zero_mul]

theorem chosen_cases (base ns mode : U32) (b : Bounds) :
    chosen base ns mode b = b.glb ∨ chosen base ns mode b = b.lub := by
  unfold chosen
  dsimp only
  split
  · exact .inr rfl
  split
  · exact .inl rfl
  split
  · exact .inr rfl
  · exact .inl rfl

theorem cascade_eq (h : ¬ alreadyCorrect base d1 d2 ns) (mode : U32) :
    cascadeNsToTimer2div base ⟨d1, d2, ns⟩ mode =
      timerOf base (chosen base ns mode (search base ns)) := by
  unfold cascadeNsToTimer2div
  rw [if_neg h, roundTo_chosen]
  rfl

theorem not_exact_zero : ¬ Exact base 0 f := by
  intro h
  have hroot := h.root
  have htwo := h.two_le
  have hzero : (0 : U32).toNat / base.toNat / f.div1.toNat = 0 := by
    change 0 / base.toNat / f.div1.toNat = 0
    rw [Nat.zero_div, Nat.zero_div]
  omega

section Even

variable (hbase : EvenBase base)
include hbase

theorem EvenBase.pos : 0 < base.toNat := Nat.lt_of_lt_of_le (by decide) hbase.two_le

theorem quot_lt (ns : U32) : ns.toNat / base.toNat < 2 ^ 32 - 65536 := by
  have hlt := ns.isLt
  have hhalf : ns.toNat / base.toNat ≤ ns.toNat / 2 :=
    Nat.div_le_div_left hbase.two_le (by decide)
  omega

theorem ne_max_of_product {k : Nat} (h : base.toNat * k = ns.toNat) : ns ≠ 0xffffffff := by
  rintro rfl
  have hmax : (0xffffffff : U32).toNat = 4294967295 := rfl
  have heven : 2 ∣ base.toNat * k := hbase.even.mul_right k
  rw [h, hmax] at heven
  omega

theorem steady_of_exact (h : Exact base ns f) : Steady base f.ns := by
  intro d1 d2 mode
  have hroot := h.root
  have hfirst := h.first
  have heq : base.toNat * (f.div1.toNat * f.div2.toNat) = f.ns.toNat := by
    rw [← Nat.mul_assoc]
    exact h.product
  exact cascade_of_product (n := f.div1.toNat) (m := f.div2.toNat) hbase.pos (quot_lt hbase f.ns)
    h.two_le h.div1_le h.div2_le (by omega) heq (ne_max_of_product hbase heq) mode

theorem steady_of_isProduct (h : IsProduct base ns.toNat) : Steady base ns := by
  intro d1 d2 mode
  obtain ⟨a, b, ha, hab, hb, heq, -⟩ := h.ordered
  exact cascade_of_product (n := a) (m := b) hbase.pos (quot_lt hbase ns) ha (by omega) hb
    (by omega) heq (ne_max_of_product hbase heq) mode

theorem exact_or_empty (ns : U32) : ExactBounds base ns (search base ns) :=
  search_exact (.inr hbase.le) (quot_lt hbase ns)

/-- The search gives a bound of its own or, without one, no divisors. -/
theorem timerOf_chosen (ns mode : U32) :
    (chosen base ns mode (search base ns)).div1 = 0 ∧
        (chosen base ns mode (search base ns)).div2 = 0 ∨
      Exact base ns (chosen base ns mode (search base ns)) := by
  rcases chosen_cases base ns mode (search base ns) with h | h <;> rw [h]
  · rcases (exact_or_empty hbase ns).glb with hexact | hempty
    · exact .inr hexact
    · rw [hempty]
      exact .inl ⟨rfl, rfl⟩
  · rcases (exact_or_empty hbase ns).lub with ⟨hexact, -⟩ | hempty
    · exact .inr hexact
    · rw [hempty]
      exact .inl ⟨rfl, rfl⟩

theorem nanosec_chosen (ns mode : U32) :
    (timerOf base (chosen base ns mode (search base ns))).nanosec = 0 ∨
      ∃ f, Exact base ns f ∧
        (timerOf base (chosen base ns mode (search base ns))).nanosec = f.ns := by
  rcases timerOf_chosen hbase ns mode with ⟨h1, h2⟩ | hexact
  · left
    change (chosen base ns mode (search base ns)).div1 * _ * base = 0
    rw [h1, h2]
    exact timerOf_empty base ns
  · exact .inr ⟨_, hexact, product_ns _ hexact.product⟩

theorem steady_zero : Steady base 0 := by
  intro d1 d2 mode
  by_cases h : alreadyCorrect base d1 d2 0
  · rw [cascade_of_alreadyCorrect (t := ⟨d1, d2, 0⟩) h]
  · rw [cascade_eq h]
    rcases nanosec_chosen hbase 0 mode with hzero | ⟨f, hexact, -⟩
    · exact hzero
    · exact absurd hexact not_exact_zero

/-- The search gives back the period, or one that it will leave as it is. -/
theorem cascade_outcome (t : Timer) (mode : U32) :
    (cascadeNsToTimer2div base t mode).nanosec = t.nanosec ∨
      Steady base (cascadeNsToTimer2div base t mode).nanosec := by
  by_cases h : alreadyCorrect base t.d1 t.d2 t.nanosec
  · rw [cascade_of_alreadyCorrect h]
    exact .inl rfl
  · rw [cascade_eq h]
    right
    rcases nanosec_chosen hbase t.nanosec mode with hzero | ⟨f, hexact, heq⟩
    · rw [hzero]
      exact steady_zero hbase
    · rw [heq]
      exact steady_of_exact hbase hexact

theorem steady_pacedNs (ns mode : U32) : Steady base (pacedNs base ns mode) := by
  unfold pacedNs
  rw [cascade_zero]
  rcases nanosec_chosen hbase ns mode with hzero | ⟨f, hexact, heq⟩
  · rw [hzero]
    exact steady_zero hbase
  · rw [heq]
    exact steady_of_exact hbase hexact

theorem dvd_pacedNs (ns mode : U32) : base.toNat ∣ (pacedNs base ns mode).toNat := by
  unfold pacedNs
  rw [cascade_zero]
  rcases nanosec_chosen hbase ns mode with hzero | ⟨f, hexact, heq⟩
  · rw [hzero]
    exact Nat.dvd_zero _
  · rw [heq, ← hexact.product, Nat.mul_assoc]
    exact Nat.dvd_mul_right _ _

end Even

/-- Divisors whose period does not overflow, or none. -/
def Sane (base d1 d2 : U32) : Prop :=
  d1 = 0 ∧ d2 = 0 ∨ (divisor d1).toNat ≤ 65536 ∧ (divisor d2).toNat ≤ 65536 ∧
    base.toNat * (divisor d1).toNat * (divisor d2).toNat < 2 ^ 32

theorem sane_of_exact (h : Exact base ns f) :
    Sane base (f.div1 &&& 0xffff) (f.div2 &&& 0xffff) := by
  have hroot := h.root
  have hfirst := h.first
  have htwo := h.two_le
  right
  rw [divisor_mask (by omega) h.div1_le, divisor_mask (by omega) h.div2_le, h.product]
  exact ⟨h.div1_le, h.div2_le, f.ns.isLt⟩

theorem Left.sane (hbase : EvenBase base) (h : Left base d1 d2) : Sane base d1 d2 := by
  induction h with
  | start => exact .inl ⟨rfl, rfl⟩
  | @search t mode h ih =>
    by_cases hc : alreadyCorrect base t.d1 t.d2 t.nanosec
    · rw [cascade_of_alreadyCorrect hc]
      exact ih
    · rw [cascade_eq hc]
      rcases timerOf_chosen hbase t.nanosec mode with ⟨h1, h2⟩ | hexact
      · left
        unfold timerOf
        rw [h1, h2]
        exact ⟨rfl, rfl⟩
      · exact sane_of_exact hexact

theorem Sane.isProduct (h : Sane base d1 d2) (hc : alreadyCorrect base d1 d2 ns) :
    IsProduct base ns.toNat := by
  rcases h with ⟨rfl, rfl⟩ | ⟨hle1, hle2, hlt⟩
  · exact absurd hc (not_alreadyCorrect_zero base ns)
  · have hns : (divisor d1 * divisor d2 * base).toNat =
        base.toNat * (divisor d1).toNat * (divisor d2).toNat := by
      rw [BitVec.mul_comm, ← BitVec.mul_assoc, ns_toNat]
      exact Nat.mod_eq_of_lt hlt
    exact ⟨_, _, hc.2.1, hle1, hc.2.2.2.1, hle2, hns.symm.trans (congrArg BitVec.toNat hc.1),
      ns.isLt⟩

/-- The divisors that are left do not make a difference. -/
theorem Left.cascade (hbase : EvenBase base) (h : Left base d1 d2) (ns mode : U32) :
    (cascadeNsToTimer2div base ⟨d1, d2, ns⟩ mode).nanosec = pacedNs base ns mode := by
  by_cases hc : alreadyCorrect base d1 d2 ns
  · have hsteady := steady_of_isProduct hbase ((h.sane hbase).isProduct hc)
    exact (hsteady d1 d2 mode).trans (hsteady 0 0 mode).symm
  · rw [cascade_eq hc]
    unfold pacedNs
    rw [cascade_zero]

/-- Divisors that, as the counters read them, give the period. -/
structure Loaded (base d1 d2 ns : U32) : Prop where
  div1 : 1 ≤ (divisor d1).toNat ∧ (divisor d1).toNat ≤ 65536
  div2 : 1 ≤ (divisor d2).toNat ∧ (divisor d2).toNat ≤ 65536
  product : base.toNat * (divisor d1).toNat * (divisor d2).toNat = ns.toNat

/-- Divisors that the search takes for those of the period, because their product overflows. -/
def Wraps (base d1 d2 ns : U32) : Prop :=
  alreadyCorrect base d1 d2 ns ∧ 2 ^ 32 ≤ base.toNat * (divisor d1).toNat * (divisor d2).toNat

theorem Sane.not_wraps (h : Sane base d1 d2) (ns : U32) : ¬ Wraps base d1 d2 ns := by
  rintro ⟨hc, hwrap⟩
  rcases h with ⟨rfl, rfl⟩ | ⟨-, -, hlt⟩
  · exact not_alreadyCorrect_zero base ns hc
  · exact absurd hlt (Nat.not_lt.mpr hwrap)

theorem not_loaded_of_wraps (h : Wraps base d1 d2 ns) : ¬ Loaded base d1 d2 ns := by
  intro hloaded
  have hlt := ns.isLt
  rw [← hloaded.product] at hlt
  exact absurd hlt (Nat.not_lt.mpr h.2)

theorem loaded_of_exact (h : Exact base ns f) : Loaded base (timerOf base f).d1 (timerOf base f).d2
    (timerOf base f).nanosec := by
  have hroot := h.root
  have hfirst := h.first
  have htwo := h.two_le
  have h1 : divisor (timerOf base f).d1 = f.div1 := divisor_mask (by omega) h.div1_le
  have h2 : divisor (timerOf base f).d2 = f.div2 := divisor_mask (by omega) h.div2_le
  have hns : (timerOf base f).nanosec = f.ns := product_ns f h.product
  refine ⟨?_, ?_, ?_⟩
  · rw [h1]
    exact ⟨by omega, h.div1_le⟩
  · rw [h2]
    exact ⟨by omega, h.div2_le⟩
  · rw [h1, h2, hns, h.product]

/-- The divisors for a period that the search leaves as it is. -/
theorem cascade_loaded_iff (hbase : EvenBase base) {mode : U32} (h : pacedNs base ns mode = ns)
    (hns : ns ≠ 0) : Loaded base (cascadeNsToTimer2div base ⟨d1, d2, ns⟩ mode).d1
      (cascadeNsToTimer2div base ⟨d1, d2, ns⟩ mode).d2 ns ↔ ¬ Wraps base d1 d2 ns := by
  by_cases hc : alreadyCorrect base d1 d2 ns
  · rw [@cascade_of_alreadyCorrect base ⟨d1, d2, ns⟩ hc]
    refine ⟨fun hloaded hwraps => not_loaded_of_wraps hwraps hloaded, fun hwraps => ?_⟩
    have hlt : base.toNat * (divisor d1).toNat * (divisor d2).toNat < 2 ^ 32 :=
      Nat.not_le.mp fun hwrap => hwraps ⟨hc, hwrap⟩
    refine ⟨⟨Nat.le_of_lt hc.2.1, hc.2.2.1⟩, ⟨Nat.le_of_lt hc.2.2.2.1, hc.2.2.2.2.1⟩, ?_⟩
    rw [← congrArg BitVec.toNat hc.1, BitVec.mul_comm, ← BitVec.mul_assoc, ns_toNat,
      Nat.mod_eq_of_lt hlt]
  · refine iff_of_true ?_ fun hwraps => hc hwraps.1
    have hpaced : (timerOf base (chosen base ns mode (search base ns))).nanosec = ns := by
      rw [← cascade_zero]
      exact h
    rw [cascade_eq hc]
    rcases timerOf_chosen hbase ns mode with ⟨h1, h2⟩ | hexact
    · refine absurd ?_ hns
      rw [← hpaced]
      change (chosen base ns mode (search base ns)).div1 * _ * base = 0
      rw [h1, h2]
      exact timerOf_empty base ns
    · have hloaded := loaded_of_exact hexact
      rwa [hpaced] at hloaded

/-- The divisors fit into the counters. -/
def Masked (d1 d2 : U32) : Prop := d1.toNat ≤ 65535 ∧ d2.toNat ≤ 65535

theorem masked_and (d1 d2 : U32) : Masked (d1 &&& 0xffff) (d2 &&& 0xffff) := by
  constructor
  · rw [BitVec.toNat_and]
    exact Nat.and_le_right
  · rw [BitVec.toNat_and]
    exact Nat.and_le_right

theorem Masked.cascade (h : Masked d1 d2) (base ns mode : U32) :
    Masked (cascadeNsToTimer2div base ⟨d1, d2, ns⟩ mode).d1
      (cascadeNsToTimer2div base ⟨d1, d2, ns⟩ mode).d2 := by
  by_cases hc : alreadyCorrect base d1 d2 ns
  · rw [@cascade_of_alreadyCorrect base ⟨d1, d2, ns⟩ hc]
    exact h
  · rw [cascade_eq hc]
    exact masked_and _ _

theorem Left.masked (h : Left base d1 d2) : Masked d1 d2 := by
  induction h with
  | start => exact ⟨by decide, by decide⟩
  | search mode h ih => exact ih.cascade base _ mode

end Comedi.I8253Pacing
