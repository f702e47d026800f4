import Comedi.I8253Search

namespace Comedi.I8253Periods

open I8253 I8253Search

/-- A period that the two counters can give. -/
def IsProduct (base : U32) (p : Nat) : Prop :=
  ∃ a b, 2 ≤ a ∧ a ≤ 65536 ∧ 2 ≤ b ∧ b ≤ 65536 ∧ base.toNat * a * b = p ∧ p < 2 ^ 32

def isUp (roundMode : U32) : Prop := roundMode &&& trigRoundMask = trigRoundUp

def isDown (roundMode : U32) : Prop := roundMode &&& trigRoundMask = trigRoundDown

instance (roundMode : U32) : Decidable (isUp roundMode) := inferInstanceAs (Decidable (_ = _))

instance (roundMode : U32) : Decidable (isDown roundMode) := inferInstanceAs (Decidable (_ = _))

def distance (p q : Nat) : Nat := (p - q) + (q - p)

/-- The result is a period of the counters without an overflow, it is the best for the rounding
mode, and it is left as it is if it is given again. -/
structure Optimal (base nanosec roundMode : U32) (r : Timer) : Prop where
  divisor1 : 2 ≤ (divisor r.d1).toNat ∧ (divisor r.d1).toNat ≤ 65536
  divisor2 : 2 ≤ (divisor r.d2).toNat ∧ (divisor r.d2).toNat ≤ 65536
  product : base.toNat * (divisor r.d1).toNat * (divisor r.d2).toNat = r.nanosec.toNat
  down : isDown roundMode → r.nanosec.toNat ≤ nanosec.toNat ∧
    ∀ p, IsProduct base p → p ≤ nanosec.toNat → p ≤ r.nanosec.toNat
  up : isUp roundMode →
    (∃ p, IsProduct base p ∧ nanosec.toNat ≤ p) → nanosec.toNat ≤ r.nanosec.toNat ∧
      ∀ p, IsProduct base p → nanosec.toNat ≤ p → r.nanosec.toNat ≤ p
  upMost : isUp roundMode → (¬ ∃ p, IsProduct base p ∧ nanosec.toNat ≤ p) →
    ∀ p, IsProduct base p → p ≤ r.nanosec.toNat
  nearest : ¬ isUp roundMode → ¬ isDown roundMode → ∀ p, IsProduct base p →
    distance r.nanosec.toNat nanosec.toNat ≤ distance p nanosec.toNat
  again : ∀ mode, (cascadeNsToTimer2div base r mode).nanosec = r.nanosec ∧
    (base ≠ 1 → cascadeNsToTimer2div base r mode = r)

/-- With a base of 1, from this request on the optimum is the largest period of all or one cannot
search for it, because the end of the band overflows. -/
def topLimit (roundMode : U32) : Nat :=
  if isUp roundMode then 65535 * 65535 + 1
  else if isDown roundMode then 65535 * 65536
  else 4294868993

/-- A period from the request on that is less than the largest word. -/
def HasUpper (base nanosec : U32) : Prop :=
  ∃ q, IsProduct base q ∧ nanosec.toNat ≤ q ∧ q < 2 ^ 32 - 1

/-- A period that is not farther below the request than 2^32 is above it, nor than the largest
word if that is a period. -/
def HasNearLower (base nanosec : U32) : Prop :=
  ∃ g, IsProduct base g ∧ g ≤ nanosec.toNat ∧ nanosec.toNat - g ≤ 2 ^ 32 - nanosec.toNat ∧
    (IsProduct base (2 ^ 32 - 1) → nanosec.toNat - g ≤ 2 ^ 32 - 1 - nanosec.toNat)

/-- The condition under which the search gives the optimum. -/
structure Searchable (base nanosec roundMode : U32) : Prop where
  top : base = 1 → nanosec.toNat < topLimit roundMode
  up : isUp roundMode → HasUpper base nanosec
  nearest : ¬ isUp roundMode → ¬ isDown roundMode →
    HasUpper base nanosec ∨ HasNearLower base nanosec

variable {base nanosec : U32} {p q : Nat}

/-- The smaller divisor first. -/
theorem IsProduct.ordered (h : IsProduct base p) :
    ∃ a b, 2 ≤ a ∧ a ≤ b ∧ b ≤ 65536 ∧ base.toNat * (a * b) = p ∧ p < 2 ^ 32 := by
  obtain ⟨a, b, ha, ha', hb, hb', heq, hlt⟩ := h
  rw [Nat.mul_assoc] at heq
  rcases Nat.le_total a b with hle | hle
  · exact ⟨a, b, ha, hle, hb', heq, hlt⟩
  · exact ⟨b, a, hb, hle, ha', by rw [Nat.mul_comm b a, heq], hlt⟩

/-- A pair of divisors that the search for the divider `d` meets. -/
structure Band (d n m : Nat) : Prop where
  two_le : 2 ≤ n
  start : d / 65536 ≤ n
  root : n ≤ d / n + 1
  left_le : n ≤ 65536
  right_le : m ≤ 65536
  first : d / n ≤ m
  band : n * m ≤ d + n + 1

theorem search_band (hd : nanosec.toNat / base.toNat < 2 ^ 32 - 65536) {n m : Nat}
    (h : Band (nanosec.toNat / base.toNat) n m) (hlt : base.toNat * (n * m) < 2 ^ 32) :
    (base.toNat * (n * m) ≤ nanosec.toNat →
        base.toNat * (n * m) ≤ (search base nanosec).glb.ns.toNat) ∧
      (nanosec.toNat ≤ base.toNat * (n * m) →
        (search base nanosec).lub.ns.toNat ≤ base.toNat * (n * m)) := by
  have hn : (BitVec.ofNat 32 n).toNat = n := by
    rw [BitVec.toNat_ofNat]
    exact Nat.mod_eq_of_lt (Nat.lt_of_le_of_lt h.left_le (by decide))
  have hm : (BitVec.ofNat 32 m).toNat = m := by
    rw [BitVec.toNat_ofNat]
    exact Nat.mod_eq_of_lt (Nat.lt_of_le_of_lt h.right_le (by decide))
  have hw : (base * .ofNat 32 n * .ofNat 32 m).toNat = base.toNat * (n * m) := by
    rw [ns_toNat, hn, hm, Nat.mul_assoc]
    exact Nat.mod_eq_of_lt hlt
  have hr : Reached nanosec (base * .ofNat 32 n * .ofNat 32 m) (search base nanosec) := by
    refine search_reached hd ?_ ?_ ?_ ?_ ?_ ?_ ?_
    · rw [hn]
      exact h.two_le
    · rw [hn]
      exact h.start
    · rw [hn]
      exact h.root
    · rw [hn]
      exact h.left_le
    · rw [hm]
      exact h.right_le
    · rw [hn, hm]
      exact h.first
    · rw [hn, hm]
      exact h.band
  constructor
  · intro hle
    have := hr.glb (by rw [BitVec.le_def, hw]; exact hle)
    rwa [BitVec.le_def, hw] at this
  · intro hle
    have := hr.lub (by rw [BitVec.le_def, hw]; exact hle)
    rwa [BitVec.le_def, hw] at this

section Bands

variable {d a b c period t y : Nat}

/-- Up to the divider, there is a pair in the band that is at least as good as any. -/
theorem band_below (hd : d < 2 ^ 32 - 65536) (ha : 2 ≤ a) (hab : a ≤ b) (hb : b ≤ 65536)
    (hle : a * b ≤ d) : ∃ n m, Band d n m ∧ a * b ≤ n * m ∧ n * m ≤ d := by
  by_cases hq : d / a ≤ 65536
  · have hba : b ≤ d / a := by
      rw [Nat.le_div_iff_mul_le (by omega), Nat.mul_comm]
      exact hle
    have hlt : d < (a + 1) * 65536 := by
      have h₁ := Nat.lt_mul_div_succ d (show 0 < a by omega)
      have h₂ : a * (d / a + 1) ≤ a * 65537 := Nat.mul_le_mul_left a (by omega)
      omega
    refine ⟨a, d / a, ⟨ha, ?_, by omega, by omega, hq, Nat.le_refl _, ?_⟩,
      Nat.mul_le_mul_left a hba, Nat.mul_div_le d a⟩
    · exact Nat.le_of_lt_succ ((Nat.div_lt_iff_lt_mul (by decide)).mpr hlt)
    · have := Nat.mul_div_le d a
      omega
  · -- the counter cannot count that far, and the next divisor is better than `a` with 65536
    have hmul : a * 65537 ≤ d := by
      have h₁ : a * 65537 ≤ a * (d / a) := Nat.mul_le_mul_left a (by omega)
      exact Nat.le_trans h₁ (Nat.mul_div_le d a)
    have hs : d / 65536 * 65536 ≤ d := Nat.div_mul_le_self d 65536
    have hs' : d < (d / 65536 + 1) * 65536 := by
      have := Nat.lt_mul_div_succ d (show 0 < 65536 by decide)
      omega
    obtain ⟨s, hdef⟩ : ∃ s, d / 65536 = s := ⟨_, rfl⟩
    rw [hdef] at hs hs'
    have has : a ≤ s := by omega
    have hnext := Nat.lt_mul_div_succ d (show 0 < s + 1 by omega)
    have hdiv := Nat.mul_div_le d (s + 1)
    have hm : d / (s + 1) < 65536 :=
      (Nat.div_lt_iff_lt_mul (by omega)).mpr (by rw [Nat.mul_comm]; exact hs')
    have hroot : s ≤ d / (s + 1) := by
      rw [Nat.le_div_iff_mul_le (by omega)]
      exact Nat.le_trans (Nat.mul_le_mul_left s (by omega)) hs
    rw [Nat.mul_add, Nat.mul_one] at hnext
    have hprod : a * b ≤ a * 65536 := Nat.mul_le_mul_left a hb
    refine ⟨s + 1, d / (s + 1), ⟨by omega, ?_, by omega, by omega, by omega, Nat.le_refl _, by omega⟩,
      ?_, hdiv⟩
    · exact hdef ▸ Nat.le_succ s
    · rcases Nat.lt_or_eq_of_le has with hlt | heq
      · omega
      · omega

/-- With a divisor that the search comes to, and any other, the period is reached within the
band. -/
theorem band_of_root (hc : 0 < c) (ht2 : 2 ≤ t) (ht : t ≤ 65536)
    (hstart : period / c / 65536 ≤ t) (hroot : t ≤ period / c / t + 1) (hy : y ≤ 65536)
    (hreach : period ≤ c * (t * y)) :
    ∃ m, Band (period / c) t m ∧ m ≤ y ∧ period ≤ c * (t * m) := by
  have hdiv := Nat.mul_div_le (period / c) t
  by_cases hfirst : period ≤ c * (t * (period / c / t))
  · have hle : period / c / t ≤ y := by
      refine Nat.div_le_of_le_mul (Nat.div_le_of_le_mul ?_)
      exact hreach
    exact ⟨_, ⟨ht2, hstart, hroot, ht, by omega, Nat.le_refl _, by omega⟩, hle, hfirst⟩
  · have hlt : period / c / t < y := by
      by_contra hge
      have : c * (t * y) ≤ c * (t * (period / c / t)) :=
        Nat.mul_le_mul_left c (Nat.mul_le_mul_left t (by omega))
      omega
    have hnext := Nat.lt_mul_div_succ (period / c) (show 0 < t by omega)
    have hover := Nat.lt_mul_div_succ period hc
    have hmul : c * (period / c + 1) ≤ c * (t * (period / c / t + 1)) :=
      Nat.mul_le_mul_left c hnext
    refine ⟨period / c / t + 1, ⟨ht2, hstart, hroot, ht, by omega, by omega, ?_⟩, hlt, by omega⟩
    rw [Nat.mul_add]
    omega

/-- The last divisor with `t * (t - 1) ≤ d`. -/
theorem exists_root (hd : 2 ≤ d) (ha : d < a * (a - 1)) :
    ∃ t, 2 ≤ t ∧ t < a ∧ t * (t - 1) ≤ d ∧ d < (t + 1) * t := by
  induction a with
  | zero => omega
  | succ a ih =>
    by_cases hlt : d < a * (a - 1)
    · obtain ⟨t, h2, hta, hle, hnext⟩ := ih hlt
      exact ⟨t, h2, by omega, hle, hnext⟩
    · have h2 : 2 ≤ a := by
        by_contra h
        have : a = 0 ∨ a = 1 := by omega
        rcases this with rfl | rfl <;> omega
      exact ⟨a, h2, by omega, by omega, ha⟩

/-- From the period on, there is a pair in the band that is at least as good as any. -/
theorem band_above (hc : 0 < c) (h4 : 4 ≤ period / c) (ha : 2 ≤ a) (hab : a ≤ b) (hb : b ≤ 65536)
    (hreach : period ≤ c * (a * b)) :
    ∃ n m, Band (period / c) n m ∧ n * m ≤ a * b ∧ period ≤ c * (n * m) := by
  have hs : period / c / 65536 * 65536 ≤ period / c := Nat.div_mul_le_self _ _
  have hdc := Nat.mul_div_le period c
  by_cases hroot : a ≤ period / c / a + 1
  · have hstart : period / c / 65536 ≤ a := by
      have hdab : period / c ≤ a * b := Nat.div_le_of_le_mul hreach
      have : a * b ≤ a * 65536 := Nat.mul_le_mul_left a hb
      omega
    obtain ⟨m, hband, hm, hle⟩ := band_of_root hc ha (by omega) hstart hroot hb hreach
    exact ⟨a, m, hband, Nat.mul_le_mul_left a hm, hle⟩
  · have hsmall : period / c < a * (a - 1) := by
      have h₁ := Nat.lt_mul_div_succ (period / c) (show 0 < a by omega)
      have h₂ : a * (period / c / a + 1) ≤ a * (a - 1) := Nat.mul_le_mul_left a (by omega)
      omega
    obtain ⟨t, ht2, hta, hle, hnext⟩ := exists_root (by omega) hsmall
    have hstart : period / c / 65536 ≤ t := by
      by_contra hlt
      have h₁ : (t + 1) * t ≤ (t + 1) * 65536 := Nat.mul_le_mul_left _ (by omega)
      have h₂ : (t + 1) * 65536 ≤ period / c / 65536 * 65536 := Nat.mul_le_mul_right _ (by omega)
      omega
    have hroot' : t ≤ period / c / t + 1 := by
      have : t - 1 ≤ period / c / t := by
        rw [Nat.le_div_iff_mul_le (by omega), Nat.mul_comm]
        exact hle
      omega
    have hreach' : period ≤ c * (t * (t + 1)) := by
      have h₁ := Nat.lt_mul_div_succ period hc
      have h₂ : c * (period / c + 1) ≤ c * (t * (t + 1)) :=
        Nat.mul_le_mul_left c (by rw [Nat.mul_comm t]; exact hnext)
      omega
    obtain ⟨m, hband, hm, hle'⟩ := band_of_root hc ht2 (by omega) hstart hroot' (by omega) hreach'
    refine ⟨t, m, hband, ?_, hle'⟩
    calc t * m ≤ a * m := Nat.mul_le_mul_right m (by omega)
      _ ≤ a * b := Nat.mul_le_mul_left a (by omega)

end Bands

section Optimum

variable (hb : 0 < base.toNat) (h4 : 4 ≤ nanosec.toNat / base.toNat)
  (hd : nanosec.toNat / base.toNat < 2 ^ 32 - 65536)
include hb h4 hd

/-- The lower bound is the largest period up to the request. -/
theorem glb_best (hp : IsProduct base p) (hle : p ≤ nanosec.toNat) :
    p ≤ (search base nanosec).glb.ns.toNat := by
  obtain ⟨a, b, ha, hab, hb', rfl, hlt⟩ := hp.ordered
  have hdiv : a * b ≤ nanosec.toNat / base.toNat := by
    rw [Nat.le_div_iff_mul_le hb, Nat.mul_comm]
    exact hle
  obtain ⟨n, m, hband, hbest, hnm⟩ := band_below hd ha hab hb' hdiv
  have hfits : base.toNat * (n * m) ≤ nanosec.toNat :=
    Nat.le_trans (Nat.mul_le_mul_left _ hnm) (Nat.mul_div_le _ _)
  have hlt' : base.toNat * (n * m) < 2 ^ 32 := Nat.lt_of_le_of_lt hfits nanosec.isLt
  exact Nat.le_trans (Nat.mul_le_mul_left _ hbest) ((search_band hd hband hlt').1 hfits)

/-- The upper bound is the smallest period from the request on. -/
theorem lub_best (hp : IsProduct base p) (hle : nanosec.toNat ≤ p) :
    (search base nanosec).lub.ns.toNat ≤ p := by
  obtain ⟨a, b, ha, hab, hb', rfl, hlt⟩ := hp.ordered
  obtain ⟨n, m, hband, hbest, hnm⟩ := band_above hb h4 ha hab hb' hle
  have hmul := Nat.mul_le_mul_left base.toNat hbest
  exact Nat.le_trans ((search_band hd hband (Nat.lt_of_le_of_lt hmul hlt)).2 hnm) hmul

omit hb hd in
/-- The second divisor of what has been found is not 1 either. -/
theorem exact_two_le {f : Found} (h : Exact base nanosec f) : 2 ≤ f.div2.toNat := by
  have hfirst := h.first
  have hroot := h.root
  rcases Nat.lt_or_eq_of_le h.two_le with hlt | heq
  · omega
  · rw [← heq] at hfirst
    omega

omit hb hd in
theorem exact_isProduct {f : Found} (h : Exact base nanosec f) :
    IsProduct base f.ns.toNat :=
  ⟨f.div1.toNat, f.div2.toNat, h.two_le, h.div1_le, exact_two_le h4 h, h.div2_le, h.product,
    f.ns.isLt⟩

/-- There is a lower bound. -/
theorem glb_exact : Exact base nanosec (search base nanosec).glb := by
  rcases (search_exact (.inl h4) hd).glb with h | h
  · exact h
  · have hmul := Nat.mul_le_mul_left base.toNat h4
    have hdiv := Nat.mul_div_le nanosec.toNat base.toNat
    have hlt := nanosec.isLt
    have hfour : IsProduct base (base.toNat * 4) :=
      ⟨2, 2, Nat.le_refl 2, by decide, Nat.le_refl 2, by decide, by omega, by omega⟩
    have hbest := glb_best hb h4 hd hfour (by omega)
    rw [h] at hbest
    have : base.toNat * 4 ≤ 0 := hbest
    omega

/-- There is an upper bound, or no period from the request on that is less than the largest
word. -/
theorem lub_exact : (Exact base nanosec (search base nanosec).lub ∧
      (search base nanosec).lub.ns.toNat < 2 ^ 32 - 1) ∨
    (search base nanosec).lub = ⟨0xffffffff, 0, 0⟩ ∧
      ∀ p, IsProduct base p → nanosec.toNat ≤ p → p = 2 ^ 32 - 1 := by
  rcases (search_exact (.inl h4) hd).lub with ⟨h, hmax⟩ | h
  · refine .inl ⟨h, ?_⟩
    have hlt := (search base nanosec).lub.ns.isLt
    have hne : (search base nanosec).lub.ns.toNat ≠ 2 ^ 32 - 1 :=
      fun heq => hmax (BitVec.eq_of_toNat_eq heq)
    omega
  · refine .inr ⟨h, fun p hp hle => ?_⟩
    have hbest := lub_best hb h4 hd hp hle
    obtain ⟨a, b, -, -, -, -, -, hlt⟩ := hp
    rw [h] at hbest
    have : 2 ^ 32 - 1 ≤ p := hbest
    omega

end Optimum

/-- The divisors of an exact pair, as the counters read them. -/
theorem divisor_mask {x : U32} (h : 1 ≤ x.toNat) (hle : x.toNat ≤ 65536) :
    divisor (x &&& 0xffff) = x := by
  have hmod : (x &&& 0xffff).toNat = x.toNat % 65536 := by
    rw [BitVec.toNat_and]
    exact Nat.and_two_pow_sub_one_eq_mod x.toNat 16
  unfold divisor
  rcases Nat.lt_or_eq_of_le hle with hlt | heq
  · have hself : x &&& 0xffff = x := BitVec.eq_of_toNat_eq (hmod.trans (Nat.mod_eq_of_lt hlt))
    rw [hself, if_pos]
    intro h0
    rw [h0] at h
    exact absurd h (by decide)
  · have hzero : x &&& 0xffff = 0 := BitVec.eq_of_toNat_eq (by rw [hmod, heq]; rfl)
    rw [hzero, if_neg (not_not.mpr rfl)]
    exact (BitVec.eq_of_toNat_eq heq).symm

/-- The result for a pair of divisors. -/
def timerOf (base : U32) (f : Found) : Timer :=
  ⟨f.div1 &&& 0xffff, f.div2 &&& 0xffff, f.div1 * f.div2 * base⟩

theorem product_ns (f : Found) (h : base.toNat * f.div1.toNat * f.div2.toNat = f.ns.toNat) :
    f.div1 * f.div2 * base = f.ns := by
  apply BitVec.eq_of_toNat_eq
  rw [BitVec.mul_comm, ← BitVec.mul_assoc, ns_toNat, h]
  exact Nat.mod_eq_of_lt f.ns.isLt

/-- With a base above 1, exact divisors pass the test for an early exit. -/
theorem alreadyCorrect_of_product {d1 d2 : U32} (hb2 : 2 ≤ base.toNat)
    (h1 : 2 ≤ (divisor d1).toNat) (h1' : (divisor d1).toNat ≤ 65536) (h2 : 2 ≤ (divisor d2).toNat)
    (h2' : (divisor d2).toNat ≤ 65536)
    (h : base.toNat * (divisor d1).toNat * (divisor d2).toNat = nanosec.toNat) :
    alreadyCorrect base d1 d2 nanosec := by
  have hlt := nanosec.isLt
  have hns : divisor d1 * divisor d2 * base = nanosec := product_ns ⟨nanosec, _, _⟩ h
  rw [Nat.mul_assoc] at h
  have hpair : 2 * ((divisor d1).toNat * (divisor d2).toNat) ≤ nanosec.toNat :=
    h ▸ Nat.mul_le_mul_right _ hb2
  have hdivider : (divisor d1 * divisor d2).toNat = (divisor d1).toNat * (divisor d2).toNat := by
    rw [BitVec.toNat_mul]
    exact Nat.mod_eq_of_lt (by omega)
  have hleft : (divisor d1).toNat * 2 ≤ (divisor d1).toNat * (divisor d2).toNat :=
    Nat.mul_le_mul_left _ h2
  have hright : 2 * (divisor d2).toNat ≤ (divisor d1).toNat * (divisor d2).toNat :=
    Nat.mul_le_mul_right _ h1
  have hbase : base.toNat * 4 ≤ nanosec.toNat := h ▸ Nat.mul_le_mul_left _ (by omega)
  unfold alreadyCorrect
  dsimp only
  rw [hns]
  refine ⟨rfl, ?_, h1', ?_, h2', ?_, ?_, ?_, ?_⟩
  · rw [BitVec.lt_def]
    exact h1
  · rw [BitVec.lt_def]
    exact h2
  · rw [BitVec.lt_def, hdivider]
    omega
  · rw [BitVec.lt_def, hdivider]
    omega
  · rw [BitVec.lt_def, hdivider]
    omega
  · rw [BitVec.lt_def]
    omega

theorem cascade_of_alreadyCorrect {t : Timer} (h : alreadyCorrect base t.d1 t.d2 t.nanosec)
    (roundMode : U32) : cascadeNsToTimer2div base t roundMode = t := if_pos h

/-- If both bounds are the period itself, it is left as it is. -/
theorem roundTo_of_eq (hs : Sound base nanosec (search base nanosec))
    (hglb : (search base nanosec).glb.ns = nanosec) (hlub : (search base nanosec).lub.ns = nanosec)
    (hmax : nanosec ≠ 0xffffffff) (roundMode : U32) :
    let pair := roundTo base nanosec roundMode (search base nanosec)
    pair.1 * pair.2 * base = nanosec := by
  have hcomm (x y : U32) : x * y * base = base * x * y := by
    rw [BitVec.mul_comm, BitVec.mul_assoc]
  have hne : (search base nanosec).lub.ns ≠ 0xffffffff := by
    rw [hlub]
    exact hmax
  have hl : (search base nanosec).lub.div1 * (search base nanosec).lub.div2 * base = nanosec := by
    rw [hcomm, hs.lub hne, hlub]
  have hg : (search base nanosec).glb.div1 * (search base nanosec).glb.div2 * base = nanosec := by
    rw [hcomm, hs.glb, hglb]
  unfold roundTo
  dsimp only
  split
  · exact hl
  split
  · exact hg
  split
  · exact hl
  · exact hg

/-- A period that is the product of two divisors is returned unchanged. -/
theorem cascade_of_product {n m : Nat} (hb : 0 < base.toNat) {t : Timer}
    (hd : t.nanosec.toNat / base.toNat < 2 ^ 32 - 65536) (hn2 : 2 ≤ n) (hn : n ≤ 65536)
    (hm : m ≤ 65536) (hnm : n ≤ m + 1) (heq : base.toNat * (n * m) = t.nanosec.toNat)
    (hmax : t.nanosec ≠ 0xffffffff) (roundMode : U32) :
    (cascadeNsToTimer2div base t roundMode).nanosec = t.nanosec := by
  have hdiv : t.nanosec.toNat / base.toNat = n * m := by
    rw [← heq, Nat.mul_div_cancel_left _ hb]
  have hquot : n * m / n = m := Nat.mul_div_cancel_left m (by omega)
  have hband : Band (t.nanosec.toNat / base.toNat) n m := by
    rw [hdiv]
    refine ⟨hn2, ?_, by omega, hn, hm, Nat.le_of_eq hquot, by omega⟩
    exact Nat.div_le_of_le_mul (by rw [Nat.mul_comm]; exact Nat.mul_le_mul_right n hm)
  obtain ⟨hlow, hhigh⟩ := search_band hd hband (heq ▸ t.nanosec.isLt)
  rw [heq] at hlow hhigh
  have hs := search_sound base t.nanosec
  unfold cascadeNsToTimer2div
  split
  · rfl
  · exact roundTo_of_eq hs (BitVec.le_antisymm hs.glb_le (hlow (Nat.le_refl _)))
      (BitVec.le_antisymm (hhigh (Nat.le_refl _)) hs.le_lub) hmax roundMode

/-- A period that the search has found is left as it is, unless its search overflows. -/
theorem again_of_exact {f : Found} (hb : 0 < base.toNat) (h4 : 4 ≤ nanosec.toNat / base.toNat)
    (hf : Exact base nanosec f) (hmax : base = 1 → f.ns.toNat < 2 ^ 32 - 65536) (mode : U32) :
    (cascadeNsToTimer2div base (timerOf base f) mode).nanosec = (timerOf base f).nanosec ∧
      (base ≠ 1 → cascadeNsToTimer2div base (timerOf base f) mode = timerOf base f) := by
  have hns : (timerOf base f).nanosec = f.ns := product_ns f hf.product
  have h2 := exact_two_le h4 hf
  by_cases hone : base.toNat = 1
  · have hbase : base = 1 := BitVec.eq_of_toNat_eq hone
    have hlt := hmax hbase
    have hroot := hf.root
    have hfirst := hf.first
    refine ⟨?_, absurd hbase⟩
    refine cascade_of_product (n := f.div1.toNat) (m := f.div2.toNat) hb ?_ hf.two_le hf.div1_le
      hf.div2_le (by omega) ?_ ?_ mode
    · rw [hns, hone, Nat.div_one]
      exact hlt
    · rw [hns, ← Nat.mul_assoc]
      exact hf.product
    · rw [hns]
      intro h
      rw [h] at hlt
      exact absurd hlt (by decide)
  · have hmask1 := divisor_mask (Nat.le_of_succ_le hf.two_le) hf.div1_le
    have hmask2 := divisor_mask (Nat.le_of_succ_le h2) hf.div2_le
    suffices h : alreadyCorrect base (timerOf base f).d1 (timerOf base f).d2
        (timerOf base f).nanosec by
      have hsame := cascade_of_alreadyCorrect h mode
      exact ⟨congrArg Timer.nanosec hsame, fun _ => hsame⟩
    refine alreadyCorrect_of_product (by omega) ?_ ?_ ?_ ?_ ?_
    · exact hmask1 ▸ hf.two_le
    · exact hmask1 ▸ hf.div1_le
    · exact hmask2 ▸ h2
    · exact hmask2 ▸ hf.div2_le
    · rw [hns]
      change _ * (divisor (f.div1 &&& 0xffff)).toNat * (divisor (f.div2 &&& 0xffff)).toNat = _
      rw [hmask1, hmask2]
      exact hf.product

end Comedi.I8253Periods
