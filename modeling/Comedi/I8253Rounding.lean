import Comedi.I8253Periods

namespace Comedi.I8253Rounding

open I8253 I8253Search I8253Periods

variable {base nanosec : U32} {p : Nat}

/-- The bound that is returned. -/
def chosen (base nanosec roundMode : U32) (b : Bounds) : Found :=
  if isUp roundMode then b.lub
  else if isDown roundMode then b.glb
  else
    let nsHigh := b.lub.div1 * b.lub.div2 * base
    let nsLow := b.glb.div1 * b.glb.div2 * base
    if nsHigh - nanosec < nanosec - nsLow then b.lub else b.glb

theorem roundTo_chosen (base nanosec roundMode : U32) (b : Bounds) :
    roundTo base nanosec roundMode b =
      ((chosen base nanosec roundMode b).div1, (chosen base nanosec roundMode b).div2) := by
  unfold chosen
  by_cases hup : isUp roundMode
  · rw [if_pos hup]
    exact if_pos hup
  rw [if_neg hup]
  refine (if_neg hup).trans ?_
  by_cases hdown : isDown roundMode
  · rw [if_pos hdown]
    exact if_pos hdown
  rw [if_neg hdown]
  refine (if_neg hdown).trans ?_
  dsimp only
  split
  · rfl
  · rfl

/-- Without divisors there is no early exit. -/
theorem not_alreadyCorrect_zero (base nanosec : U32) : ¬ alreadyCorrect base 0 0 nanosec := by
  intro h
  have hwrap : divisor 0 < divisor 0 * divisor 0 := h.2.2.2.2.2.1
  exact absurd hwrap (by decide)

theorem cascade_zero (base nanosec roundMode : U32) :
    cascadeNsToTimer2div base ⟨0, 0, nanosec⟩ roundMode =
      timerOf base (chosen base nanosec roundMode (search base nanosec)) := by
  unfold cascadeNsToTimer2div
  rw [if_neg (not_alreadyCorrect_zero base nanosec), roundTo_chosen]
  rfl

/-- The bounds without divisors do not give a period. -/
theorem not_optimal_zero (hb : 0 < base.toNat) (ns roundMode : U32) :
    ¬ Optimal base nanosec roundMode (timerOf base ⟨ns, 0, 0⟩) := by
  intro h
  have hlt : (timerOf base ⟨ns, 0, 0⟩).nanosec.toNat < 2 ^ 32 := BitVec.isLt _
  have hdivisor : (divisor (0 &&& 0xffff)).toNat = 65536 := rfl
  rw [← h.product, Nat.mul_assoc] at hlt
  change _ * ((divisor (0 &&& 0xffff)).toNat * (divisor (0 &&& 0xffff)).toNat) < _ at hlt
  rw [hdivisor] at hlt
  omega

/-- Above all periods but the last one, with a base of 1, the end of the band overflows. -/
theorem search_top (h : 2 ^ 32 - 65536 ≤ nanosec.toNat) : search 1 nanosec = {} := by
  have hlt := nanosec.isLt
  have hone : nanosec / 1 = nanosec := BitVec.udiv_one
  have hquot : (nanosec / maxCount).toNat = 65535 := by
    rw [BitVec.toNat_udiv]
    change nanosec.toNat / 65536 = 65535
    omega
  have hstart : nanosec / maxCount = 65535 := BitVec.eq_of_toNat_eq hquot
  have hinner (d1 : U32) (b : Bounds) (h1 : 65535 ≤ d1.toNat) (h1' : d1.toNat ≤ 65536) :
      searchDiv2 1 nanosec nanosec d1 (maxCount.toNat + 1) (nanosec / d1) b = b := by
    have hproduct : 65537 ≤ (d1 * (nanosec / d1)).toNat := by
      rw [BitVec.toNat_mul, BitVec.toNat_udiv]
      have hle := Nat.mul_div_le nanosec.toNat d1.toNat
      have hnext := Nat.lt_mul_div_succ nanosec.toNat (show 0 < d1.toNat by omega)
      rw [Nat.mul_add] at hnext
      rw [Nat.mod_eq_of_lt (by omega)]
      omega
    rw [searchDiv2_succ, if_neg]
    intro hgo
    have hle := hgo.1
    rw [BitVec.le_def, BitVec.toNat_add, BitVec.toNat_add] at hle
    change _ ≤ ((nanosec.toNat + d1.toNat) % 2 ^ 32 + 1) % 2 ^ 32 at hle
    omega
  have houter (fuel : Nat) : searchDiv1 1 nanosec nanosec (fuel + 3) 65535 {} = {} := by
    rw [searchDiv1_succ, hinner 65535 {} (by decide) (by decide)]
    split
    · rw [searchDiv1_succ, hinner (65535 + 1) {} (by decide) (by decide)]
      split
      · rw [searchDiv1_succ, if_neg fun hgo => absurd hgo.2 (by decide)]
      · rfl
    · rfl
  unfold search
  dsimp only
  rw [hone, hstart]
  exact houter 65534

theorem not_optimal_top (h : 2 ^ 32 - 65536 ≤ nanosec.toNat) (roundMode : U32) :
    ¬ Optimal 1 nanosec roundMode (cascadeNsToTimer2div 1 ⟨0, 0, nanosec⟩ roundMode) := by
  rw [cascade_zero, search_top h]
  unfold chosen
  split
  · exact not_optimal_zero (by decide) _ _
  split
  · exact not_optimal_zero (by decide) _ _
  dsimp only
  split
  · exact not_optimal_zero (by decide) _ _
  · exact not_optimal_zero (by decide) _ _

/-- With a base of 1 the largest period is not left as it is. -/
theorem not_optimal_last (roundMode : U32) {r : Timer} (hr : r.nanosec.toNat = 65535 * 65536) :
    ¬ Optimal 1 nanosec roundMode r := by
  intro h
  have hnot : ¬ alreadyCorrect 1 r.d1 r.d2 r.nanosec := by
    intro hc
    have hlt : divisor r.d1 * divisor r.d2 < divisor r.d1 * divisor r.d2 * 1 := hc.2.2.2.2.2.2.2.1
    have hone : divisor r.d1 * divisor r.d2 * 1 = divisor r.d1 * divisor r.d2 := BitVec.mul_one _
    rw [hone] at hlt
    exact absurd hlt (BitVec.lt_irrefl _)
  have hagain := (h.again trigRoundDown).1
  unfold cascadeNsToTimer2div at hagain
  rw [if_neg hnot, search_top (by omega)] at hagain
  have hzero : r.nanosec = 0 := hagain.symm
  rw [hzero] at hr
  exact absurd hr (by decide)

section Last

variable (hp : IsProduct 1 p)
include hp

/-- With a base of 1, the largest period is the only one from `65535 * 65535 + 1` on. -/
theorem last_product (hlt : 65535 * 65535 < p) : p = 65535 * 65536 := by
  obtain ⟨a, b, ha, hab, hb, rfl, hmax⟩ := hp.ordered
  rw [show (1 : U32).toNat = 1 from rfl, Nat.one_mul] at hlt hmax ⊢
  have ha' : a ≤ 65535 := by
    by_contra hge
    have : 65536 * 65536 ≤ a * b := Nat.mul_le_mul (by omega) (by omega)
    omega
  have hb' : b = 65536 := by
    by_contra hne
    have : a * b ≤ 65535 * 65535 := Nat.mul_le_mul ha' (by omega)
    omega
  subst hb'
  have : a = 65535 := by omega
  rw [this]

end Last

theorem isProduct_last : IsProduct 1 (65535 * 65536) :=
  ⟨65535, 65536, by decide, by decide, by decide, by decide, rfl, by decide⟩

theorem isProduct_square : IsProduct 1 (65535 * 65535) :=
  ⟨65535, 65535, by decide, by decide, by decide, by decide, rfl, by decide⟩

/-- A product that the search has found is optimal if it is best for the rounding mode and is not
the largest period for a base of 1. -/
theorem optimal_of_exact {f : Found} {roundMode : U32} (hb : 0 < base.toNat)
    (h4 : 4 ≤ nanosec.toNat / base.toNat) (hf : Exact base nanosec f)
    (hmax : base = 1 → f.ns.toNat < 2 ^ 32 - 65536)
    (hdown : isDown roundMode → f.ns.toNat ≤ nanosec.toNat ∧
      ∀ p, IsProduct base p → p ≤ nanosec.toNat → p ≤ f.ns.toNat)
    (hup : isUp roundMode → nanosec.toNat ≤ f.ns.toNat ∧
      ∀ p, IsProduct base p → nanosec.toNat ≤ p → f.ns.toNat ≤ p)
    (hnearest : ¬ isUp roundMode → ¬ isDown roundMode → ∀ p, IsProduct base p →
      distance f.ns.toNat nanosec.toNat ≤ distance p nanosec.toNat) :
    Optimal base nanosec roundMode (timerOf base f) := by
  have hns : (timerOf base f).nanosec = f.ns := product_ns f hf.product
  have h2 := exact_two_le h4 hf
  have hmask1 : divisor (timerOf base f).d1 = f.div1 :=
    divisor_mask (Nat.le_of_succ_le hf.two_le) hf.div1_le
  have hmask2 : divisor (timerOf base f).d2 = f.div2 :=
    divisor_mask (Nat.le_of_succ_le h2) hf.div2_le
  constructor
  · rw [hmask1]
    exact ⟨hf.two_le, hf.div1_le⟩
  · rw [hmask2]
    exact ⟨h2, hf.div2_le⟩
  · rw [hmask1, hmask2, hns]
    exact hf.product
  · rw [hns]
    exact hdown
  · rw [hns]
    exact fun h _ => hup h
  · intro h hnone
    exact absurd ⟨_, exact_isProduct h4 hf, (hup h).1⟩ hnone
  · rw [hns]
    exact hnearest
  · exact again_of_exact hb h4 hf hmax

section Modes

variable {roundMode : U32} (hb : 0 < base.toNat) (h4 : 4 ≤ nanosec.toNat / base.toNat)
  (hd : nanosec.toNat / base.toNat < 2 ^ 32 - 65536)
include hb h4 hd

omit h4 in
/-- With a base of 1 the request is below the largest period. -/
theorem lt_last (hone : base = 1) : nanosec.toNat < 65535 * 65536 := by
  subst hone
  rw [show (1 : U32).toNat = 1 from rfl, Nat.div_one] at hd
  omega

theorem down_optimal (hdown : isDown roundMode) :
    Optimal base nanosec roundMode (timerOf base (search base nanosec).glb) := by
  have hs := search_sound base nanosec
  have hup : ¬ isUp roundMode := fun h => absurd (h.symm.trans hdown) (by decide)
  refine optimal_of_exact hb h4 (glb_exact hb h4 hd) (fun hone => ?_) (fun _ => ?_)
    (fun h => absurd h hup) (fun _ h => absurd hdown h)
  · have hlast := lt_last hb hd hone
    have := BitVec.le_def.mp hs.glb_le
    omega
  · exact ⟨hs.glb_le, fun p hp hle => glb_best hb h4 hd hp hle⟩

/-- With a base of 1 and a request past the square, the upper bound is the largest period. -/
theorem lub_last (hone : base = 1) (hlt : 65535 * 65535 < nanosec.toNat)
    (hf : Exact base nanosec (search base nanosec).lub) :
    (search base nanosec).lub.ns.toNat = 65535 * 65536 := by
  subst hone
  have hle := BitVec.le_def.mp (search_sound 1 nanosec).le_lub
  exact last_product (exact_isProduct h4 hf) (by omega)

theorem up_iff (hup : isUp roundMode) :
    Optimal base nanosec roundMode (timerOf base (search base nanosec).lub) ↔
      Searchable base nanosec roundMode := by
  have hs := search_sound base nanosec
  have hdown : ¬ isDown roundMode := fun h => absurd (hup.symm.trans h) (by decide)
  have htop : topLimit roundMode = 65535 * 65535 + 1 := if_pos hup
  rcases lub_exact hb h4 hd with ⟨hf, hmax⟩ | ⟨hf, hnone⟩
  · have hns : (timerOf base (search base nanosec).lub).nanosec = (search base nanosec).lub.ns :=
      product_ns _ hf.product
    have hupper : HasUpper base nanosec := ⟨_, exact_isProduct h4 hf, hs.le_lub, hmax⟩
    constructor
    · intro h
      refine ⟨fun hone => ?_, fun _ => hupper, fun h => absurd hup h⟩
      by_contra hge
      rw [htop] at hge
      have hlast := lub_last hb h4 hd hone (by omega) hf
      subst hone
      exact not_optimal_last roundMode (hns ▸ hlast) h
    · intro h
      refine optimal_of_exact hb h4 hf (fun hone => ?_) (fun h => absurd h hdown)
        (fun _ => ⟨hs.le_lub, fun p hp hle => lub_best hb h4 hd hp hle⟩) (fun h => absurd hup h)
      have hlt := h.top hone
      rw [htop] at hlt
      subst hone
      have := lub_best hb h4 hd isProduct_square (by omega)
      omega
  · rw [hf]
    refine ⟨fun h => absurd h (not_optimal_zero hb _ _), fun h => ?_⟩
    obtain ⟨q, hq, hle, hlt⟩ := h.up hup
    have := hnone q hq hle
    omega

/-- The bound that is nearer, when there are both. -/
theorem nearest_both (hup : ¬ isUp roundMode) (hdown : ¬ isDown roundMode)
    (hf : Exact base nanosec (search base nanosec).lub) :
    chosen base nanosec roundMode (search base nanosec) =
      if (search base nanosec).lub.ns.toNat - nanosec.toNat <
        nanosec.toNat - (search base nanosec).glb.ns.toNat then (search base nanosec).lub
      else (search base nanosec).glb := by
  have hs := search_sound base nanosec
  have hiff : (search base nanosec).lub.ns - nanosec < nanosec - (search base nanosec).glb.ns ↔
      (search base nanosec).lub.ns.toNat - nanosec.toNat <
        nanosec.toNat - (search base nanosec).glb.ns.toNat := by
    rw [BitVec.lt_def, BitVec.toNat_sub_of_le hs.le_lub, BitVec.toNat_sub_of_le hs.glb_le]
  unfold chosen
  rw [if_neg hup, if_neg hdown, product_ns _ hf.product, product_ns _ (glb_exact hb h4 hd).product]
  exact if_congr hiff rfl rfl

/-- Without an upper bound, its place is taken by a period of 0. -/
theorem nearest_missing (hup : ¬ isUp roundMode) (hdown : ¬ isDown roundMode)
    (hf : (search base nanosec).lub = ⟨0xffffffff, 0, 0⟩) :
    chosen base nanosec roundMode (search base nanosec) =
      if 2 ^ 32 - nanosec.toNat < nanosec.toNat - (search base nanosec).glb.ns.toNat then
        ⟨0xffffffff, 0, 0⟩
      else (search base nanosec).glb := by
  have hs := search_sound base nanosec
  have hlt := nanosec.isLt
  have hpos : 0 < nanosec.toNat := by
    by_contra h0
    rw [Nat.le_zero.mp (Nat.not_lt.mp h0), Nat.zero_div] at h4
    omega
  have hhigh : (0 * 0 * base - nanosec).toNat = 2 ^ 32 - nanosec.toNat := by
    have hzero : (0 * 0 * base).toNat = 0 := by simp
    rw [BitVec.toNat_sub, hzero, Nat.add_zero]
    exact Nat.mod_eq_of_lt (by omega)
  have hiff : 0 * 0 * base - nanosec < nanosec - (search base nanosec).glb.ns ↔
      2 ^ 32 - nanosec.toNat < nanosec.toNat - (search base nanosec).glb.ns.toNat := by
    rw [BitVec.lt_def, hhigh, BitVec.toNat_sub_of_le hs.glb_le]
  unfold chosen
  rw [if_neg hup, if_neg hdown, hf, product_ns _ (glb_exact hb h4 hd).product]
  exact if_congr hiff rfl rfl

/-- The lower bound is the nearest if no period from the request on is nearer. -/
theorem lower_nearest (hlub : ∀ p, IsProduct base p → nanosec.toNat ≤ p →
      nanosec.toNat - (search base nanosec).glb.ns.toNat ≤ p - nanosec.toNat) (p : Nat)
    (hp : IsProduct base p) :
    distance (search base nanosec).glb.ns.toNat nanosec.toNat ≤ distance p nanosec.toNat := by
  have hle := BitVec.le_def.mp (search_sound base nanosec).glb_le
  unfold distance
  rcases Nat.le_total p nanosec.toNat with h | h
  · have := glb_best hb h4 hd hp h
    omega
  · have := hlub p hp h
    omega

theorem upper_nearest (hglb : (search base nanosec).lub.ns.toNat - nanosec.toNat <
      nanosec.toNat - (search base nanosec).glb.ns.toNat) (p : Nat) (hp : IsProduct base p) :
    distance (search base nanosec).lub.ns.toNat nanosec.toNat ≤ distance p nanosec.toNat := by
  have hle := BitVec.le_def.mp (search_sound base nanosec).le_lub
  unfold distance
  rcases Nat.le_total p nanosec.toNat with h | h
  · have := glb_best hb h4 hd hp h
    omega
  · have := lub_best hb h4 hd hp h
    omega

/-- With a base of 1, the upper bound is the largest period just when the request is at the
limit, and otherwise that period is not the nearest. -/
theorem nearest_last (hup : ¬ isUp roundMode) (hdown : ¬ isDown roundMode) (hone : base = 1)
    (hf : Exact base nanosec (search base nanosec).lub) :
    (chosen base nanosec roundMode (search base nanosec)).ns.toNat < 2 ^ 32 - 65536 ∧
        nanosec.toNat < topLimit roundMode ∨
      (chosen base nanosec roundMode (search base nanosec)).ns.toNat = 65535 * 65536 ∧
        topLimit roundMode ≤ nanosec.toNat := by
  have htop : topLimit roundMode = 4294868993 := (if_neg hup).trans (if_neg hdown)
  have hs := search_sound base nanosec
  have hlow := BitVec.le_def.mp hs.glb_le
  have hlast := lt_last hb hd hone
  rw [nearest_both hb h4 hd hup hdown hf, htop]
  by_cases hsquare : nanosec.toNat ≤ 65535 * 65535
  · have hle := lub_best hb h4 hd (hone ▸ isProduct_square) hsquare
    refine .inl ⟨?_, by omega⟩
    split
    · omega
    · omega
  · have hhigh := lub_last hb h4 hd hone (by omega) hf
    have hge := glb_best hb h4 hd (hone ▸ isProduct_square) (by omega)
    have hglb : (search base nanosec).glb.ns.toNat = 65535 * 65535 := by
      have hp := exact_isProduct h4 (glb_exact hb h4 hd)
      subst hone
      by_contra hne
      have := last_product hp (by omega)
      omega
    rw [hhigh, hglb]
    split
    · next hnear => exact .inr ⟨hhigh, by omega⟩
    · next hnear => exact .inl ⟨by omega, by omega⟩

theorem nearest_iff (hup : ¬ isUp roundMode) (hdown : ¬ isDown roundMode) :
    Optimal base nanosec roundMode
        (timerOf base (chosen base nanosec roundMode (search base nanosec))) ↔
      Searchable base nanosec roundMode := by
  have hs := search_sound base nanosec
  have hglb := glb_exact hb h4 hd
  rcases lub_exact hb h4 hd with ⟨hf, hmax⟩ | ⟨hf, hnone⟩
  · have hupper : HasUpper base nanosec := ⟨_, exact_isProduct h4 hf, hs.le_lub, hmax⟩
    have hchosen := nearest_both hb h4 hd hup hdown hf
    have hexact : Exact base nanosec (chosen base nanosec roundMode (search base nanosec)) := by
      rw [hchosen]
      split
      · exact hf
      · exact hglb
    constructor
    · intro h
      refine ⟨fun hone => ?_, fun h => absurd h hup, fun _ _ => .inl hupper⟩
      rcases nearest_last hb h4 hd hup hdown hone hf with ⟨-, hlt⟩ | ⟨hlast, -⟩
      · exact hlt
      · rw [← product_ns _ hexact.product] at hlast
        subst hone
        exact absurd h (not_optimal_last roundMode hlast)
    · intro h
      refine optimal_of_exact hb h4 hexact (fun hone => ?_) (fun h => absurd h hdown)
        (fun h => absurd h hup) (fun _ _ p hp => ?_)
      · rcases nearest_last hb h4 hd hup hdown hone hf with ⟨hlt, -⟩ | ⟨-, hge⟩
        · exact hlt
        · exact absurd (h.top hone) (Nat.not_lt.mpr hge)
      · rw [hchosen]
        split
        · next hnear => exact upper_nearest hb h4 hd hnear p hp
        · next hnear =>
          refine lower_nearest hb h4 hd (fun q hq hle => ?_) p hp
          have := lub_best hb h4 hd hq hle
          omega
  · have hne (hone : base = 1) : False := by
      have hlast := lt_last hb hd hone
      have := hnone _ (hone ▸ isProduct_last) (by omega)
      omega
    have hchosen := nearest_missing hb h4 hd hup hdown hf
    constructor
    · intro h
      rw [hchosen] at h
      split at h
      · exact absurd h (not_optimal_zero hb _ _)
      · next hnear =>
        have hns : (timerOf base (search base nanosec).glb).nanosec = (search base nanosec).glb.ns :=
          product_ns _ hglb.product
        refine ⟨fun hone => (hne hone).elim, fun h => absurd h hup, fun _ _ => .inr ?_⟩
        refine ⟨_, exact_isProduct h4 hglb, hs.glb_le, by omega, fun hp => ?_⟩
        have hclose := h.nearest hup hdown _ hp
        rw [hns] at hclose
        have hle := BitVec.le_def.mp hs.glb_le
        unfold distance at hclose
        have := nanosec.isLt
        omega
    · intro h
      have hlower : HasNearLower base nanosec := by
        rcases h.nearest hup hdown with ⟨q, hq, hle, hlt⟩ | hlower
        · have := hnone q hq hle
          omega
        · exact hlower
      obtain ⟨g, hg, hle, hnear, hword⟩ := hlower
      have hbest := glb_best hb h4 hd hg hle
      rw [hchosen, if_neg (by omega)]
      refine optimal_of_exact hb h4 hglb (fun hone => (hne hone).elim) (fun h => absurd h hdown)
        (fun h => absurd h hup) (fun _ _ => lower_nearest hb h4 hd fun p hp hle => ?_)
      have heq := hnone p hp hle
      rw [heq] at hp ⊢
      have := hword hp
      omega

end Modes

/-- From four bases on, the search without divisors finds the optimum if and only if there is a
bound that it can return. -/
theorem optimal_iff (base nanosec roundMode : U32) (hb : 1 ≤ base.toNat)
    (h4 : 4 * base.toNat ≤ nanosec.toNat) :
    Optimal base nanosec roundMode (cascadeNsToTimer2div base ⟨0, 0, nanosec⟩ roundMode) ↔
      Searchable base nanosec roundMode := by
  have hfour : 4 ≤ nanosec.toNat / base.toNat := (Nat.le_div_iff_mul_le hb).mpr h4
  have hlt := nanosec.isLt
  by_cases hd : nanosec.toNat / base.toNat < 2 ^ 32 - 65536
  · rw [cascade_zero]
    by_cases hup : isUp roundMode
    · have hchosen : chosen base nanosec roundMode (search base nanosec) =
          (search base nanosec).lub := if_pos hup
      rw [hchosen]
      exact up_iff hb hfour hd hup
    by_cases hdown : isDown roundMode
    · have hchosen : chosen base nanosec roundMode (search base nanosec) =
          (search base nanosec).glb := (if_neg hup).trans (if_pos hdown)
      rw [hchosen]
      refine iff_of_true (down_optimal hb hfour hd hdown)
        ⟨fun hone => ?_, fun h => absurd h hup, fun _ h => absurd hdown h⟩
      have htop : topLimit roundMode = 65535 * 65536 := (if_neg hup).trans (if_pos hdown)
      rw [htop]
      exact lt_last hb hd hone
    · exact nearest_iff hb hfour hd hup hdown
  · have hone : base = 1 := by
      refine BitVec.eq_of_toNat_eq ?_
      change base.toNat = 1
      by_contra hne
      have : nanosec.toNat / base.toNat ≤ nanosec.toNat / 2 :=
        Nat.div_le_div_left (by omega) (by decide)
      omega
    subst hone
    rw [show (1 : U32).toNat = 1 from rfl, Nat.div_one] at hd
    refine iff_of_false (not_optimal_top (by omega) roundMode) fun h => ?_
    have hsearchable := h.top rfl
    have hlimit : topLimit roundMode ≤ 65535 * 65536 := by
      unfold topLimit
      split
      · decide
      split
      · decide
      · decide
    omega

theorem optimal_iff_down :
    Optimal 100 450 trigRoundDown (cascadeNsToTimer2div 100 ⟨0, 0, 450⟩ trigRoundDown) :=
  (optimal_iff 100 450 trigRoundDown (by decide) (by decide)).mpr
    ⟨fun h => absurd h (by decide), fun h => absurd h (by decide),
      fun _ h => absurd (show isDown trigRoundDown by decide) h⟩

/-- When there is no period above the request, rounding up gives a period of 0. -/
theorem up_past_last :
    cascadeNsToTimer2div 100 ⟨0, 0, 0xffffffff⟩ trigRoundUp = ⟨0, 0, 0⟩ ∧
      ¬ Optimal 100 0xffffffff trigRoundUp
        (cascadeNsToTimer2div 100 ⟨0, 0, 0xffffffff⟩ trigRoundUp) := by
  have hup : isUp trigRoundUp := rfl
  have hchosen : chosen 100 0xffffffff trigRoundUp (search 100 0xffffffff) =
      (search 100 0xffffffff).lub := if_pos hup
  have hlub : (search 100 0xffffffff).lub = ⟨0xffffffff, 0, 0⟩ := by
    rcases @lub_exact 100 0xffffffff (by decide) (by decide) (by decide) with ⟨-, hlt⟩ | ⟨h, -⟩
    · have hle := BitVec.le_def.mp (search_sound 100 0xffffffff).le_lub
      exact absurd hlt (Nat.not_lt.mpr hle)
    · exact h
  rw [cascade_zero, hchosen, hlub]
  exact ⟨rfl, not_optimal_zero (by decide) _ _⟩

end Comedi.I8253Rounding
