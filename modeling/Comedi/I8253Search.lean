import Comedi.I8253

namespace Comedi.I8253Search

open I8253

variable {base nanosec divider div1 div2 w : U32} {b : Bounds}

/-- The bounds are bounds, and products of their divisors in the arithmetic of the code. -/
structure Sound (base nanosec : U32) (b : Bounds) : Prop where
  glb : base * b.glb.div1 * b.glb.div2 = b.glb.ns
  lub : b.lub.ns ≠ 0xffffffff → base * b.lub.div1 * b.lub.div2 = b.lub.ns
  glb_le : b.glb.ns ≤ nanosec
  le_lub : nanosec ≤ b.lub.ns

theorem Sound.init (base nanosec : U32) : Sound base nanosec {} where
  glb := BitVec.mul_zero
  lub h := absurd rfl h
  glb_le := Nat.zero_le _
  le_lub := Nat.le_of_lt_succ nanosec.isLt

theorem Sound.tryPair (h : Sound base nanosec b) (div1 div2 : U32) :
    Sound base nanosec (tryPair base nanosec div1 div2 b) := by
  constructor
  · unfold I8253.tryPair
    dsimp only
    split
    · rfl
    · exact h.glb
  · unfold I8253.tryPair
    dsimp only
    split
    · exact fun _ => rfl
    · exact h.lub
  · unfold I8253.tryPair
    dsimp only
    split
    · next hlow => exact hlow.1
    · exact h.glb_le
  · unfold I8253.tryPair
    dsimp only
    split
    · next hhigh => exact hhigh.1
    · exact h.le_lub

theorem Sound.searchDiv2 (h : Sound base nanosec b) (divider div1 div2 : U32) (fuel : Nat) :
    Sound base nanosec (searchDiv2 base nanosec divider div1 fuel div2 b) := by
  obtain ⟨d, hd⟩ := searchDiv2_rule divider div1 (P := fun _ b => Sound base nanosec b)
    (fun d b hb _ _ => hb.tryPair div1 d) fuel div2 h
  exact hd

theorem search_sound (base nanosec : U32) : Sound base nanosec (search base nanosec) := by
  obtain ⟨d, hd⟩ := searchDiv1_rule (nanosec / base) (P := fun _ b => Sound base nanosec b)
    (fun d b hb _ _ => hb.searchDiv2 _ d _ _) (maxCount.toNat + 1)
    (if nanosec / base / maxCount < 2 then 2 else nanosec / base / maxCount) (.init base nanosec)
  exact hd

theorem tryPair_glb_le (base nanosec : U32) (b : Bounds) (div1 div2 : U32) :
    b.glb.ns ≤ (tryPair base nanosec div1 div2 b).glb.ns := by
  unfold tryPair
  dsimp only
  split
  · next hlow => exact BitVec.le_of_lt hlow.2
  · exact BitVec.le_refl _

theorem tryPair_lub_le (base nanosec : U32) (b : Bounds) (div1 div2 : U32) :
    (tryPair base nanosec div1 div2 b).lub.ns ≤ b.lub.ns := by
  unfold tryPair
  dsimp only
  split
  · next hhigh => exact BitVec.le_of_lt hhigh.2
  · exact BitVec.le_refl _

/-- The bounds are as good as the period `w`. -/
structure Reached (nanosec w : U32) (b : Bounds) : Prop where
  glb : w ≤ nanosec → w ≤ b.glb.ns
  lub : nanosec ≤ w → b.lub.ns ≤ w

theorem Reached.tryPair (h : Reached nanosec w b) (base div1 div2 : U32) :
    Reached nanosec w (tryPair base nanosec div1 div2 b) :=
  ⟨fun hle => BitVec.le_trans (h.glb hle) (tryPair_glb_le base nanosec b div1 div2),
    fun hle => BitVec.le_trans (tryPair_lub_le base nanosec b div1 div2) (h.lub hle)⟩

theorem reached_pair (base nanosec : U32) (b : Bounds) (div1 div2 : U32) :
    Reached nanosec (base * div1 * div2) (tryPair base nanosec div1 div2 b) := by
  unfold tryPair
  constructor
  · intro hle
    dsimp only
    split
    · exact BitVec.le_refl _
    · next hlow => exact BitVec.not_lt.mp fun hlt => hlow ⟨hle, hlt⟩
  · intro hle
    dsimp only
    split
    · exact BitVec.le_refl _
    · next hhigh => exact BitVec.not_lt.mp fun hlt => hhigh ⟨hle, hlt⟩

theorem Reached.searchDiv2 (h : Reached nanosec w b) (base divider div1 div2 : U32) (fuel : Nat) :
    Reached nanosec w (searchDiv2 base nanosec divider div1 fuel div2 b) := by
  obtain ⟨d, hd⟩ := searchDiv2_rule divider div1 (P := fun _ b => Reached nanosec w b)
    (fun d b hb _ _ => hb.tryPair base div1 d) fuel div2 h
  exact hd

theorem Reached.searchDiv1 (h : Reached nanosec w b) (base divider div1 : U32) (fuel : Nat) :
    Reached nanosec w (searchDiv1 base nanosec divider fuel div1 b) := by
  obtain ⟨d, hd⟩ := searchDiv1_rule divider (P := fun _ b => Reached nanosec w b)
    (fun d b hb _ _ => hb.searchDiv2 base divider d _ _) fuel div1 h
  exact hd

section Numbers

variable (hd : divider.toNat < 2 ^ 32 - 65536)
include hd

/-- The condition of the outer loop, in numbers. -/
theorem outer_iff :
    div1 ≤ divider / div1 + 1 ↔ div1.toNat ≤ divider.toNat / div1.toNat + 1 := by
  have hq : divider.toNat / div1.toNat ≤ divider.toNat := Nat.div_le_self _ _
  rw [BitVec.le_def, BitVec.toNat_add, BitVec.toNat_udiv]
  change _ ≤ (_ + 1) % 2 ^ 32 ↔ _
  rw [Nat.mod_eq_of_lt (by omega)]

/-- The condition of the inner loop, in numbers, for the pairs that it can meet. -/
theorem inner_iff (h1 : div1.toNat < 65536) (h2 : div2.toNat ≤ 65536) :
    div1 * div2 ≤ divider + div1 + 1 ↔
      div1.toNat * div2.toNat ≤ divider.toNat + div1.toNat + 1 := by
  have hmul : div1.toNat * div2.toNat ≤ 65535 * 65536 :=
    Nat.mul_le_mul (Nat.le_of_lt_succ h1) h2
  rw [BitVec.le_def, BitVec.toNat_mul, BitVec.toNat_add, BitVec.toNat_add]
  change _ ≤ ((_ + _) % 2 ^ 32 + 1) % 2 ^ 32 ↔ _
  rw [Nat.mod_eq_of_lt (by omega), Nat.mod_eq_of_lt (a := divider.toNat + div1.toNat) (by omega),
    Nat.mod_eq_of_lt (by omega)]

/-- In the outer loop `div1` stays below `max_count`. -/
theorem outer_lt (h : div1.toNat ≤ divider.toNat / div1.toNat + 1) (hle : div1.toNat ≤ 65536) :
    div1.toNat < 65536 := by
  rcases Nat.lt_or_eq_of_le hle with hlt | heq
  · exact hlt
  · rw [heq] at h
    omega

/-- The inner loop comes to every `div2` in its band. -/
theorem searchDiv2_reached (h1 : div1.toNat < 65536) {m : U32} (hm : m.toNat ≤ 65536)
    (hband : div1.toNat * m.toNat ≤ divider.toNat + div1.toNat + 1) {fuel : Nat}
    (hle : div2.toNat ≤ m.toNat) (hfuel : m.toNat < div2.toNat + fuel) :
    Reached nanosec (base * div1 * m) (searchDiv2 base nanosec divider div1 fuel div2 b) := by
  induction fuel generalizing div2 b with
  | zero => exact absurd hfuel (Nat.not_lt.mpr hle)
  | succ fuel ih =>
    have hmax : div2 ≤ maxCount := Nat.le_trans hle hm
    have hgo : div1 * div2 ≤ divider + div1 + 1 :=
      (inner_iff hd h1 hmax).mpr (Nat.le_trans (Nat.mul_le_mul_left _ hle) hband)
    rw [searchDiv2_succ, if_pos ⟨hgo, hmax⟩]
    rcases Nat.lt_or_eq_of_le hle with hlt | heq
    · have hnext := next_toNat hmax
      exact ih (by omega) (by omega)
    · rw [← BitVec.eq_of_toNat_eq heq]
      exact (reached_pair _ _ _ _ _).searchDiv2 _ _ _ _ _

/-- The outer loop comes to every `div1` up to the root. -/
theorem searchDiv1_reached {n m : U32} (hroot : n.toNat ≤ divider.toNat / n.toNat + 1)
    (hn : n.toNat ≤ 65536) (hm : m.toNat ≤ 65536) (hfirst : divider.toNat / n.toNat ≤ m.toNat)
    (hband : n.toNat * m.toNat ≤ divider.toNat + n.toNat + 1) {fuel : Nat} (h2 : 0 < div1.toNat)
    (hle : div1.toNat ≤ n.toNat) (hfuel : n.toNat < div1.toNat + fuel) :
    Reached nanosec (base * n * m) (searchDiv1 base nanosec divider fuel div1 b) := by
  induction fuel generalizing div1 b with
  | zero => exact absurd hfuel (Nat.not_lt.mpr hle)
  | succ fuel ih =>
    have hmax : div1 ≤ maxCount := Nat.le_trans hle hn
    have hquot : divider.toNat / n.toNat ≤ divider.toNat / div1.toNat := Nat.div_le_div_left hle h2
    have hgo : div1 ≤ divider / div1 + 1 := (outer_iff hd).mpr (by omega)
    rw [searchDiv1_succ, if_pos ⟨hgo, hmax⟩]
    rcases Nat.lt_or_eq_of_le hle with hlt | heq
    · have hnext := next_toNat hmax
      exact ih (by omega) (by omega) (by omega)
    · rw [BitVec.eq_of_toNat_eq heq]
      refine Reached.searchDiv1 (searchDiv2_reached hd (outer_lt hd hroot hn) hm hband ?_ ?_) _ _ _ _
      · rw [BitVec.toNat_udiv]
        exact hfirst
      · change _ < _ + 65537
        omega

end Numbers

/-- The search comes to every pair in its band. -/
theorem search_reached {n m : U32} (hd : nanosec.toNat / base.toNat < 2 ^ 32 - 65536)
    (h2 : 2 ≤ n.toNat) (hstart : nanosec.toNat / base.toNat / 65536 ≤ n.toNat)
    (hroot : n.toNat ≤ nanosec.toNat / base.toNat / n.toNat + 1) (hn : n.toNat ≤ 65536)
    (hm : m.toNat ≤ 65536) (hfirst : nanosec.toNat / base.toNat / n.toNat ≤ m.toNat)
    (hband : n.toNat * m.toNat ≤ nanosec.toNat / base.toNat + n.toNat + 1) :
    Reached nanosec (base * n * m) (search base nanosec) := by
  have hdiv : (nanosec / base).toNat = nanosec.toNat / base.toNat := BitVec.toNat_udiv
  rw [← hdiv] at hd hstart hroot hfirst hband
  unfold search
  dsimp only
  split
  · exact searchDiv1_reached hd hroot hn hm hfirst hband Nat.two_pos h2
      (by change n.toNat < 2 + 65537; omega)
  · next hge =>
    rw [BitVec.lt_def, Nat.not_lt, BitVec.toNat_udiv] at hge
    have hs : (nanosec / base / maxCount).toNat = (nanosec / base).toNat / 65536 :=
      BitVec.toNat_udiv
    have hge : 2 ≤ (nanosec / base).toNat / 65536 := hge
    exact searchDiv1_reached hd hroot hn hm hfirst hband (by omega) (by omega)
      (by change n.toNat < _ + 65537; omega)

theorem ns_toNat (base div1 div2 : U32) :
    (base * div1 * div2).toNat = base.toNat * div1.toNat * div2.toNat % 2 ^ 32 := by
  rw [BitVec.toNat_mul, BitVec.toNat_mul, Nat.mod_mul_mod]

section Overflow

variable {c period n m low : Nat}

/-- A product that overflows is past the period by less than `c * (n + 1)`. -/
theorem product_le (hm : n * m ≤ period / c + n + 1) : c * n * m ≤ period + c * (n + 1) := by
  have h₁ : c * (n * m) ≤ c * (period / c + (n + 1)) := Nat.mul_le_mul_left c hm
  have h₂ : c * (period / c) ≤ period := Nat.mul_div_le period c
  rw [Nat.mul_add] at h₁
  rw [Nat.mul_assoc]
  omega

theorem root_le (hroot : n ≤ period / c / n + 1) : n * (n - 1) ≤ period / c :=
  Nat.le_trans (Nat.mul_le_mul_left n (Nat.sub_le_of_le_add hroot)) (Nat.mul_div_le _ _)

theorem succ_le_of_root (h4 : 4 ≤ period / c) (hroot : n * (n - 1) ≤ period / c) :
    n + 1 ≤ period / c := by
  by_contra hlt
  have h3 : 3 ≤ n := by omega
  have : n * 2 ≤ n * (n - 1) := Nat.mul_le_mul_left n (by omega)
  omega

theorem slack_lt (hcase : 4 ≤ period / c ∨ c ≤ 65534) (hperiod : period < 2 ^ 32) (hn : n ≤ 65536)
    (hroot : n ≤ period / c / n + 1) : c * (n + 1) < 2 ^ 32 := by
  rcases hcase with h4 | hc
  · have h₁ := Nat.mul_le_mul_left c (succ_le_of_root h4 (root_le hroot))
    have h₂ := Nat.mul_div_le period c
    omega
  · have : c * (n + 1) ≤ 65534 * 65537 := Nat.mul_le_mul hc (by omega)
    omega

/-- It is not taken for the lower bound, because the first pair has set that high enough. -/
theorem no_overflow_of_low (hcase : 4 ≤ period / c ∨ c ≤ 65534) (hperiod : period < 2 ^ 32)
    (hn2 : 2 ≤ n) (hn : n ≤ 65536) (hroot : n ≤ period / c / n + 1)
    (hm : n * m ≤ period / c + n + 1) (hfirst : period / c / n ≤ m)
    (hlow : period / c / n < m → c * n * (period / c / n) ≤ low)
    (hlt : low < c * n * m % 2 ^ 32) : c * n * m < 2 ^ 32 := by
  by_contra hge
  have hle := product_le hm
  have hslack := slack_lt hcase hperiod hn hroot
  have hmod : c * n * m % 2 ^ 32 < c * (n + 1) := by omega
  have hquot : n * (period / c / n) ≤ period / c := Nat.mul_div_le _ _
  have hnext : period / c < n * (period / c / n) + n := by
    have := Nat.div_add_mod (period / c) n
    have := Nat.mod_lt (period / c) (show 0 < n by omega)
    omega
  have hfits : c * n * (period / c / n) ≤ period := by
    rw [Nat.mul_assoc]
    exact Nat.le_trans (Nat.mul_le_mul_left c hquot) (Nat.mul_div_le period c)
  have hmore : period / c / n < m := by
    rcases Nat.lt_or_eq_of_le hfirst with hlt | heq
    · exact hlt
    · rw [heq] at hfits
      omega
  have hprod : c * (n * (period / c / n)) < c * (n + 1) := by
    have := hlow hmore
    rw [Nat.mul_assoc] at this
    omega
  have hsmall : n * (period / c / n) < n + 1 := Nat.lt_of_mul_lt_mul_left hprod
  have hroot' : n * (n - 1) ≤ n * (period / c / n) := Nat.mul_le_mul_left n (by omega)
  have hn3 : n ≤ 2 := by
    by_contra h3
    have : n * 2 ≤ n * (n - 1) := Nat.mul_le_mul_left n (by omega)
    omega
  rcases hcase with h4 | hc
  · omega
  · have hbig : c * n * m ≤ 65534 * 7 := by
      rw [Nat.mul_assoc]
      exact Nat.mul_le_mul hc (by omega)
    omega

/-- And it is below the period, so that it is not taken for the upper bound. -/
theorem no_overflow_of_high (hcase : 4 ≤ period / c ∨ c ≤ 65534) (hperiod : period < 2 ^ 32)
    (hn : n ≤ 65536) (hroot : n ≤ period / c / n + 1) (hm : n * m ≤ period / c + n + 1)
    (hle : period ≤ c * n * m % 2 ^ 32) : c * n * m < 2 ^ 32 := by
  by_contra hge
  have := product_le hm
  have := slack_lt hcase hperiod hn hroot
  omega

end Overflow

/-- What the search finds for the period is a product of divisors, without an overflow. -/
structure Exact (base nanosec : U32) (f : Found) : Prop where
  two_le : 2 ≤ f.div1.toNat
  div1_le : f.div1.toNat ≤ 65536
  div2_le : f.div2.toNat ≤ 65536
  root : f.div1.toNat ≤ nanosec.toNat / base.toNat / f.div1.toNat + 1
  first : nanosec.toNat / base.toNat / f.div1.toNat ≤ f.div2.toNat
  product : base.toNat * f.div1.toNat * f.div2.toNat = f.ns.toNat

structure ExactBounds (base nanosec : U32) (b : Bounds) : Prop where
  glb : Exact base nanosec b.glb ∨ b.glb = ⟨0, 0, 0⟩
  lub : Exact base nanosec b.lub ∧ b.lub.ns ≠ 0xffffffff ∨ b.lub = ⟨0xffffffff, 0, 0⟩

/-- Within the inner loop: after its first pair the lower bound is not below that pair. -/
structure Inner (base nanosec div1 : U32) (d : U32) (b : Bounds) : Prop where
  exact : ExactBounds base nanosec b
  first : nanosec.toNat / base.toNat / div1.toNat ≤ d.toNat
  low : nanosec.toNat / base.toNat / div1.toNat < d.toNat →
    base.toNat * div1.toNat * (nanosec.toNat / base.toNat / div1.toNat) ≤ b.glb.ns.toNat

section NoOverflow

variable (hcase : 4 ≤ nanosec.toNat / base.toNat ∨ base.toNat ≤ 65534)
  (hd : nanosec.toNat / base.toNat < 2 ^ 32 - 65536)
include hcase hd

theorem Inner.step (h2 : 2 ≤ div1.toNat) (hlt : div1.toNat < 65536)
    (hroot : div1.toNat ≤ nanosec.toNat / base.toNat / div1.toNat + 1) {d : U32}
    (h : Inner base nanosec div1 d b) (hpair : div1 * d ≤ nanosec / base + div1 + 1)
    (hmax : d ≤ maxCount) :
    Inner base nanosec div1 (d + 1) (tryPair base nanosec div1 d b) := by
  have hdiv : (nanosec / base).toNat = nanosec.toNat / base.toNat := BitVec.toNat_udiv
  have hle : d.toNat ≤ 65536 := hmax
  have hpair : div1.toNat * d.toNat ≤ nanosec.toNat / base.toNat + div1.toNat + 1 :=
    hdiv ▸ (inner_iff (hdiv ▸ hd) hlt hle).mp hpair
  have hfirst := h.first
  have hns := ns_toNat base div1 d
  have hnext := next_toNat hmax
  have hexact (hno : base.toNat * div1.toNat * d.toNat < 2 ^ 32) :
      Exact base nanosec ⟨base * div1 * d, div1, d⟩ :=
    ⟨h2, Nat.le_of_lt hlt, hle, hroot, hfirst, (hns.trans (Nat.mod_eq_of_lt hno)).symm⟩
  refine ⟨⟨?_, ?_⟩, by omega, fun _ => ?_⟩
  · unfold tryPair
    dsimp only
    split
    · next hlow =>
      refine .inl (hexact (no_overflow_of_low hcase nanosec.isLt h2 (Nat.le_of_lt hlt) hroot hpair
        hfirst h.low ?_))
      rw [← hns]
      exact hlow.2
    · exact h.exact.glb
  · unfold tryPair
    dsimp only
    split
    · next hhigh =>
      refine .inl ⟨hexact (no_overflow_of_high hcase nanosec.isLt (Nat.le_of_lt hlt) hroot hpair
        ?_), fun hmax => ?_⟩
      · rw [← hns]
        exact hhigh.1
      · have hbelow := hhigh.2
        rw [show base * div1 * d = 0xffffffff from hmax, BitVec.lt_def] at hbelow
        exact absurd b.lub.ns.isLt (Nat.not_lt.mpr hbelow)
    · exact h.exact.lub
  · have hmono : b.glb.ns.toNat ≤ (tryPair base nanosec div1 d b).glb.ns.toNat :=
      tryPair_glb_le base nanosec b div1 d
    rcases Nat.lt_or_eq_of_le hfirst with hmore | heq
    · exact Nat.le_trans (h.low hmore) hmono
    · have hfits : base.toNat * div1.toNat * d.toNat ≤ nanosec.toNat := by
        rw [← heq, Nat.mul_assoc]
        exact Nat.le_trans (Nat.mul_le_mul_left _ (Nat.mul_div_le _ _)) (Nat.mul_div_le _ _)
      have hnsEq : (base * div1 * d).toNat = base.toNat * div1.toNat * d.toNat :=
        hns.trans (Nat.mod_eq_of_lt (Nat.lt_of_le_of_lt hfits nanosec.isLt))
      rw [heq, ← hnsEq]
      exact (reached_pair base nanosec b div1 d).glb (by rw [BitVec.le_def, hnsEq]; exact hfits)

theorem search_exact : ExactBounds base nanosec (search base nanosec) := by
  have hdiv : (nanosec / base).toNat = nanosec.toNat / base.toNat := BitVec.toNat_udiv
  have hstep (d : U32) (b : Bounds) (h : ExactBounds base nanosec b ∧ 2 ≤ d.toNat)
      (hroot : d ≤ nanosec / base / d + 1) (hmax : d ≤ maxCount) :
      ExactBounds base nanosec (searchDiv2 base nanosec (nanosec / base) d (maxCount.toNat + 1)
        (nanosec / base / d) b) ∧ 2 ≤ (d + 1).toNat := by
    have hroot := (outer_iff (hdiv ▸ hd)).mp hroot
    have hlt := outer_lt (hdiv ▸ hd) hroot hmax
    rw [hdiv] at hroot
    have hquot : (nanosec / base / d).toNat = nanosec.toNat / base.toNat / d.toNat := by
      rw [BitVec.toNat_udiv, hdiv]
    have hinner : Inner base nanosec d (nanosec / base / d) b :=
      ⟨h.1, Nat.le_of_eq hquot.symm, fun hmore => absurd hmore (by omega)⟩
    obtain ⟨d', hd'⟩ := searchDiv2_rule (nanosec / base) d (P := Inner base nanosec d)
      (fun _ _ hi hpair hle => hi.step hcase hd h.2 hlt hroot hpair hle) (maxCount.toNat + 1) _
      hinner
    have hnext := next_toNat hmax
    exact ⟨hd'.exact, by omega⟩
  have hstart :
      2 ≤ (if nanosec / base / maxCount < 2 then 2 else nanosec / base / maxCount).toNat := by
    split
    · exact Nat.le_refl 2
    · next hge =>
      rw [BitVec.lt_def, Nat.not_lt] at hge
      exact hge
  have hinit : ExactBounds base nanosec {} := ⟨.inr rfl, .inr rfl⟩
  obtain ⟨d, h⟩ := searchDiv1_rule _ (P := fun d b => ExactBounds base nanosec b ∧ 2 ≤ d.toNat)
    hstep (maxCount.toNat + 1) _ ⟨hinit, hstart⟩
  exact h.1

end NoOverflow

end Comedi.I8253Search
