import Comedi.ComediTest

namespace Comedi.ComediTestArgs

open ComediTest Retests

/-- The two periods of a command and the length of its channel list, as numbers. -/
structure Args where
  scanBegin : Nat
  convert : Nat
  len : Nat

/-- What `nearestMicro` makes of a number. From 2^31 - 500 on the sum is a negative `int`, and the
quotient of that is rounded towards zero. -/
def nearest (x : Nat) : Nat :=
  if x < 2147483148 then (x + 500) / 1000 * 1000
  else (2 ^ 32 - (2 ^ 32 - x - 500) / 1000 * 1000) % 2 ^ 32

/-- The least scan period that step 3 lets pass: the product has 32 bits. -/
def least (convert len : Nat) : Nat := max 1000 (convert * len % 2 ^ 32)

/-- Steps 3 and 4 for a command of which only the two periods can be wrong. -/
def amend (a : Args) : Int × Args :=
  if a.scanBegin < least a.convert a.len then
    (3, { a with scanBegin := least a.convert a.len })
  else if nearest a.scanBegin = a.scanBegin ∧ nearest a.convert = a.convert then (0, a)
  else (4, { a with scanBegin := nearest a.scanBegin, convert := nearest a.convert })

/-- The conversions of a scan fit into it. -/
def Args.Fits (a : Args) : Prop := a.convert * a.len ≤ a.scanBegin

/-- Rounding does not leave the positive numbers of an `int`. -/
def Ordinary (x : Nat) : Prop := x < 2147483148

/-- As an `int` the number is negative, and `n` times rounding it gives zero. -/
def NearTop (n x : Nat) : Prop := 0 < n ∧ 2 ^ 32 ≤ x + (1000 * n + 499)

/-- Rounding it `n` times gives zero, and not before. -/
def ZeroAfter (n x : Nat) : Prop := NearTop n x ∧ ¬ NearTop (n - 1) x

/-- The least scan period for a conversion period of -1000 times `n`. -/
def leastNegative (n len : Nat) : Nat := least (2 ^ 32 - 1000 * n) len

variable {x b c len n : Nat}

theorem nearestMicro_toNat (tmp : U32) : (nearestMicro tmp).toNat = nearest tmp.toNat := by
  have htmp := tmp.isLt
  have hsum : (tmp + nanoPerMicro.sdiv 2).toNat = (tmp.toNat + 500) % 2 ^ 32 := by
    rw [BitVec.toNat_add]
    rfl
  have hmicro : nanoPerMicro.msb = false := by decide
  unfold nearestMicro nearest
  rw [BitVec.sdiv_eq, hmicro]
  cases hmsb : (tmp + nanoPerMicro.sdiv 2).msb with
  | false =>
    rw [BitVec.msb_eq_decide, decide_eq_false_iff_not, hsum] at hmsb
    dsimp only
    rw [BitVec.toNat_mul, BitVec.udiv_eq, BitVec.toNat_udiv, hsum]
    simp only [show nanoPerMicro.toNat = 1000 from rfl]
    split <;> omega
  | true =>
    rw [BitVec.msb_eq_decide, decide_eq_true_eq, hsum] at hmsb
    dsimp only
    rw [BitVec.toNat_mul, BitVec.toNat_neg, BitVec.udiv_eq, BitVec.toNat_udiv, BitVec.toNat_neg,
      hsum]
    simp only [show nanoPerMicro.toNat = 1000 from rfl]
    split <;> omega

theorem nearest_lt (hx : x < 2 ^ 32) : nearest x < 2 ^ 32 := by unfold nearest; split <;> omega

theorem nearest_of_ordinary (h : Ordinary x) : nearest x = (x + 500) / 1000 * 1000 := if_pos h

theorem nearest_of_nearTop (hx : x < 2 ^ 32) (h : NearTop 1 x) : nearest x = 0 := by
  unfold NearTop at h
  unfold nearest
  split <;> omega

theorem nearest_of_zeroAfter (hx : x < 2 ^ 32) (hn : n ≤ 1) (h : ZeroAfter (n + 2) x) :
    nearest x = 2 ^ 32 - 1000 * (n + 1) := by
  unfold ZeroAfter NearTop at h
  unfold nearest
  split
  · omega
  · have hq : (2 ^ 32 - x - 500) / 1000 = n + 1 := by omega
    omega

theorem not_ordinary_negative : ¬ Ordinary (2 ^ 32 - 1000) := by unfold Ordinary; omega

theorem nearest_negative : nearest (2 ^ 32 - 1000) = 0 :=
  nearest_of_nearTop (by omega) ⟨by omega, by omega⟩

theorem nearest_eq_self_iff (hx : x < 2 ^ 32) : nearest x = x ↔ Ordinary x ∧ 1000 ∣ x := by
  unfold nearest Ordinary
  split <;> omega

/-- Rounding once takes the numbers that it ever makes ordinary one rounding nearer. -/
theorem nearest_settles_iff (hx : x < 2 ^ 32) (n : Nat) :
    Ordinary (nearest x) ∨ NearTop n (nearest x) ↔ Ordinary x ∨ NearTop (n + 1) x := by
  unfold nearest Ordinary NearTop
  split
  · omega
  · by_cases hzero : (2 ^ 32 - x - 500) / 1000 = 0
    · rw [hzero]
      omega
    · rw [Nat.mod_eq_of_lt (by omega)]
      omega

theorem ordinary_nearest_iff (hx : x < 2 ^ 32) :
    Ordinary (nearest x) ↔ Ordinary x ∨ NearTop 1 x := by
  rw [← nearest_settles_iff hx 0]
  exact ⟨.inl, fun h => h.resolve_right fun hnear => absurd hnear.1 (by omega)⟩

theorem NearTop.succ (h : NearTop n x) : NearTop (n + 1) x := by
  unfold NearTop at h ⊢
  omega

theorem nearest_nearest_iff (hx : x < 2 ^ 32) :
    nearest (nearest x) = nearest x ↔ Ordinary x ∨ NearTop 1 x := by
  rw [nearest_eq_self_iff (nearest_lt hx)]
  unfold nearest Ordinary NearTop
  split <;> omega

theorem least_lt (c len : Nat) : least c len < 2 ^ 32 := by unfold least; omega

theorem least_of_lt (h : c * len < 2 ^ 32) : least c len = max 1000 (c * len) := by
  rw [least, Nat.mod_eq_of_lt h]

theorem amend_of_lt (h : b < least c len) : amend ⟨b, c, len⟩ = (3, ⟨least c len, c, len⟩) :=
  if_pos h

theorem amend_of_rounded (h : least c len ≤ b) (hround : nearest b = b ∧ nearest c = c) :
    amend ⟨b, c, len⟩ = (0, ⟨b, c, len⟩) := by
  unfold amend
  rw [if_neg (Nat.not_lt.mpr h), if_pos hround]

theorem amend_of_unrounded (h : least c len ≤ b) (hround : ¬ (nearest b = b ∧ nearest c = c)) :
    amend ⟨b, c, len⟩ = (4, ⟨nearest b, nearest c, len⟩) := by
  unfold amend
  rw [if_neg (Nat.not_lt.mpr h), if_neg hround]

theorem amend_stable : Stable amend := by
  intro ⟨b, c, len⟩ hret
  by_cases h : b < least c len
  · rw [amend_of_lt h] at hret
    cases hret
  by_cases hround : nearest b = b ∧ nearest c = c
  · rw [amend_of_rounded (Nat.not_lt.mp h) hround]
  · rw [amend_of_unrounded (Nat.not_lt.mp h) hround] at hret
    cases hret

theorem settles_raised (h : b < least c len) : Settles amend Args.Fits (n + 1) ⟨b, c, len⟩ ↔
    Settles amend Args.Fits n ⟨least c len, c, len⟩ := by
  rw [settles_of_amended (by rw [amend_of_lt h]; nofun), amend_of_lt h]

/-- A command that is rounded already is accepted now as well as at the next test. -/
theorem settles_rounded (h : least c len ≤ b) : Settles amend Args.Fits (n + 2) ⟨b, c, len⟩ ↔
    Settles amend Args.Fits (n + 1) ⟨nearest b, nearest c, len⟩ := by
  by_cases hround : nearest b = b ∧ nearest c = c
  · have hret : (amend ⟨b, c, len⟩).1 = 0 := by rw [amend_of_rounded h hround]
    rw [hround.1, hround.2, settles_of_accepted amend_stable hret,
      settles_of_accepted amend_stable hret]
  · rw [settles_of_amended (by rw [amend_of_unrounded h hround]; nofun),
      amend_of_unrounded h hround]

theorem settles_one (hb : b < 2 ^ 32) : Settles amend Args.Fits 1 ⟨b, c, len⟩ ↔
    1000 ≤ b ∧ nearest b = b ∧ nearest c = c ∧ c * len ≤ b := by
  by_cases h : b < least c len
  · rw [settles_raised h]
    refine iff_of_false (not_settles_zero _) fun ⟨hlow, _, _, hfits⟩ => ?_
    rw [least_of_lt (by omega)] at h
    omega
  have hle := Nat.not_lt.mp h
  by_cases hround : nearest b = b ∧ nearest c = c
  · rw [settles_of_accepted amend_stable (by rw [amend_of_rounded hle hround])]
    exact ⟨fun hfits => ⟨(Nat.le_max_left ..).trans hle, hround.1, hround.2, hfits⟩,
      fun h => h.2.2.2⟩
  · rw [settles_of_amended (by rw [amend_of_unrounded hle hround]; nofun)]
    exact iff_of_false (not_settles_zero _) fun h => hround ⟨h.2.1, h.2.2.1⟩

/-- With a conversion period that is rounded, the scan period is what still has to settle. -/
theorem settles_of_settled (hc32 : c < 2 ^ 32) (hc : nearest c = c) (hb : b < 2 ^ 32) (n : Nat) :
    Settles amend Args.Fits (n + 2) ⟨b, c, len⟩ ↔
      c * len < 2 ^ 31 ∧ (Ordinary b ∨ NearTop n b) := by
  have hmultiple : 1000 ∣ c * len :=
    Dvd.dvd.mul_right ((nearest_eq_self_iff hc32).mp hc).2 len
  have hraised : c * len < 2 ^ 31 → Ordinary (least c len) := by
    intro h
    rw [least_of_lt (by omega)]
    unfold Ordinary
    omega
  induction n generalizing b with
  | zero =>
    by_cases h : b < least c len
    · rw [settles_raised h, settles_one (least_lt c len), nearest_eq_self_iff (least_lt c len)]
      constructor
      · rintro ⟨-, ⟨hord, -⟩, -, hfits⟩
        unfold Ordinary at hord ⊢
        omega
      · rintro ⟨hfits, -⟩
        have hord := hraised hfits
        rw [least_of_lt (by omega)] at hord ⊢
        exact ⟨Nat.le_max_left .., ⟨hord, by omega⟩, hc, Nat.le_max_right ..⟩
    · rw [settles_rounded (Nat.not_lt.mp h), hc, settles_one (nearest_lt hb),
        nearest_nearest_iff hb]
      constructor
      · rintro ⟨hlow, hord | hnear, -, hfits⟩
        · rw [nearest_of_ordinary hord] at hfits
          unfold Ordinary at hord ⊢
          omega
        · rw [nearest_of_nearTop hb hnear] at hlow
          omega
      · rintro ⟨hfits, hord | hnear⟩
        · rw [least_of_lt (by omega)] at h
          rw [nearest_of_ordinary hord]
          exact ⟨by omega, .inl hord, hc, by omega⟩
        · exact absurd hnear.1 (by omega)
  | succ n ih =>
    by_cases h : b < least c len
    · rw [settles_raised h]
      refine (ih (least_lt c len)).trans ?_
      refine and_congr_right fun hfits => iff_of_true (.inl (hraised hfits)) (.inl ?_)
      have hord := hraised hfits
      unfold Ordinary at hord ⊢
      omega
    · rw [settles_rounded (Nat.not_lt.mp h), hc]
      refine (ih (nearest_lt hb)).trans ?_
      rw [nearest_settles_iff hb]

theorem settles_of_settling (hc32 : c < 2 ^ 32) (hc : Ordinary c ∨ NearTop 1 c)
    (hb : b < 2 ^ 32) (h : least c len ≤ b) (n : Nat) :
    Settles amend Args.Fits (n + 3) ⟨b, c, len⟩ ↔
      nearest c * len < 2 ^ 31 ∧ (Ordinary b ∨ NearTop (n + 1) b) := by
  rw [settles_rounded h]
  refine (settles_of_settled (nearest_lt hc32) ((nearest_nearest_iff hc32).mpr hc)
    (nearest_lt hb) n).trans ?_
  rw [nearest_settles_iff hb]

/-- The conversion period settles in the time that the command does. -/
theorem convert_settles (hb : b < 2 ^ 32) (hc : c < 2 ^ 32)
    (h : Settles amend Args.Fits (n + 1) ⟨b, c, len⟩) : Ordinary c ∨ NearTop n c := by
  induction n generalizing b c with
  | zero =>
    rw [settles_one hb, nearest_eq_self_iff hc] at h
    exact .inl h.2.2.1.1
  | succ n ih =>
    by_cases hlt : b < least c len
    · rcases ih (least_lt c len) hc ((settles_raised hlt).mp h) with hord | hnear
      · exact .inl hord
      · exact .inr hnear.succ
    · exact (nearest_settles_iff hc n).mp
        (ih (nearest_lt hb) (nearest_lt hc) ((settles_rounded (Nat.not_lt.mp hlt)).mp h))

theorem settles_two_negative (hb : b < 2 ^ 32) :
    Settles amend Args.Fits 2 ⟨b, 2 ^ 32 - 1000, len⟩ ↔ leastNegative 1 len ≤ b ∧ Ordinary b := by
  by_cases h : b < leastNegative 1 len
  · rw [settles_raised h]
    refine iff_of_false (fun hone => ?_) (fun hle => by omega)
    rcases convert_settles (least_lt _ len) (by omega) hone with hord | hnear
    · exact not_ordinary_negative hord
    · exact absurd hnear.1 (by omega)
  have hle := Nat.not_lt.mp h
  have hlow : 1000 ≤ b := (Nat.le_max_left ..).trans hle
  rw [settles_rounded hle, settles_one (nearest_lt hb), nearest_nearest_iff hb, nearest_negative]
  constructor
  · rintro ⟨hpos, hord | hnear, -, -⟩
    · exact ⟨hle, hord⟩
    · rw [nearest_of_nearTop hb hnear] at hpos
      omega
  · rintro ⟨-, hord⟩
    rw [nearest_of_ordinary hord]
    exact ⟨by omega, .inl hord, rfl, by omega⟩

theorem settles_three_negative (hb : b < 2 ^ 32) :
    Settles amend Args.Fits 3 ⟨b, 2 ^ 32 - 1000, len⟩ ↔
      b < leastNegative 1 len ∧ Ordinary (leastNegative 1 len) ∨
        leastNegative 1 len ≤ b ∧ (Ordinary b ∨ NearTop 1 b) := by
  by_cases h : b < leastNegative 1 len
  · rw [settles_raised h]
    refine (settles_two_negative (least_lt _ len)).trans ?_
    constructor
    · exact fun hsettles => .inl ⟨h, hsettles.2⟩
    · rintro (⟨-, hord⟩ | ⟨hle, -⟩)
      · exact ⟨Nat.le_refl _, hord⟩
      · omega
  · have hle := Nat.not_lt.mp h
    have hnear : NearTop 1 (2 ^ 32 - 1000) := ⟨by omega, by omega⟩
    rw [settles_of_settling (by omega) (.inr hnear) hb hle 0, nearest_negative, Nat.zero_mul]
    constructor
    · exact fun hsettles => .inr ⟨hle, hsettles.2⟩
    · rintro (⟨hlt, -⟩ | ⟨-, hsettles⟩)
      · omega
      · exact ⟨by omega, hsettles⟩

theorem not_settling (hn : n ≤ 3) (h : ZeroAfter (n + 1) c) : ¬ (Ordinary c ∨ NearTop n c) := by
  unfold ZeroAfter at h
  unfold Ordinary
  unfold NearTop at h ⊢
  omega

/-- Three tests are enough for a command that step 3 leaves alone. -/
theorem settles_three (hb : b < 2 ^ 32) (hc : c < 2 ^ 32) (h : least c len ≤ b) :
    Settles amend Args.Fits 3 ⟨b, c, len⟩ ↔
      (Ordinary c ∨ NearTop 1 c) ∧ nearest c * len < 2 ^ 31 ∧ (Ordinary b ∨ NearTop 1 b) ∨
        ZeroAfter 2 c ∧ Ordinary b ∧ leastNegative 1 len ≤ nearest b := by
  have htwo : ZeroAfter 2 c → (Settles amend Args.Fits 3 ⟨b, c, len⟩ ↔
      Ordinary b ∧ leastNegative 1 len ≤ nearest b) := by
    intro hzero
    rw [settles_rounded h, nearest_of_zeroAfter (n := 0) hc (by omega) hzero]
    refine (settles_two_negative (nearest_lt hb)).trans ?_
    constructor
    · rintro ⟨hle, hord⟩
      have hlow : 1000 ≤ nearest b := (Nat.le_max_left ..).trans hle
      rcases (ordinary_nearest_iff hb).mp hord with hord | hnear
      · exact ⟨hord, hle⟩
      · rw [nearest_of_nearTop hb hnear] at hlow
        omega
    · exact fun ⟨hord, hle⟩ => ⟨hle, (ordinary_nearest_iff hb).mpr (.inl hord)⟩
  constructor
  · intro hsettles
    have hconvert := convert_settles hb hc hsettles
    by_cases hone : Ordinary c ∨ NearTop 1 c
    · exact .inl ⟨hone, (settles_of_settling hc hone hb h 0).mp hsettles⟩
    · have hzero : ZeroAfter 2 c := by
        rcases hconvert with hord | hnear
        · exact absurd (.inl hord) hone
        · exact ⟨hnear, fun hnear => hone (.inr hnear)⟩
      exact .inr ⟨hzero, (htwo hzero).mp hsettles⟩
  · rintro (⟨hone, hfits, hsettles⟩ | ⟨hzero, hsettles⟩)
    · exact (settles_of_settling hc hone hb h 0).mpr ⟨hfits, hsettles⟩
    · exact (htwo hzero).mpr hsettles

theorem settles_four_two (hb : b < 2 ^ 32) (hc : c < 2 ^ 32) (h : least c len ≤ b)
    (hzero : ZeroAfter 2 c) : Settles amend Args.Fits 4 ⟨b, c, len⟩ ↔
      (Ordinary b ∨ NearTop 1 b) ∧ Ordinary (leastNegative 1 len) ∨
        ZeroAfter 2 b ∧ leastNegative 1 len ≤ 2 ^ 32 - 1000 := by
  rw [settles_rounded h, nearest_of_zeroAfter (n := 0) hc (by omega) hzero]
  refine (settles_three_negative (nearest_lt hb)).trans ?_
  rw [nearest_settles_iff hb]
  constructor
  · rintro (⟨hlt, hord⟩ | ⟨hle, hsettles⟩)
    · exact .inl ⟨(ordinary_nearest_iff hb).mp (Nat.lt_trans hlt hord), hord⟩
    by_cases hone : Ordinary b ∨ NearTop 1 b
    · exact .inl ⟨hone, Nat.lt_of_le_of_lt hle ((ordinary_nearest_iff hb).mpr hone)⟩
    · have hzero : ZeroAfter 2 b :=
        ⟨hsettles.resolve_left fun hord => hone (.inl hord), fun hnear => hone (.inr hnear)⟩
      rw [nearest_of_zeroAfter (n := 0) hb (by omega) hzero] at hle
      exact .inr ⟨hzero, hle⟩
  · rintro (⟨hone, hord⟩ | ⟨hzero, hle⟩)
    · rcases Nat.lt_or_ge (nearest b) (leastNegative 1 len) with hlt | hle
      · exact .inl ⟨hlt, hord⟩
      · exact .inr ⟨hle, hone.imp_right NearTop.succ⟩
    · rw [nearest_of_zeroAfter (n := 0) hb (by omega) hzero]
      exact .inr ⟨hle, .inr hzero.1⟩

theorem settles_four_three (hb : b < 2 ^ 32) (hc : c < 2 ^ 32) (h : least c len ≤ b)
    (hzero : ZeroAfter 3 c) : Settles amend Args.Fits 4 ⟨b, c, len⟩ ↔
      Ordinary b ∧ leastNegative 1 len ≤ nearest b ∧ leastNegative 2 len ≤ nearest b := by
  have htwo : ZeroAfter 2 (2 ^ 32 - 1000 * (1 + 1)) := by
    unfold ZeroAfter NearTop
    omega
  have hagain : Ordinary b → nearest (nearest b) = nearest b :=
    fun hord => (nearest_nearest_iff hb).mpr (.inl hord)
  rw [settles_rounded h, nearest_of_zeroAfter (n := 1) hc (by omega) hzero]
  by_cases hle : leastNegative 2 len ≤ nearest b
  · refine (settles_three (nearest_lt hb) (by omega) hle).trans ?_
    constructor
    · rintro (⟨hone, -⟩ | ⟨-, hord, hle1⟩)
      · exact absurd hone (not_settling (by omega) htwo)
      rcases (ordinary_nearest_iff hb).mp hord with hord | hnear
      · exact ⟨hord, by rwa [hagain hord] at hle1, hle⟩
      · have hlow : 1000 ≤ nearest b := (Nat.le_max_left ..).trans hle
        rw [nearest_of_nearTop hb hnear] at hlow
        omega
    · rintro ⟨hord, hle1, -⟩
      exact .inr ⟨htwo, (ordinary_nearest_iff hb).mpr (.inl hord), by rwa [hagain hord]⟩
  · refine iff_of_false (fun hsettles => ?_) fun h => hle h.2.2
    have hraised := (settles_raised (Nat.not_le.mp hle)).mp hsettles
    rcases convert_settles (least_lt _ len) (by omega) hraised with hord | hnear
    · exact not_settling (by omega) htwo (.inl hord)
    · exact htwo.2 hnear

/-- Four tests are enough for a command that step 3 leaves alone. -/
theorem settles_four (hb : b < 2 ^ 32) (hc : c < 2 ^ 32) (h : least c len ≤ b) :
    Settles amend Args.Fits 4 ⟨b, c, len⟩ ↔
      (Ordinary c ∨ NearTop 1 c) ∧ nearest c * len < 2 ^ 31 ∧ (Ordinary b ∨ NearTop 2 b) ∨
        ZeroAfter 2 c ∧ ((Ordinary b ∨ NearTop 1 b) ∧ Ordinary (leastNegative 1 len) ∨
          ZeroAfter 2 b ∧ leastNegative 1 len ≤ 2 ^ 32 - 1000) ∨
        ZeroAfter 3 c ∧ Ordinary b ∧ leastNegative 1 len ≤ nearest b ∧
          leastNegative 2 len ≤ nearest b := by
  constructor
  · intro hsettles
    have hconvert := convert_settles hb hc hsettles
    by_cases hone : Ordinary c ∨ NearTop 1 c
    · exact .inl ⟨hone, (settles_of_settling hc hone hb h 1).mp hsettles⟩
    have hthree := hconvert.resolve_left fun hord => hone (.inl hord)
    by_cases htwo : NearTop 2 c
    · have hzero : ZeroAfter 2 c := ⟨htwo, fun hnear => hone (.inr hnear)⟩
      exact .inr (.inl ⟨hzero, (settles_four_two hb hc h hzero).mp hsettles⟩)
    · exact .inr (.inr ⟨⟨hthree, htwo⟩,
        (settles_four_three hb hc h ⟨hthree, htwo⟩).mp hsettles⟩)
  · rintro (⟨hone, hsettles⟩ | ⟨hzero, hsettles⟩ | ⟨hzero, hsettles⟩)
    · exact (settles_of_settling hc hone hb h 1).mpr hsettles
    · exact (settles_four_two hb hc h hzero).mpr hsettles
    · exact (settles_four_three hb hc h hzero).mpr hsettles

/-- The channel list of one channel that step 3 made of an empty one. -/
theorem settles_empty (hb : b < 2 ^ 32) (hlow : 1000 ≤ b) (hc : c < 2 ^ 32) :
    Settles amend Args.Fits 3 ⟨b, c, 1⟩ ↔ (Ordinary c ∨ NearTop 1 c) ∧
      (Ordinary (max b c) ∨ NearTop 1 (max b c) ∧ c ≤ b) := by
  have hleast : least c 1 = max 1000 c := by rw [least_of_lt (by omega), Nat.mul_one]
  by_cases h : b < least c 1
  · rw [settles_raised h, hleast]
    rw [hleast] at h
    have hmax : max 1000 c = c := by omega
    rw [hmax, show max b c = c by omega, settles_rounded (by omega), settles_one (nearest_lt hc),
      nearest_nearest_iff hc, Nat.mul_one]
    constructor
    · rintro ⟨hpos, hord | hnear, -, -⟩
      · exact ⟨.inl hord, .inl hord⟩
      · rw [nearest_of_nearTop hc hnear] at hpos
        omega
    · rintro ⟨hone, hord | ⟨-, hle⟩⟩
      · refine ⟨?_, hone, hone, Nat.le_refl _⟩
        rw [nearest_of_ordinary hord]
        omega
      · omega
  · have hle := Nat.not_lt.mp h
    rw [hleast] at h
    rw [settles_three hb hc hle, show max b c = b by omega, Nat.mul_one]
    constructor
    · rintro (⟨hone, -, hsettles⟩ | ⟨hzero, hord, -⟩)
      · exact ⟨hone, hsettles.imp_right fun hnear => ⟨hnear, by omega⟩⟩
      · exact absurd (.inl (Nat.lt_of_le_of_lt (show c ≤ b by omega) hord))
          (not_settling (n := 1) (by omega) hzero)
    · rintro ⟨hone, hsettles⟩
      refine .inl ⟨hone, ?_, hsettles.imp_right And.left⟩
      have hord := (ordinary_nearest_iff hc).mpr hone
      unfold Ordinary at hord
      omega

end Comedi.ComediTestArgs
