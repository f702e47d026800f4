import Comedi.ArgFixes
import Comedi.ConfigRetry
import Comedi.I8253

namespace Comedi.NiTimer

open ArgFixes
open ConfigRetry (trigRoundNearest trigRoundDown trigRoundUp)
open I8253 (trigRoundMask)

section Timer

variable (clockNs : U32)

def niNsToTimer (nanosec roundMode : U32) : U32 :=
  let divider :=
    if roundMode = trigRoundDown then nanosec / clockNs
    else if roundMode = trigRoundUp then (nanosec + clockNs - 1) / clockNs
    else (nanosec + clockNs / 2) / clockNs
  divider - 1

def niTimerToNs (timer : U32) : U32 := clockNs * (timer + 1)

/-- The period that the counter can have instead of `nanosec`. -/
def roundNs (nanosec roundMode : U32) : U32 :=
  niTimerToNs clockNs (niNsToTimer clockNs nanosec roundMode)

/-- What is added to a period before it is divided. -/
def slack (roundMode : U32) : Nat :=
  if roundMode = trigRoundDown then 0
  else if roundMode = trigRoundUp then clockNs.toNat - 1
  else clockNs.toNat / 2

/-- The period to a multiple of the clock, without overflow. -/
def rounded (roundMode : U32) (ns : Nat) : Nat :=
  (ns + slack clockNs roundMode) / clockNs.toNat * clockNs.toNat

end Timer

variable {clockNs ns roundMode : U32} {x y : Nat}

section Clock

variable (hclock : 0 < clockNs.toNat)

include hclock

theorem slack_lt (roundMode : U32) : slack clockNs roundMode < clockNs.toNat := by
  unfold slack
  split
  · exact hclock
  split
  · omega
  · omega

theorem divider_toNat (ns roundMode : U32) : (niNsToTimer clockNs ns roundMode + 1).toNat =
    (ns.toNat + slack clockNs roundMode) % 2 ^ 32 / clockNs.toNat := by
  have hns := ns.isLt
  have hlt := clockNs.isLt
  unfold niNsToTimer slack
  dsimp only
  rw [BitVec.sub_add_cancel]
  split
  · rw [BitVec.toNat_udiv, Nat.add_zero, Nat.mod_eq_of_lt hns]
  split
  · have hone : (1 : U32).toNat = 1 := rfl
    rw [BitVec.toNat_udiv, BitVec.toNat_sub, BitVec.toNat_add, hone]
    congr 1
    omega
  · have htwo : (2 : U32).toNat = 2 := rfl
    rw [BitVec.toNat_udiv, BitVec.toNat_add, BitVec.toNat_udiv, htwo]

theorem roundNs_toNat (ns roundMode : U32) : (roundNs clockNs ns roundMode).toNat =
    (ns.toNat + slack clockNs roundMode) % 2 ^ 32 / clockNs.toNat * clockNs.toNat := by
  have hle := Nat.div_mul_le_self ((ns.toNat + slack clockNs roundMode) % 2 ^ 32) clockNs.toNat
  have hlt := Nat.mod_lt (ns.toNat + slack clockNs roundMode) (Nat.two_pow_pos 32)
  unfold roundNs niTimerToNs
  rw [BitVec.toNat_mul, divider_toNat hclock, Nat.mul_comm]
  exact Nat.mod_eq_of_lt (hle.trans_lt hlt)

theorem roundNs_eq (h : ns.toNat + slack clockNs roundMode < 2 ^ 32) :
    (roundNs clockNs ns roundMode).toNat = rounded clockNs roundMode ns.toNat := by
  rw [roundNs_toNat hclock, Nat.mod_eq_of_lt h]
  rfl

theorem dvd_roundNs (ns roundMode : U32) :
    clockNs.toNat ∣ (roundNs clockNs ns roundMode).toNat := by
  rw [roundNs_toNat hclock]
  exact Nat.dvd_mul_left _ _

theorem rounded_of_dvd (h : clockNs.toNat ∣ x) : rounded clockNs roundMode x = x := by
  obtain ⟨k, rfl⟩ := h
  unfold rounded
  rw [Nat.mul_add_div hclock, Nat.div_eq_of_lt (slack_lt hclock roundMode), Nat.add_zero,
    Nat.mul_comm]

theorem rounded_rounded (x : Nat) :
    rounded clockNs roundMode (rounded clockNs roundMode x) = rounded clockNs roundMode x :=
  rounded_of_dvd hclock (Nat.dvd_mul_left _ _)

/-- A period of at least one tick of the clock is loaded as one tick less. -/
theorem timer_toNat {ns : U32} {ticks : Nat} (h : ns.toNat = clockNs.toNat * (ticks + 1))
    (hlt : ns.toNat + slack clockNs roundMode < 2 ^ 32) :
    (niNsToTimer clockNs ns roundMode).toNat = ticks := by
  have hdivider := divider_toNat hclock ns roundMode
  have hone : (1 : U32).toNat = 1 := rfl
  rw [Nat.mod_eq_of_lt hlt, h, Nat.mul_add_div hclock, Nat.div_eq_of_lt (slack_lt hclock _),
    BitVec.toNat_add, hone] at hdivider
  have htimer := (niNsToTimer clockNs ns roundMode).isLt
  omega

/-- A period within a limit of ticks gives a timer below it. -/
theorem timer_lt {ns : U32} {most : Nat} (hpos : ns ≠ 0) (hdvd : clockNs.toNat ∣ ns.toNat)
    (hmost : ns.toNat ≤ clockNs.toNat * most)
    (hlt : ns.toNat + slack clockNs roundMode < 2 ^ 32) :
    (niNsToTimer clockNs ns roundMode).toNat < most := by
  obtain ⟨k, hk⟩ := hdvd
  cases k with
  | zero => exact absurd (BitVec.eq_of_toNat_eq hk) hpos
  | succ ticks =>
    rw [timer_toNat hclock hk hlt]
    rw [hk] at hmost
    exact Nat.le_of_mul_le_mul_left hmost hclock

/-- Less than one tick gives the largest timer. -/
theorem timer_of_zero {ns : U32}
    (h : (ns.toNat + slack clockNs roundMode) % 2 ^ 32 < clockNs.toNat) :
    (niNsToTimer clockNs ns roundMode).toNat = 2 ^ 32 - 1 := by
  have hdivider := divider_toNat hclock ns roundMode
  have hone : (1 : U32).toNat = 1 := rfl
  rw [Nat.div_eq_of_lt h, BitVec.toNat_add, hone] at hdivider
  have htimer := (niNsToTimer clockNs ns roundMode).isLt
  omega

/-- The timer for a period that the counter can have fits unless the period is zero or the rounding
overflows. -/
theorem timer_lt_iff {ns : U32} {most : Nat} (hdvd : clockNs.toNat ∣ ns.toNat)
    (hmost : ns.toNat ≤ clockNs.toNat * most) (hbits : most < 2 ^ 32) :
    (niNsToTimer clockNs ns roundMode).toNat < most ↔
      ns ≠ 0 ∧ ns.toNat + slack clockNs roundMode < 2 ^ 32 := by
  have hslack := slack_lt hclock roundMode
  have hns := ns.isLt
  have hlt := clockNs.isLt
  refine ⟨fun hfits => ⟨fun hzero => ?_, ?_⟩, fun h => timer_lt hclock h.1 hdvd hmost h.2⟩
  · have hnone : ns.toNat = 0 := by
      rw [hzero]
      rfl
    rw [timer_of_zero hclock (by omega)] at hfits
    omega
  · by_contra hover
    rw [timer_of_zero hclock (by omega)] at hfits
    omega

end Clock

theorem slack_nearest (clockNs : U32) : slack clockNs trigRoundNearest = clockNs.toNat / 2 := rfl

theorem rounded_mono : Monotone (rounded clockNs roundMode) := fun _ _ h =>
  Nat.mul_le_mul_right _ (Nat.div_le_div_right (Nat.add_le_add_right h _))

theorem rounded_le (x : Nat) : rounded clockNs roundMode x ≤ x + slack clockNs roundMode :=
  Nat.div_mul_le_self _ _

/-- The longest periods of a counter of 24 bits and of one of 16 bits. -/
def scanMax (clockNs : U32) : Nat := (clockNs * 0xffffff).toNat

def convertMax (clockNs : U32) : Nat := (clockNs * 0xffff).toNat

theorem scanMax_eq (clockNs : U32) : scanMax clockNs = clockNs.toNat * 0xffffff % 2 ^ 32 :=
  BitVec.toNat_mul clockNs 0xffffff

theorem convertMax_eq (clockNs : U32) : convertMax clockNs = clockNs.toNat * 0xffff % 2 ^ 32 :=
  BitVec.toNat_mul clockNs 0xffff

theorem scanMax_le (clockNs : U32) : scanMax clockNs ≤ clockNs.toNat * 0xffffff := by
  rw [scanMax_eq]
  exact Nat.mod_le _ _

theorem convertMax_le (clockNs : U32) : convertMax clockNs ≤ clockNs.toNat * 0xffff := by
  rw [convertMax_eq]
  exact Nat.mod_le _ _

theorem scanMax_lt (clockNs : U32) : scanMax clockNs < 2 ^ 32 := BitVec.isLt _

theorem sound_limits {lo hi : U32} (h : lo.toNat ≤ hi.toNat) : Sound (within lo hi) := by
  have hsnd : ∀ a : U32, (within lo hi a).2.toNat = clamp lo.toNat hi.toNat a.toNat :=
    fun a => within_snd (fun _ _ => BitVec.lt_def.symm) lo hi a
  refine sound_within (fun a => ?_) fun a => ?_
  · rw [BitVec.not_lt, BitVec.le_def, hsnd]
    exact le_clamp h _
  · rw [BitVec.not_lt, BitVec.le_def, hsnd]
    exact clamp_le _ _ _

end Comedi.NiTimer
