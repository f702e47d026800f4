import Comedi.ConfigRetry
import Comedi.NiTimer

namespace Comedi.NiPwm

open Function (update)
open ConfigRetry Instructions NiTimer

def insnConfigGetPwmOutput : U32 := 30

def niGetPwmConfig (st : Settings) (data : Nat → U32) : Configured :=
  ⟨3, st, update (update data 1 (st.pwmUpCount.setWidth 32 * st.clockNs)) 2
    (st.pwmDownCount.setWidth 32 * st.clockNs)⟩

def niMSeriesPwmConfig (st : Settings) (data : Nat → U32) : Configured :=
  if data 0 = insnConfigPwmOutput then pwmConfig mSeriesRegisters st data
  else if data 0 = insnConfigGetPwmOutput then niGetPwmConfig st data
  else ⟨-einval, st, data⟩

/-- What was last written to `Cal_PWM`. -/
def calPwm (st : Settings) : Option U32 :=
  (st.written.filter fun w => w.1 = "M_Offset_Cal_PWM").getLast?.map (·.2)

/-- The fields of `Cal_PWM`, in clock periods. -/
def highTime (register : U32) : U32 := register >>> 16

def lowTime (register : U32) : U32 := register &&& 0xffff

/-- An instruction on the PWM subdevice, or a new master clock. -/
inductive Step
  | config (data : Nat → U32)
  | clock (clockNs : U32)

def step (st : Settings) : Step → Settings
  | .config data => (niMSeriesPwmConfig st data).settings
  | .clock clockNs => { st with clockNs := clockNs }

def run (st : Settings) (steps : List Step) : Settings := steps.foldl step st

/-- A setting is accepted. -/
def accepts (st : Settings) (data : Nat → U32) : Prop :=
  data 0 = insnConfigPwmOutput ∧ (niMSeriesPwmConfig st data).ret = 5

/-- No step of a run is an accepted setting. -/
def Quiet : Settings → List Step → Prop
  | _, [] => True
  | st, .config data :: steps => ¬ accepts st data ∧ Quiet (step st (.config data)) steps
  | st, .clock clockNs :: steps => Quiet (step st (.clock clockNs)) steps

/-- A proposed time is a multiple of the clock period, and it is on the side of the request that the
mode asks for, or as close to it as any. -/
structure Proposal (clockNs mode request proposed : U32) : Prop where
  dvd : clockNs.toNat ∣ proposed.toNat
  down : mode = trigRoundDown → proposed.toNat ≤ request.toNat
  up : mode = trigRoundUp → request.toNat + (clockNs.toNat - 1) < 2 ^ 32 →
    request.toNat ≤ proposed.toNat
  nearest : mode = trigRoundNearest → request.toNat + clockNs.toNat / 2 < 2 ^ 32 →
    ∀ k : Nat, ((proposed.toNat : Int) - request.toNat).natAbs ≤
      ((k * clockNs.toNat : Nat) - request.toNat : Int).natAbs

/-- The instruction that reads the setting. -/
def getPwm (_ : Nat) : U32 := insnConfigGetPwmOutput

/-- An accepted setting is in the fields of the register, where the times are shorter than 65536
clock periods. -/
structure Programmed (clockNs up down register : U32) : Prop where
  high : up.toNat < 0x10000 * clockNs.toNat → (highTime register).toNat * clockNs.toNat = up.toNat
  low : down.toNat < 0x10000 * clockNs.toNat → (lowTime register).toNat * clockNs.toNat = down.toNat

/-- The register keeps what was written, and the times that are read back are those of its fields
by the present clock. -/
structure Reports (register : U32) (st : Settings) : Prop where
  kept : calPwm st = some register
  high : (niMSeriesPwmConfig st getPwm).words 1 = highTime register * st.clockNs
  low : (niMSeriesPwmConfig st getPwm).words 2 = lowTime register * st.clockNs

/-- The times of a setting are read back. -/
structure Returns (clockNs up down : U32) (st : Settings) : Prop where
  high : up.toNat < 0x10000 * clockNs.toNat → (niMSeriesPwmConfig st getPwm).words 1 = up
  low : down.toNat < 0x10000 * clockNs.toNat → (niMSeriesPwmConfig st getPwm).words 2 = down

section Rounding

variable {clockNs mode request count : U32} {x : Nat}

theorem pwmCount_eq (h : pwmCount clockNs mode request = some count) :
    count = niNsToTimer clockNs request mode + 1 := by
  unfold pwmCount at h
  unfold niNsToTimer
  rw [BitVec.sub_add_cancel]
  split at h
  next hmode =>
    cases h
    rw [hmode, if_neg (by decide), if_neg (by decide)]
  next =>
    split at h
    next hmode =>
      cases h
      rw [if_pos hmode]
    next hdown =>
      split at h
      next hmode =>
        cases h
        rw [if_neg hdown, if_pos hmode]
      next => cases h

theorem count_mul (h : pwmCount clockNs mode request = some count) :
    count * clockNs = roundNs clockNs request mode := by
  rw [pwmCount_eq h, BitVec.mul_comm]
  rfl

theorem le_rounded_up (hclock : 0 < clockNs.toNat) (x : Nat) :
    x ≤ rounded clockNs trigRoundUp x := by
  have hdiv := @Nat.lt_div_mul_add (x + (clockNs.toNat - 1)) _ hclock
  change x ≤ (x + (clockNs.toNat - 1)) / clockNs.toNat * clockNs.toNat
  omega

/-- No multiple of the clock period is closer than the one to which a time is rounded. -/
theorem rounded_closest (hclock : 0 < clockNs.toNat) (x k : Nat) :
    ((rounded clockNs trigRoundNearest x : Int) - x).natAbs ≤
      ((k * clockNs.toNat : Nat) - x : Int).natAbs := by
  have hle := Nat.div_mul_le_self (x + clockNs.toNat / 2) clockNs.toNat
  have hlt := @Nat.lt_div_mul_add (x + clockNs.toNat / 2) _ hclock
  change (((x + clockNs.toNat / 2) / clockNs.toNat * clockNs.toNat : Nat) - x : Int).natAbs ≤ _
  generalize (x + clockNs.toNat / 2) / clockNs.toNat = q at hle hlt ⊢
  rcases Nat.lt_trichotomy k q with h | rfl | h
  · have hmul := Nat.mul_le_mul_right clockNs.toNat (Nat.succ_le_of_lt h)
    rw [Nat.succ_mul] at hmul
    omega
  · exact le_refl _
  · have hmul := Nat.mul_le_mul_right clockNs.toNat (Nat.succ_le_of_lt h)
    rw [Nat.succ_mul] at hmul
    omega

/-- What is proposed for a time. -/
theorem proposal (hclock : 0 < clockNs.toNat) (h : pwmCount clockNs mode request = some count) :
    Proposal clockNs mode request (count * clockNs) := by
  rw [count_mul h]
  refine ⟨dvd_roundNs hclock request mode, ?_, ?_, ?_⟩
  · rintro rfl
    have hrequest := request.isLt
    rw [roundNs_eq hclock (by exact hrequest)]
    exact rounded_le request.toNat
  · rintro rfl hlt
    rw [roundNs_eq hclock hlt]
    exact le_rounded_up hclock _
  · rintro rfl hlt
    rw [roundNs_eq hclock hlt]
    exact rounded_closest hclock _

/-- An accepted count of clock periods is the time exactly. -/
theorem count_exact (hclock : 0 < clockNs.toNat) (h : pwmCount clockNs mode request = some count)
    (hkept : count * clockNs = request) : count.toNat * clockNs.toNat = request.toNat := by
  rw [pwmCount_eq h, divider_toNat hclock, ← roundNs_toNat hclock, ← count_mul h, hkept]

end Rounding

section Settings

variable {st : Settings} {data : Nat → U32} {register : U32}

theorem low_mask {i : Nat} (hi : i < 32) : (0xffff : U32).getLsbD i = decide (i < 16) := by
  have hall : ∀ i < 32, (0xffff : U32).getLsbD i = decide (i < 16) := by decide
  exact hall i hi

theorem high_mask {i : Nat} (hi : i < 32) : (0xffff0000 : U32).getLsbD i = decide (16 ≤ i) := by
  have hall : ∀ i < 32, (0xffff0000 : U32).getLsbD i = decide (16 ≤ i) := by decide
  exact hall i hi

theorem highTime_fields (upCount downCount : U32) :
    highTime (((upCount <<< 16) &&& 0xffff0000) ||| (downCount &&& 0xffff)) =
      (upCount.setWidth 16).setWidth 32 := by
  apply BitVec.eq_of_getLsbD_eq
  intro i hi
  unfold highTime
  rw [BitVec.getLsbD_ushiftRight, BitVec.getLsbD_setWidth, BitVec.getLsbD_setWidth]
  by_cases h : i < 16
  · rw [BitVec.getLsbD_or, BitVec.getLsbD_and, BitVec.getLsbD_and, BitVec.getLsbD_shiftLeft,
      low_mask (by omega), high_mask (by omega)]
    simp [h, hi, show 16 + i < 32 by omega, show ¬ 16 + i < 16 by omega]
  · rw [BitVec.getLsbD_of_ge _ _ (by omega)]
    simp [h]

theorem lowTime_fields (upCount downCount : U32) :
    lowTime (((upCount <<< 16) &&& 0xffff0000) ||| (downCount &&& 0xffff)) =
      (downCount.setWidth 16).setWidth 32 := by
  apply BitVec.eq_of_getLsbD_eq
  intro i hi
  unfold lowTime
  rw [BitVec.getLsbD_and, BitVec.getLsbD_or, BitVec.getLsbD_and, BitVec.getLsbD_and,
    BitVec.getLsbD_shiftLeft, BitVec.getLsbD_setWidth, BitVec.getLsbD_setWidth,
    low_mask hi, high_mask hi]
  by_cases h : i < 16
  · simp [h, hi, show ¬ 16 ≤ i by omega]
  · simp [h]

/-- The counts that a setting has, and what comes of them. -/
theorem pwmConfig_counts (hret : (pwmConfig mSeriesRegisters st data).ret ≠ -einval) :
    ∃ upCount downCount, pwmCount st.clockNs (data 1) (data 2) = some upCount ∧
      pwmCount st.clockNs (data 3) (data 4) = some downCount ∧
      pwmConfig mSeriesRegisters st data =
        if upCount * st.clockNs ≠ data 2 ∨ downCount * st.clockNs ≠ data 4 then
          ⟨-eagain, st, update (update data 2 (upCount * st.clockNs)) 4 (downCount * st.clockNs)⟩
        else
          ⟨5, { st with
            pwmUpCount := upCount.setWidth 16
            pwmDownCount := downCount.setWidth 16
            written := st.written ++ mSeriesRegisters upCount downCount }, data⟩ := by
  unfold pwmConfig at hret ⊢
  split at hret
  next upCount downCount hup hdown =>
    rw [hup, hdown]
    exact ⟨upCount, downCount, rfl, rfl, rfl⟩
  next => exact absurd rfl hret

theorem reports_accepted (upCount downCount : U32) :
    Reports (((upCount <<< 16) &&& 0xffff0000) ||| (downCount &&& 0xffff))
      { st with
        pwmUpCount := upCount.setWidth 16
        pwmDownCount := downCount.setWidth 16
        written := st.written ++ mSeriesRegisters upCount downCount } where
  kept := by
    unfold calPwm mSeriesRegisters
    rw [List.filter_append]
    simp
  high := by
    rw [highTime_fields]
    rfl
  low := by
    rw [lowTime_fields]
    rfl

/-- What is not an accepted setting leaves the settings as they are. -/
theorem refused_settings (h : ¬ accepts st data) : (niMSeriesPwmConfig st data).settings = st := by
  unfold accepts niMSeriesPwmConfig at h
  unfold niMSeriesPwmConfig
  split
  next hset =>
    rw [if_pos hset] at h
    by_cases hret : (pwmConfig mSeriesRegisters st data).ret = -einval
    · unfold pwmConfig at hret ⊢
      split
      next hup hdown =>
        rw [hup, hdown] at hret
        dsimp only at hret
        split at hret
        next => cases hret
        next => cases hret
      next => rfl
    · obtain ⟨upCount, downCount, -, -, hcounts⟩ := pwmConfig_counts hret
      rw [hcounts] at h ⊢
      split
      next => rfl
      next hsame =>
        rw [if_neg hsame] at h
        exact absurd ⟨hset, rfl⟩ h
  next => split <;> rfl

/-- What a run without an accepted setting leaves as it is. -/
structure Kept (st later : Settings) : Prop where
  up : later.pwmUpCount = st.pwmUpCount
  down : later.pwmDownCount = st.pwmDownCount
  written : later.written = st.written

theorem run_quiet {steps : List Step} (h : Quiet st steps) : Kept st (run st steps) := by
  induction steps generalizing st with
  | nil => exact ⟨rfl, rfl, rfl⟩
  | cons next steps ih =>
    cases next with
    | config data =>
      have hstep : step st (.config data) = st := refused_settings h.1
      have hrest := ih h.2
      rw [hstep] at hrest
      change Kept st (run (step st (.config data)) steps)
      rw [hstep]
      exact hrest
    | clock clockNs =>
      obtain ⟨hup, hdown, hwritten⟩ := ih h
      exact ⟨hup, hdown, hwritten⟩

theorem reports_kept {later : Settings} (hkept : Kept st later) (h : Reports register st)
    (hup : highTime register = st.pwmUpCount.setWidth 32)
    (hdown : lowTime register = st.pwmDownCount.setWidth 32) : Reports register later where
  kept := by
    unfold calPwm
    rw [hkept.written]
    exact h.kept
  high := by
    rw [hup, ← hkept.up]
    rfl
  low := by
    rw [hdown, ← hkept.down]
    rfl

theorem field_mul {clockNs count request : U32} (h : count.toNat * clockNs.toNat = request.toNat)
    (hlt : request.toNat < 0x10000 * clockNs.toNat) :
    ((count.setWidth 16).setWidth 32 : U32).toNat * clockNs.toNat = request.toNat := by
  have hcount : count.toNat < 0x10000 := by
    rw [← h] at hlt
    exact Nat.lt_of_mul_lt_mul_right hlt
  rw [BitVec.toNat_setWidth, BitVec.toNat_setWidth, Nat.mod_eq_of_lt (by omega),
    Nat.mod_eq_of_lt (by omega), h]

theorem Programmed.returns {clockNs up down : U32} (h : Programmed clockNs up down register)
    (hreports : Reports register st) (hclock : st.clockNs = clockNs) :
    Returns clockNs up down st := by
  refine ⟨fun hlt => ?_, fun hlt => ?_⟩
  · rw [hreports.high, hclock]
    apply BitVec.eq_of_toNat_eq
    rw [BitVec.toNat_mul, h.high hlt, Nat.mod_eq_of_lt up.isLt]
  · rw [hreports.low, hclock]
    apply BitVec.eq_of_toNat_eq
    rw [BitVec.toNat_mul, h.low hlt, Nat.mod_eq_of_lt down.isLt]

/-- An accepted setting is what the register is given and what is read back until the next one, by
the clock of the time; a refused one proposes times that the clock allows. -/
theorem pwm_output (hclock : 0 < st.clockNs.toNat) (hset : data 0 = insnConfigPwmOutput) :
    ((niMSeriesPwmConfig st data).ret = 5 →
      ∃ register, Programmed st.clockNs (data 2) (data 4) register ∧
        ∀ steps, Quiet (niMSeriesPwmConfig st data).settings steps →
          ∀ later, run (niMSeriesPwmConfig st data).settings steps = later →
            Reports register later ∧
              (later.clockNs = st.clockNs → Returns st.clockNs (data 2) (data 4) later)) ∧
    ((niMSeriesPwmConfig st data).ret = -eagain →
      Proposal st.clockNs (data 1) (data 2) ((niMSeriesPwmConfig st data).words 2) ∧
        Proposal st.clockNs (data 3) (data 4) ((niMSeriesPwmConfig st data).words 4)) := by
  have hconfig : niMSeriesPwmConfig st data = pwmConfig mSeriesRegisters st data := if_pos hset
  rw [hconfig]
  constructor
  · intro hret
    obtain ⟨upCount, downCount, hup, hdown, hcounts⟩ :=
      pwmConfig_counts (by rw [hret]; decide)
    rw [hcounts] at hret ⊢
    split at hret
    next => cases hret
    next hkept =>
      rw [if_neg hkept]
      have hhigh := count_exact hclock hup (not_not.mp fun hne => hkept (.inl hne))
      have hlow := count_exact hclock hdown (not_not.mp fun hne => hkept (.inr hne))
      have hprogrammed : Programmed st.clockNs (data 2) (data 4)
          (((upCount <<< 16) &&& 0xffff0000) ||| (downCount &&& 0xffff)) := by
        refine ⟨fun hlt => ?_, fun hlt => ?_⟩
        · rw [highTime_fields]
          exact field_mul hhigh hlt
        · rw [lowTime_fields]
          exact field_mul hlow hlt
      refine ⟨_, hprogrammed, ?_⟩
      rintro steps hquiet later rfl
      have hreports := reports_kept (run_quiet hquiet) (reports_accepted upCount downCount)
        (highTime_fields ..) (lowTime_fields ..)
      exact ⟨hreports, hprogrammed.returns hreports⟩
  · intro hret
    obtain ⟨upCount, downCount, hup, hdown, hcounts⟩ :=
      pwmConfig_counts (by rw [hret]; decide)
    rw [hcounts] at hret ⊢
    split at hret
    next hne =>
      rw [if_pos hne]
      exact ⟨proposal hclock hup, proposal hclock hdown⟩
    next => cases hret

/-- A setting with the same time for both levels. -/
def setPwm (mode time : U32) (p : Nat) : U32 :=
  [insnConfigPwmOutput, mode, time, mode, time].getD p 0

def clock50 : Settings := { clockNs := 50 }

theorem pwm_output_accepted :
    (niMSeriesPwmConfig clock50 (setPwm trigRoundNearest 100)).ret = 5 ∧
      ∃ register, Programmed 50 100 100 register ∧
        ∀ steps, Quiet (niMSeriesPwmConfig clock50 (setPwm trigRoundNearest 100)).settings steps →
          ∀ later, run (niMSeriesPwmConfig clock50 (setPwm trigRoundNearest 100)).settings steps =
              later →
            Reports register later ∧ (later.clockNs = 50 → Returns 50 100 100 later) :=
  ⟨by decide, (@pwm_output clock50 (setPwm trigRoundNearest 100) (by decide) rfl).1 (by decide)⟩

/-- The times that are read back follow the clock, a count over 16 bits is accepted and cut, and
close to the largest time the rounding overflows. -/
theorem pwm_not_kept :
    ((niMSeriesPwmConfig clock50 (setPwm trigRoundNearest 100)).ret = 5 ∧
      (niMSeriesPwmConfig (run (niMSeriesPwmConfig clock50 (setPwm trigRoundNearest 100)).settings
        [.clock 100]) getPwm).words 1 = 200) ∧
    ((niMSeriesPwmConfig clock50 (setPwm trigRoundNearest 3276800)).ret = 5 ∧
      calPwm (niMSeriesPwmConfig clock50 (setPwm trigRoundNearest 3276800)).settings = some 0) ∧
    ((niMSeriesPwmConfig clock50 (setPwm trigRoundUp 0xffffffff)).ret = -eagain ∧
      (niMSeriesPwmConfig clock50 (setPwm trigRoundUp 0xffffffff)).words 2 = 0) := by
  decide

end Settings

end Comedi.NiPwm
