import Comedi.Instructions

namespace Comedi.ConfigRetry

open RunState Instructions Function

abbrev U16 := BitVec 16

def insnConfigTimer1 : U32 := 23

def trigRoundNearest : U32 := 0x00000000
def trigRoundDown : U32 := 0x00010000
def trigRoundUp : U32 := 0x00020000

def comediEvScanBegin : U32 := 0x00080000

/-- What the three configurations store, and the writes to the PWM registers. -/
structure Settings where
  clockNs : U32 := 0
  pwmUpCount : U16 := 0
  pwmDownCount : U16 := 0
  atrigMode : U16 := 0
  atrigHigh : U16 := 0
  atrigLow : U16 := 0
  divisor : U32 := 0
  chanspec : U32 := 0
  written : List (String × U32) := []

/-- What a driver returns, its settings after it and the words that it leaves. -/
structure Configured where
  ret : Int
  settings : Settings
  words : Nat → U32

/-- A number of clock ticks, rounded as the mode tells, if there is such a mode. -/
def pwmCount (clockNs mode period : U32) : Option U32 :=
  if mode = trigRoundNearest then some ((period + clockNs / 2) / clockNs)
  else if mode = trigRoundDown then some (period / clockNs)
  else if mode = trigRoundUp then some ((period + clockNs - 1) / clockNs)
  else none

/-- `INSN_CONFIG_PWM_OUTPUT` of `ni_m_series_pwm_config` and `ni_6143_pwm_config`, which differ in
the registers. -/
def pwmConfig (registers : U32 → U32 → List (String × U32)) (st : Settings) (data : Nat → U32) :
    Configured :=
  match pwmCount st.clockNs (data 1) (data 2), pwmCount st.clockNs (data 3) (data 4) with
  | some upCount, some downCount =>
    if upCount * st.clockNs ≠ data 2 ∨ downCount * st.clockNs ≠ data 4 then
      ⟨-eagain, st, update (update data 2 (upCount * st.clockNs)) 4 (downCount * st.clockNs)⟩
    else
      ⟨5, { st with
        pwmUpCount := upCount.setWidth 16
        pwmDownCount := downCount.setWidth 16
        written := st.written ++ registers upCount downCount }, data⟩
  | _, _ => ⟨-einval, st, data⟩

def mSeriesRegisters (upCount downCount : U32) : List (String × U32) :=
  [("M_Offset_Cal_PWM", ((upCount <<< 16) &&& 0xffff0000) ||| (downCount &&& 0xffff))]

def registers6143 (upCount downCount : U32) : List (String × U32) :=
  [("Calibration_HighTime_6143", upCount), ("Calibration_LowTime_6143", downCount)]

/-- The part of `ni_board` that the analog trigger depends on. -/
structure NiBoard where
  hasAnalogTrig : Bool
  nAdchan : U32

/-- The words after the checks of the single fields, and whether one was wrong. -/
def clipAnalogTrig (board : NiBoard) (data : Nat → U32) : Bool × (Nat → U32) :=
  let flags := data 1 &&& 0xffff0000 ≠ comediEvScanBegin
  let line := board.nAdchan ≤ data 2
  let setLevel := 255 < data 3
  let resetLevel := 255 < data 4
  let data₁ := if flags then update data 1 (data 1 &&& (comediEvScanBegin ||| 0xffff)) else data
  let data₂ := if line then update data₁ 2 (board.nAdchan - 1) else data₁
  let data₃ := if setLevel then update data₂ 3 255 else data₂
  let data₄ := if resetLevel then update data₃ 4 255 else data₃
  (flags ∨ line ∨ setLevel ∨ resetLevel, data₄)

/-- The mode of a trigger with two levels, where the mode bits are known. -/
def twoLevelMode (modebits : U32) : Option U16 :=
  if modebits = 0x81 then some 6
  else if modebits = 0x42 then some 3
  else if modebits = 0x96 then some 2
  else none

def storeMode (mode : Option U16) (st : Settings) : Settings :=
  { st with atrigMode := mode.getD st.atrigMode }

def rejectMode (mode : Option U16) (data : Nat → U32) : Bool × (Nat → U32) :=
  if mode.isNone then (true, update data 1 (data 1 &&& ~~~0xff)) else (false, data)

/-- The two level mode: the levels are stored in order whatever the mode is. -/
def twoLevels (data : Nat → U32) (st : Settings) : Bool × (Nat → U32) × Settings :=
  let swap := data 4 < data 3
  let modebits := data 1 &&& 0xff
  let mode := twoLevelMode
    (if swap then ((data 1 &&& 0xf) <<< 4) ||| ((data 1 &&& 0xf0) >>> 4) else modebits)
  let st := { st with
    atrigLow := (if swap then data 4 else data 3).setWidth 16
    atrigHigh := (if swap then data 3 else data 4).setWidth 16 }
  let rejected := rejectMode mode data
  (rejected.1, rejected.2, storeMode mode st)

def oneLevel (data : Nat → U32) (st : Settings) : Bool × (Nat → U32) × Settings :=
  let modebits := data 1 &&& 0xff
  let second := data 4 ≠ 0
  let data' := if second then update data 4 0 else data
  if modebits = 0x06 then
    (second, data', { st with atrigHigh := (data 3).setWidth 16, atrigMode := 0 })
  else if modebits = 0x09 then
    (second, data', { st with atrigLow := (data 3).setWidth 16, atrigMode := 1 })
  else (true, update data' 1 (data' 1 &&& ~~~0xff), st)

/-- `ni_ai_config_analog_trig`. -/
def niAiConfigAnalogTrig (board : NiBoard) (st : Settings) (data : Nat → U32) : Configured :=
  if ¬ board.hasAnalogTrig then ⟨-einval, st, data⟩
  else
    let clipped := clipAnalogTrig board data
    let levels :=
      if clipped.2 1 &&& 0xff &&& 0xf0 ≠ 0 then twoLevels clipped.2 st else oneLevel clipped.2 st
    ⟨if clipped.1 ∨ levels.1 then -eagain else 5, levels.2.2, levels.2.1⟩

def aiConfigMasterClock4020 (st : Settings) (data : Nat → U32) : Configured :=
  let divisor : U32 := if data 4 < 2 then 2 else data 4
  if data 1 = comediEvScanBegin then
    ⟨if data 4 < 2 then -eagain else 5, { st with divisor := divisor, chanspec := data 2 },
      update data 4 divisor⟩
  else ⟨-einval, st, data⟩

/-- The configuration instructions that adjust their words. -/
inductive Config where
  | mSeriesPwm
  | pwm6143
  | analogTrig (board : NiBoard)
  | masterClock4020

def Config.id : Config → U32
  | .mSeriesPwm => insnConfigPwmOutput
  | .pwm6143 => insnConfigPwmOutput
  | .analogTrig _ => insnConfigAnalogTrig
  | .masterClock4020 => insnConfigTimer1

def Config.handle : Config → Settings → (Nat → U32) → Configured
  | .mSeriesPwm => pwmConfig mSeriesRegisters
  | .pwm6143 => pwmConfig registers6143
  | .analogTrig board => niAiConfigAnalogTrig board
  | .masterClock4020 => aiConfigMasterClock4020

/-- `s->insn_config` for `n` words, unless it is for another configuration or it reads more words
than there are: the core does not check the length of `INSN_CONFIG_TIMER_1`. -/
def configure (cfg : Config) (n : Nat) (st : Settings) (data : Nat → U32) : Option Configured :=
  if data 0 = cfg.id ∧ 5 ≤ n then some (cfg.handle st data) else none

/-- What the `k`-th retry makes of the settings and the words, each given the words of the one
before. -/
def attempt (cfg : Config) (st : Settings) (data : Nat → U32) : Nat → Configured
  | 0 => cfg.handle st data
  | k + 1 => cfg.handle (attempt cfg st data k).settings (attempt cfg st data k).words

/-- The words in the user's memory after the request. -/
def userWords (words : Nat → U32) (copied : List (List U32)) (p : Nat) : U32 :=
  match copied with
  | [] => words p
  | back :: _ => back.getD p (words p)

/-- The protocol of -EAGAIN for one instruction: the user's `n` words are the adjusted ones, the
settings are what they were, and retrying the adjusted words succeeds in the end. -/
structure RetryWorks (cfg : Config) (st : Settings) (data after : Nat → U32) (n : Nat) :
    Prop where
  told : ∀ p < n, after p = (cfg.handle st data).words p
  kept : (cfg.handle st data).settings = st
  accepted : ∃ k, 0 ≤ (attempt cfg st data k).ret

variable {cfg : Config} {st : Settings} {data words : Nat → U32} {n : Nat}

theorem pwm_adjusts {registers : U32 → U32 → List (String × U32)}
    (h : (pwmConfig registers st data).ret = -eagain) :
    ∃ p < 5, (pwmConfig registers st data).words p ≠ data p := by
  unfold pwmConfig at h ⊢
  split at h
  next upCount downCount hup hdown =>
    split at h
    next hne =>
      rw [if_pos hne]
      rcases hne with hne | hne
      · exact ⟨2, by omega, hne⟩
      · exact ⟨4, by omega, hne⟩
    · cases h
  · cases h

theorem masterClock_adjusts (h : (aiConfigMasterClock4020 st data).ret = -eagain) :
    (aiConfigMasterClock4020 st data).words 4 ≠ data 4 := by
  unfold aiConfigMasterClock4020 at h ⊢
  dsimp only at h ⊢
  split at h
  next hsrc =>
    rw [if_pos hsrc]
    dsimp only at h ⊢
    split at h
    next hlow =>
      rw [if_pos hlow, update_self]
      intro heq
      rw [← heq] at hlow
      exact absurd hlow (by decide)
    · cases h
  · cases h

theorem clipAnalogTrig_above (board : NiBoard) (data : Nat → U32) {p : Nat} (hp : 5 ≤ p) :
    (clipAnalogTrig board data).2 p = data p := by
  unfold clipAnalogTrig
  dsimp only
  have hother : ∀ {c : Prop} [Decidable c] {d : Nat → U32} {i : Nat} {v : U32}, i < 5 →
      (if c then update d i v else d) p = d p := by
    intro c _ d i v hi
    split
    · exact update_of_ne (by omega) ..
    · rfl
  rw [hother (by omega), hother (by omega), hother (by omega), hother (by omega)]

theorem rejectMode_above (mode : Option U16) (data : Nat → U32) {p : Nat} (hp : 5 ≤ p) :
    (rejectMode mode data).2 p = data p := by
  unfold rejectMode
  split
  · exact update_of_ne (by omega) ..
  · rfl

theorem oneLevel_above (data : Nat → U32) (st : Settings) {p : Nat} (hp : 5 ≤ p) :
    (oneLevel data st).2.1 p = data p := by
  have hsecond : (if data 4 ≠ 0 then update data 4 0 else data) p = data p := by
    split
    · exact update_of_ne (by omega) ..
    · rfl
  unfold oneLevel
  dsimp only
  split
  · exact hsecond
  · split
    · exact hsecond
    · exact (update_of_ne (by omega) ..).trans hsecond

/-- The analog trigger is set by five words, and it adjusts no others. -/
theorem analogTrig_above (board : NiBoard) (st : Settings) (data : Nat → U32) {p : Nat}
    (hp : 5 ≤ p) : (niAiConfigAnalogTrig board st data).words p = data p := by
  unfold niAiConfigAnalogTrig
  split
  · rfl
  · dsimp only
    split
    · exact (rejectMode_above _ _ hp).trans (clipAnalogTrig_above board data hp)
    · exact (oneLevel_above _ st hp).trans (clipAnalogTrig_above board data hp)

theorem oneLevel_settings (data : Nat → U32) (st st' : Settings) :
    (oneLevel data st).1 = (oneLevel data st').1 ∧
      (oneLevel data st).2.1 = (oneLevel data st').2.1 := by
  unfold oneLevel
  dsimp only
  split
  · exact ⟨rfl, rfl⟩
  · split <;> exact ⟨rfl, rfl⟩

/-- What the analog trigger answers depends on the words alone. -/
theorem analogTrig_settings (board : NiBoard) (st st' : Settings) (data : Nat → U32) :
    (niAiConfigAnalogTrig board st data).ret = (niAiConfigAnalogTrig board st' data).ret ∧
      (niAiConfigAnalogTrig board st data).words =
        (niAiConfigAnalogTrig board st' data).words := by
  unfold niAiConfigAnalogTrig
  split
  · exact ⟨rfl, rfl⟩
  · dsimp only
    split
    · exact ⟨rfl, rfl⟩
    · obtain ⟨hbad, hwords⟩ := oneLevel_settings (clipAnalogTrig board data).2 st st'
      rw [hbad, hwords]
      exact ⟨rfl, rfl⟩

/-- Words that the analog trigger leaves as they are get the same answer at every retry. -/
theorem analogTrig_stuck (board : NiBoard)
    (hwords : (niAiConfigAnalogTrig board st data).words = data) (k : Nat) :
    (attempt (.analogTrig board) st data k).ret = (niAiConfigAnalogTrig board st data).ret ∧
      (attempt (.analogTrig board) st data k).words = data := by
  induction k with
  | zero => exact ⟨rfl, hwords⟩
  | succ k ih =>
    obtain ⟨-, hk⟩ := ih
    obtain ⟨hret, hsame⟩ :=
      analogTrig_settings board (attempt (.analogTrig board) st data k).settings st data
    have hstep : attempt (.analogTrig board) st data (k + 1) =
        niAiConfigAnalogTrig board (attempt (.analogTrig board) st data k).settings data := by
      change niAiConfigAnalogTrig board _ (attempt (.analogTrig board) st data k).words = _
      rw [hk]
    rw [hstep]
    exact ⟨hret, hsame.trans hwords⟩

theorem checkInsnConfigLength_refuses {insn : Insn} (h : checkInsnConfigLength insn data ≠ 0) :
    checkInsnConfigLength insn data < 0 := by
  have hinval : (-einval : Int) < 0 := by decide
  unfold checkInsnConfigLength at h ⊢
  split
  · exact hinval
  next hn =>
    rw [if_neg hn] at h
    split
    next len hlen =>
      rw [hlen] at h
      dsimp only at h
      split
      next heq => exact absurd (if_pos heq) h
      · exact hinval
    next hlen =>
      rw [hlen] at h
      exact absurd rfl h

theorem runInsn_refuses {s : Subdevice} {req : InsnReq} (hinsn : req.insn.insn = insnConfig)
    (hret : req.answer.ret < 0) : (runInsn s req data).1 < 0 := by
  have hread : insnConfig ≠ insnRead := by decide
  have hwrite : insnConfig ≠ insnWrite := by decide
  have hbits : insnConfig ≠ insnBits := by decide
  have hinval : (-einval : Int) < 0 := by decide
  unfold runInsn
  dsimp only
  rw [hinsn, if_neg hread, if_neg hwrite, if_neg hbits, if_pos rfl]
  split
  next hlen => exact checkInsnConfigLength_refuses hlen
  · unfold callConfig
    split
    · exact hret
    · exact hinval

theorem subdeviceInsn_refuses {s : Subdevice} {req : InsnReq} {file : File}
    (hinsn : req.insn.insn = insnConfig) (hret : req.answer.ret < 0) :
    (subdeviceInsn s req data file).1 < 0 := by
  have hinval : (-einval : Int) < 0 := by decide
  have hio : (-eio : Int) < 0 := by decide
  have hacces : (-eacces : Int) < 0 := by decide
  have hbusy : (-ebusy : Int) < 0 := by decide
  unfold subdeviceInsn
  split
  · exact hio
  · split
    · exact hacces
    · split
      · exact hinval
      · split
        · exact hbusy
        · exact runInsn_refuses hinsn hret

theorem parseInsn_refuses {dev : Device} {req : InsnReq} {file : File}
    (hinsn : req.insn.insn = insnConfig) (hret : req.answer.ret < 0) :
    (parseInsn dev req data file).ret < 0 := by
  have hinval : (-einval : Int) < 0 := by decide
  unfold parseInsn
  rw [hinsn, if_neg (by decide)]
  unfold ordinaryInsn
  dsimp only
  split
  · exact hinval
  · exact subdeviceInsn_refuses hinsn hret

/-- A request that the driver refused leaves the user's words as they were. -/
theorem refused_copies_nothing {dev : Device} {req : InsnReq} {allocOk : Bool} {file : File}
    {mem : Nat → U32} (hinsn : req.insn.insn = insnConfig) (hret : req.answer.ret < 0) :
    (doInsnIoctl dev req allocOk file mem).copied = [] := by
  unfold doInsnIoctl
  split
  · rfl
  · split
    · rfl
    · rw [if_pos (parseInsn_refuses hinsn hret)]

/-- The words of an INSN_CONFIG are the user's. -/
theorem fillData_config {req : InsnReq} {mem : Nat → U32} (hinsn : req.insn.insn = insnConfig)
    (hinput : req.input = some words) (hdata : fillData req mem = some data) {p : Nat}
    (hp : p < req.insn.n.toNat) : data p = words p := by
  have hwrite : asksWrite req.insn := by
    unfold asksWrite
    rw [hinsn]
    decide
  unfold fillData at hdata
  rw [if_pos hwrite, hinput, Option.map_some] at hdata
  cases hdata
  unfold store
  dsimp only
  rw [if_pos hp]
  rfl

/-- The protocol of -EAGAIN never works: the user is not told the adjusted words, and where they
are the words that were sent, every retry is refused as the first request was. -/
theorem retry_never {dev : Device} {req : InsnReq} {allocOk : Bool} {file : File}
    {mem : Nat → U32} {r : Configured} (hinsn : req.insn.insn = insnConfig)
    (hinput : req.input = some words) (hdata : fillData req mem = some data)
    (hr : configure cfg req.insn.n.toNat st data = some r) (hret : r.ret = -eagain)
    (hans : req.answer = ⟨r.ret, fun p => some (r.words p)⟩) :
    ¬ RetryWorks cfg st data (userWords words (doInsnIoctl dev req allocOk file mem).copied)
      req.insn.n.toNat := by
  intro hworks
  have hrefused : req.answer.ret < 0 := by
    rw [hans]
    dsimp only
    rw [hret]
    decide
  unfold configure at hr
  split at hr
  next hfor =>
    cases hr
    have hlen : 5 ≤ req.insn.n.toNat := hfor.2
    have htold : ∀ p < req.insn.n.toNat, (cfg.handle st data).words p = data p := by
      intro p hp
      have h := hworks.told p hp
      rw [refused_copies_nothing hinsn hrefused] at h
      exact h.symm.trans (fillData_config hinsn hinput hdata hp).symm
    cases cfg with
    | mSeriesPwm =>
      obtain ⟨p, hp, hne⟩ := pwm_adjusts hret
      exact hne (htold p (by omega))
    | pwm6143 =>
      obtain ⟨p, hp, hne⟩ := pwm_adjusts hret
      exact hne (htold p (by omega))
    | analogTrig board =>
      have hwords : (niAiConfigAnalogTrig board st data).words = data := by
        funext p
        by_cases hp : p < 5
        · exact htold p (by omega)
        · exact analogTrig_above board st data (by omega)
      obtain ⟨k, hk⟩ := hworks.accepted
      have hk' : (attempt (.analogTrig board) st data k).ret = -eagain :=
        (analogTrig_stuck board hwords k).1.trans hret
      rw [hk'] at hk
      exact absurd hk (by decide)
    | masterClock4020 => exact masterClock_adjusts hret (htold 4 (by omega))
  · cases hr

/-- A PWM of 150 ns high and 100 ns low, on a board with a clock of 100 ns. -/
def pwmWords (p : Nat) : U32 := [29, 0, 150, 0, 100].getD p 0

def pwmSettings : Settings := { clockNs := 100 }

/-- The words in the kernel, where the memory was clear. -/
def pwmData : Nat → U32 :=
  store (fun p => if p < 5 then some (pwmWords p) else none) fun _ => 0

def pwmAnswer : Configured := pwmConfig mSeriesRegisters pwmSettings pwmData

def pwmRequest : InsnReq where
  insn := { insn := insnConfig, n := 5 }
  input := some pwmWords
  answer := ⟨pwmAnswer.ret, fun p => some (pwmAnswer.words p)⟩

def pwmBoard : Device where
  subdevices := [{ type := .pwm, nChan := 1, rangeTable := some { length := 1 } }]

theorem retry_never_pwm :
    ¬ RetryWorks .mSeriesPwm pwmSettings pwmData
      (userWords pwmWords (doInsnIoctl pwmBoard pwmRequest true 0 fun _ => 0).copied) 5 :=
  @retry_never .mSeriesPwm pwmSettings pwmData pwmWords pwmBoard pwmRequest true 0 (fun _ => 0)
    pwmAnswer rfl rfl rfl rfl rfl rfl

theorem pwm_not_told :
    (doInsnIoctl pwmBoard pwmRequest true 0 fun _ => 0).ret = -eagain ∧
      (doInsnIoctl pwmBoard pwmRequest true 0 fun _ => 0).calls = [(0, .insnConfig)] ∧
      ¬ RetryWorks .mSeriesPwm pwmSettings pwmData
        (userWords pwmWords (doInsnIoctl pwmBoard pwmRequest true 0 fun _ => 0).copied) 5 := by
  refine ⟨by decide, rfl, ?_⟩
  intro hworks
  have htold := hworks.told 2 (by decide)
  exact absurd htold (by decide)

end Comedi.ConfigRetry
