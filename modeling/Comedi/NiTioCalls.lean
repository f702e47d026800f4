import Comedi.NiTioReadable

namespace Comedi.NiTioCalls

open Instructions ChanlistCheck SharedRegs NiTio NiTioInsn NiTioCmd GuardedRuns
open NiTioFootprints NiTioSteps NiTioClock NiTioGates NiTioReadable
open Function (update)

variable {F : Footprint} {d d' d'' : NiGpctDevice} {c : Nat}

/-- What a call does: it writes what it changes unless it loses a polarity, it leaves the clock
source alone unless it sets it, and it leaves codes that can be decoded. -/
structure Acts (clock lost : Prop) (d : NiGpctDevice) (c : Nat) (d' : NiGpctDevice) : Prop where
  step : ¬ lost → Step everything d c d'
  neutral : ¬ clock → Touches (clockNeutral d.variant) d c d'
  readable : Readable d → Readable d'

variable {clock lost : Prop}

theorem acts_of_quiet (h : Step F d c d') (hF : Quiet d.variant F) : Acts clock lost d c d' :=
  ⟨fun _ => h.everything, fun _ => h.toTouches.neutral hF.neutral,
    fun hd => hd.touches h.toTouches hF.codes⟩

theorem Acts.refl (clock lost : Prop) (d : NiGpctDevice) (c : Nat) : Acts clock lost d c d :=
  ⟨fun _ => .refl _ d c, fun _ => .refl _ d c, id⟩

theorem Acts.trans (h : Acts clock lost d c d') (h' : Acts clock lost d' c d'')  :
    Acts clock lost d c d'' where
  step hl := (h.step hl).trans (h'.step hl)
  neutral hc := by
    have h₁ := h.neutral hc
    have h₂ := h'.neutral hc
    rw [h₁.variant] at h₂
    exact h₁.trans h₂
  readable hd := h'.readable (h.readable hd)

theorem Acts.mono {clock' lost' : Prop} (h : Acts clock lost d c d') (hc : clock → clock')
    (hl : lost → lost') : Acts clock' lost' d c d' :=
  ⟨fun hn => h.step fun hx => hn (hl hx), fun hn => h.neutral fun hx => hn (hc hx),
    h.readable⟩

theorem setGateSrc_acts {gateIndex gateSource : U32} {r : Int × NiGpctDevice}
    (h : niTioSetGateSrc d c gateIndex gateSource = .ok r) :
    Acts clock (PolarityLost d c gateIndex gateSource) d c r.2 :=
  ⟨fun hn => ((setGateSrc_step h).2 hn).everything,
    fun _ => (setGateSrc_step h).1.neutral (gate_neutral _ _), fun hd => setGateSrc_readable hd h⟩

def setsClockSrc (data : Nat → U32) : Prop := data 0 = insnConfigSetClockSrc

def losesPolarity (d : NiGpctDevice) (c : Nat) (data : Nat → U32) : Prop :=
  data 0 = insnConfigSetGateSrc ∧ PolarityLost d c (data 1) (data 2)

theorem insnConfig_acts {data reads : Nat → U32} {r : Int × (Nat → U32) × NiGpctDevice}
    (h : niTioInsnConfig d c data reads = .ok r) :
    Acts (setsClockSrc data) (losesPolarity d c data) d c r.2.2 := by
  unfold niTioInsnConfig at h
  split at h
  · obtain ⟨x, hx, h⟩ := bind_eq_ok h
    cases h
    exact acts_of_quiet (setCounterMode_step hx) (mode_quiet _)
  split at h
  · obtain ⟨x, hx, h⟩ := bind_eq_ok h
    cases h
    exact acts_of_quiet (arm_step hx) (arm_quiet _)
  split at h
  · obtain ⟨x, hx, h⟩ := bind_eq_ok h
    cases h
    exact acts_of_quiet (arm_step hx) (arm_quiet _)
  split at h
  · obtain ⟨x, hx, h⟩ := bind_eq_ok h
    cases h
    exact .refl _ _ d c
  split at h
  · obtain ⟨x, hx, h⟩ := bind_eq_ok h
    cases h
    exact ⟨fun _ => (setClockSrc_step hx).everything, fun hn => absurd ‹_› hn,
      fun hd => setClockSrc_readable hd hx⟩
  split at h
  · obtain ⟨x, hx, h⟩ := bind_eq_ok h
    cases h
    exact .refl _ _ d c
  split at h
  · obtain ⟨x, hx, h⟩ := bind_eq_ok h
    cases h
    exact (setGateSrc_acts hx).mono id fun hl => ⟨‹_›, hl⟩
  split at h
  · obtain ⟨x, hx, h⟩ := bind_eq_ok h
    cases h
    exact .refl _ _ d c
  split at h
  · obtain ⟨x, hx, h⟩ := bind_eq_ok h
    cases h
    exact acts_of_quiet (setOtherSrc_step hx) (other_quiet _)
  split at h
  · obtain ⟨x, hx, h⟩ := bind_eq_ok h
    cases h
    exact acts_of_quiet (resetCountAndDisarm_step countFootprint hx) (count_quiet _)
  cases h
  exact .refl _ _ d c

theorem startInput_acts {cmd : Cmd} {r : Int × NiGpctDevice}
    (h : startInput d c cmd = .ok r) : Acts clock lost d c r.2 := by
  unfold startInput at h
  split at h
  · exact acts_of_quiet (arm_step h) (arm_quiet _)
  split at h
  · cases h
    exact .refl _ _ d c
  split at h
  · exact acts_of_quiet (arm_step h) (arm_quiet _)
  split at h
  · cases h
    exact .refl _ _ d c
  cases h

theorem inputCmd_acts {cmd : Cmd} {r : Int × NiGpctDevice}
    (h : niTioInputCmd d c cmd = .ok r) : Acts clock lost d c r.2 := by
  obtain ⟨r₁, hr₁, h⟩ := bind_eq_ok h
  obtain ⟨-, rfl⟩ := giReg_eq_ok hr₁
  obtain ⟨d₁, h₁, h⟩ := bind_eq_ok h
  have s₁ := step_setBits countFootprint d c .command 0
    (show giSaveTraceBit &&& _ = 0 by decide)
  have s₂ := configureDma_step h₁
  exact ((acts_of_quiet s₁ (count_quiet _)).trans (acts_of_quiet s₂ (dma_quiet _))).trans (startInput_acts h)

theorem interrupt_step (d : NiGpctDevice) (c : Nat) (mask values : U32) :
    Step interruptFootprint d c
      (niTioSetBits d c ⟨.interruptEnable, (d.counters c).counterIndex⟩ mask values) :=
  step_setBits _ d c .interruptEnable values (by simp [interruptFootprint])

theorem setupGate_acts {cmd : Cmd} {r : Int × NiGpctDevice}
    (h : setupGate d c cmd = .ok r) : Acts clock lost d c r.2 := by
  unfold setupGate at h
  split at h
  · exact (setGateSrc_acts h).mono id fun hl => absurd hl.1 (by decide)
  · cases h
    exact .refl _ _ d c

theorem cmdSetup_acts {cmd : Cmd} {r : Int × NiGpctDevice}
    (h : niTioCmdSetup d c cmd = .ok r) : Acts clock lost d c r.2 := by
  obtain ⟨⟨ret, d₁⟩, hx, h⟩ := bind_eq_ok h
  have s₁ : Acts clock lost d c d₁ := setupGate_acts hx
  dsimp only at h
  split at h
  · obtain ⟨r₁, hr₁, h⟩ := bind_eq_ok h
    obtain ⟨-, rfl⟩ := giReg_eq_ok hr₁
    cases h
    exact s₁.trans (acts_of_quiet (interrupt_step _ _ _ _) (interrupt_quiet _))
  · cases h
    exact s₁

theorem cmd_acts {cmd : Cmd} {r : Int × NiGpctDevice}
    (h : niTioCmd d c cmd = .ok r) : Acts clock lost d c r.2 := by
  unfold niTioCmd at h
  split at h
  · cases h
    exact .refl _ _ d c
  obtain ⟨⟨ret, d₁⟩, hx, h⟩ := bind_eq_ok h
  have s₁ : Acts clock lost d c d₁ := cmdSetup_acts hx
  dsimp only at h
  split at h
  · cases h
    exact s₁
  split at h
  · cases h
    exact s₁
  exact s₁.trans (inputCmd_acts h)

theorem cancel_acts (h : niTioCancel d c = .ok d') : Acts clock lost d c d' := by
  obtain ⟨x, hx, h⟩ := bind_eq_ok h
  obtain ⟨d₁, h₁, h⟩ := bind_eq_ok h
  obtain ⟨r₁, hr₁, h⟩ := bind_eq_ok h
  obtain ⟨-, rfl⟩ := giReg_eq_ok hr₁
  cases h
  have s₁ : Acts clock lost d c x.2 := acts_of_quiet (arm_step hx) (arm_quiet _)
  exact (s₁.trans (acts_of_quiet (configureDma_step h₁) (dma_quiet _))).trans
    (acts_of_quiet (interrupt_step _ _ _ _) (interrupt_quiet _))

theorem inputInttrig_acts {trignum : U32} {r : Int × NiGpctDevice}
    (h : niTioInputInttrig d c trignum = .ok r) : Acts clock lost d c r.2 := by
  unfold niTioInputInttrig at h
  split at h
  · cases h
    exact .refl _ _ d c
  split at h
  · cases h
    exact .refl _ _ d c
  exact acts_of_quiet (arm_step h) (arm_quiet _)

/-- The calls that set the clock source of a counter. -/
def setsClock : TioCall → Prop
  | .initCounter => True
  | .insnConfig data _ => setsClockSrc data
  | _ => False

/-- The calls that change the polarity of a second gate and do not write it. -/
def loses (d : NiGpctDevice) (c : Nat) : TioCall → Prop
  | .insnConfig data _ => losesPolarity d c data
  | _ => False

theorem tioCall_acts {call : TioCall} (h : tioCall d c call = .ok d') :
    Acts (setsClock call) (loses d c call) d c d' := by
  cases call with
  | initCounter =>
    exact ⟨fun _ => initCounter_step h, fun hn => absurd trivial hn,
      fun hd => hd.zeroes (initCounter_zeroes h)⟩
  | insnConfig data reads =>
    obtain ⟨r, hr, h⟩ := bind_eq_ok (x := niTioInsnConfig d c data reads) h
    cases h
    exact insnConfig_acts hr
  | rinsn insn reads =>
    obtain ⟨r, hr, h⟩ := bind_eq_ok (x := niTioRinsn d c insn reads) h
    cases h
    exact acts_of_quiet (rinsn_step hr) (count_quiet _)
  | winsn insn data reads =>
    obtain ⟨r, hr, h⟩ := bind_eq_ok (x := niTioWinsn d c insn data reads) h
    cases h
    exact acts_of_quiet (winsn_step hr) (count_quiet _)
  | cmd cmd =>
    obtain ⟨r, hr, h⟩ := bind_eq_ok (x := niTioCmd d c cmd) h
    cases h
    exact cmd_acts hr
  | inttrig trignum =>
    obtain ⟨r, hr, h⟩ := bind_eq_ok (x := niTioInputInttrig d c trignum) h
    cases h
    exact inputInttrig_acts hr
  | cancel => exact cancel_acts h
  | setMiteChannel miteChan =>
    cases h
    have hs : Step countFootprint d c (niTioSetMiteChannel d c miteChan) :=
      step_setCounter _ d c rfl rfl fun _ => rfl
    exact acts_of_quiet hs (count_quiet _)

/-- A call stays on its chip, and leaves the indices of the counters. -/
theorem tioCall_touches {call : TioCall} (h : tioCall d c call = .ok d') :
    ∃ F, Touches F d c d' := by
  have ha := tioCall_acts h
  by_cases hl : loses d c call
  · refine ⟨_, ha.neutral fun hc => ?_⟩
    cases call with
    | insnConfig data reads =>
      rw [loses, losesPolarity, show data 0 = insnConfigSetClockSrc from hc] at hl
      exact absurd hl.1 (by decide)
    | _ => exact hl
  · exact ⟨_, (ha.step hl).toTouches⟩

end Comedi.NiTioCalls
