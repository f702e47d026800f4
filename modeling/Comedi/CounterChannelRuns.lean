import Comedi.CounterChannels
import Comedi.NiTioFaults
import Comedi.Tables

namespace Comedi.CounterChannelRuns

open RunState Requests Instructions ChanlistCheck SharedRegs CommandSteps CommandStarts CommandEnds
open LifeCycle GuardedRuns NiTio NiTioInsn NiTioCmd NiTioFootprints NiTioSteps NiTioGates
open NiTioCalls NiTioFaults CounterChannels
open RtTimer (trigNone trigFollow trigCount)
open Function (update)

section Registers

variable {d d' : NiGpctDevice} {c i : Nat} {cmd : Cmd} {F : Footprint}

/-- In the copies of the registers of the counters with the index `i`, DMA and the interrupt of
the gate are off. An e-series counter has no register for DMA. -/
structure Disabled (d : NiGpctDevice) (i : Nat) : Prop where
  ack : d.regs ⟨.inputSelect, i⟩ &&& (giReadAcknowledgesIrq ||| giWriteAcknowledgesIrq) = 0
  dma : d.variant ≠ .eSeries → d.regs ⟨.dmaConfig, i⟩ &&& (giDmaEnableBit ||| giDmaIntBit) = 0
  gate : d.regs ⟨.interruptEnable, i⟩ &&& giGateInterruptEnableBit i = 0

theorem Disabled.other (h : Disabled d i) (ht : Touches F d c d')
    (hi : i ≠ (d.counters c).counterIndex) : Disabled d' i := by
  have hregs : ∀ name, d'.regs ⟨name, i⟩ = d.regs ⟨name, i⟩ := fun name => ht.regs_eq (if_neg hi)
  refine ⟨?_, fun hv => ?_, ?_⟩
  · rw [hregs]
    exact h.ack
  · rw [hregs]
    exact h.dma (ht.variant ▸ hv)
  · rw [hregs]
    exact h.gate

theorem Disabled.arm (h : Disabled d i) (ht : Touches (armFootprint d.variant) d c d') :
    Disabled d' i := by
  refine ⟨?_, fun hv => ?_, ?_⟩
  · rw [ht.field (show _ &&& (0 : U32) = 0 from BitVec.and_zero) i]
    exact h.ack
  · rw [ht.field (show _ &&& (0 : U32) = 0 from BitVec.and_zero) i]
    exact h.dma (ht.variant ▸ hv)
  · rw [ht.field (show _ &&& (0 : U32) = 0 from BitVec.and_zero) i]
    exact h.gate

theorem configureDmaReg_returns {enable readNotWrite : Bool} (hx : Indexed d) :
    Returns (configureDmaReg d c enable readNotWrite) := by
  unfold configureDmaReg
  cases d.variant with
  | eSeries => exact returns_ok _
  | mSeries => exact (giReg_returns (hx.lt c)).bind fun _ _ => returns_ok _
  | ni660x => exact (giReg_returns (hx.lt c)).bind fun _ _ => returns_ok _

theorem configureDma_returns {enable readNotWrite : Bool} (hx : Indexed d) :
    Returns (niTioConfigureDma d c enable readNotWrite) := by
  refine (giReg_returns (hx.lt c)).bind fun r _ => configureDmaReg_returns ?_
  exact hx

theorem configureDmaReg_off (h : configureDmaReg d c false false = .ok d') :
    (∀ i, d'.regs ⟨.inputSelect, i⟩ = d.regs ⟨.inputSelect, i⟩) ∧
      (d.variant ≠ .eSeries → d'.regs ⟨.dmaConfig, (d.counters c).counterIndex⟩ &&&
        (giDmaEnableBit ||| giDmaIntBit) = 0) := by
  have hwrites : (do
      let reg ← nitioGiDmaConfigReg (d.counters c).counterIndex
      return niTioSetBits d c reg (giDmaEnableBit ||| giDmaIntBit ||| giDmaWriteBit)
        (0 ||| giDmaWriteBit) : Result NiGpctDevice) = .ok d' →
      (∀ i, d'.regs ⟨.inputSelect, i⟩ = d.regs ⟨.inputSelect, i⟩) ∧
        d'.regs ⟨.dmaConfig, (d.counters c).counterIndex⟩ &&&
          (giDmaEnableBit ||| giDmaIntBit) = 0 := by
    intro h
    obtain ⟨r, hr, h⟩ := bind_eq_ok h
    obtain ⟨-, rfl⟩ := giReg_eq_ok hr
    cases h
    refine ⟨fun i => ?_, ?_⟩
    · rw [niTioSetBits_regs, setBits_of_ne (by simp)]
    · rw [niTioSetBits_regs, setBits_self, and_setBits_of_subset (by decide)]
      decide
  unfold configureDmaReg at h
  cases hv : d.variant with
  | eSeries =>
    rw [hv] at h
    cases h
    exact ⟨fun _ => rfl, fun hn => absurd rfl hn⟩
  | mSeries =>
    rw [hv] at h
    exact ⟨(hwrites h).1, fun _ => (hwrites h).2⟩
  | ni660x =>
    rw [hv] at h
    exact ⟨(hwrites h).1, fun _ => (hwrites h).2⟩

/-- The end of a command turns off DMA and the interrupt of its counter. -/
theorem cancel_spec (hx : Indexed d) :
    ∃ d', niTioCancel d c = .ok d' ∧ Disabled d' (d.counters c).counterIndex ∧
      ∃ F, Touches F d c d' := by
  obtain ⟨⟨ret, d₁⟩, h₁⟩ : Returns (niTioArm d c false 0) := arm_returns hx
  have t₁ := (arm_step h₁).toTouches
  have hx₁ : Indexed d₁ := hx.touches t₁
  obtain ⟨d₂, h₂⟩ : Returns (niTioConfigureDma d₁ c false false) := configureDma_returns hx₁
  have t₂ := (configureDma_step h₂).toTouches
  have hi : (d₂.counters c).counterIndex = (d.counters c).counterIndex :=
    (t₂.counterIndex c).trans (t₁.counterIndex c)
  let i := (d₂.counters c).counterIndex
  let d₃ := niTioSetBits d₂ c ⟨.interruptEnable, i⟩ (giGateInterruptEnableBit i) 0x0
  have h₃ : niTioCancel d c = .ok d₃ := by
    unfold niTioCancel
    rw [bind_ok h₁]
    change (niTioConfigureDma d₁ c false false >>= _) = _
    rw [bind_ok h₂]
    change (nitioGiInterruptEnableReg i >>= _) = _
    rw [bind_ok (show nitioGiInterruptEnableReg i = _ from giReg_of_lt (hi.trans_lt (hx.lt c)))]
    rfl
  refine ⟨d₃, h₃, ?_, tioCall_touches (show tioCall d c .cancel = _ from h₃)⟩
  obtain ⟨r, hr, h₂⟩ := bind_eq_ok h₂
  obtain ⟨-, rfl⟩ := giReg_eq_ok hr
  obtain ⟨hselect, hdma⟩ := configureDmaReg_off h₂
  rw [← t₁.counterIndex c]
  refine ⟨?_, fun hv => ?_, ?_⟩
  · rw [niTioSetBits_regs, setBits_of_ne (by simp), hselect, niTioSetBits_regs, setBits_self,
      and_setBits_of_subset (by decide)]
    decide
  · rw [niTioSetBits_regs, setBits_of_ne (by simp)]
    exact hdma fun hn => hv (t₂.variant.trans hn)
  · rw [← t₂.counterIndex c, niTioSetBits_regs, setBits_self, and_setBits_of_subset (by simp [i])]
    exact BitVec.zero_and

/-- What `ni_tio_cmdtest` makes sure of for the start of a command. -/
theorem cmdtest_start {variant : NiGpctVariant} {cmd₀ : Cmd}
    (h : niTioCmdtest variant cmd₀ = (0, cmd)) :
    cmd.startSrc ∈ [trigNow, trigInt, trigExt, trigOther] ∧
      (cmd.startSrc = trigExt → niTioCountingModeRegistersPresent variant = true) := by
  unfold niTioCmdtest at h
  dsimp only at h
  split at h
  · cases h
  split at h
  · cases h
  next hsrc =>
  split at h
  · cases h
  cases h
  refine ⟨by_contra fun hn => hsrc (.inl hn), fun hext => by_contra fun hp => ?_⟩
  have hmask : ∀ x : U32, x &&& startSources variant ≠ trigExt := by
    intro x hx
    unfold startSources at hx
    rw [if_neg hp] at hx
    have hbit := congrArg (· &&& trigExt) hx
    rw [BitVec.and_assoc, show (trigNow ||| trigInt ||| trigOther) &&& trigExt = 0 by decide,
      show trigExt &&& trigExt = trigExt by decide, show x &&& (0 : U32) = 0 from BitVec.and_zero]
      at hbit
    exact absurd hbit (by decide)
  exact hmask _ hext

/-- The commands that a counter starts: they have a gate source that the variant has a code for,
they are for input, and the trigger that arms the counter is one that the variant selects by. -/
structure Accepted (variant : NiGpctVariant) (cmd : Cmd) : Prop where
  gate : ∀ gateSource, cmdGateSource cmd = some gateSource →
    crChan gateSource ∈ firstGates variant
  input : cmd.flags &&& cmdfWrite = 0
  trigger : cmd.startSrc = trigExt → armCountingModeBits variant cmd.startArg ≠ none

theorem setupGate_accepted (hx : Indexed d)
    (hg : ∀ gateSource, cmdGateSource cmd = some gateSource →
      crChan gateSource ∈ firstGates d.variant) : ∃ d', setupGate d c cmd = .ok (0, d') := by
  unfold setupGate
  split
  · next gateSource hgate =>
    obtain ⟨r, hr⟩ : Returns (niTioSetGateSrc d c 0 gateSource) := setGateSrc_returns hx
    rw [hr]
    cases setGateSrc_cases hr with
    | firstDisabled => exact ⟨_, rfl⟩
    | firstNone hne hs =>
      obtain ⟨s, hs'⟩ := firstGateSelect_finds (hg _ hgate) hne
      rw [hs] at hs'
      cases hs'
    | first => exact ⟨_, rfl⟩
    | other _ h₀ => exact absurd rfl h₀
  · exact ⟨d, rfl⟩

theorem cmdSetup_accepted (hx : Indexed d)
    (hg : ∀ gateSource, cmdGateSource cmd = some gateSource →
      crChan gateSource ∈ firstGates d.variant) :
    ∃ d', niTioCmdSetup d c cmd = .ok (0, d') := by
  obtain ⟨d₁, h₁⟩ := setupGate_accepted (c := c) hx hg
  have ha : Acts False False d c d₁ := setupGate_acts h₁
  have hi : (d₁.counters c).counterIndex < 4 := (hx.touches (ha.neutral id)).lt c
  unfold niTioCmdSetup
  rw [bind_ok h₁]
  dsimp only
  split
  · rw [bind_ok (show nitioGiInterruptEnableReg _ = _ from giReg_of_lt hi)]
    exact ⟨_, rfl⟩
  · exact ⟨d₁, rfl⟩

theorem arm_accepted (hx : Indexed d) {trigger : U32}
    (ht : armCountingModeBits d.variant trigger ≠ none) :
    ∃ d', niTioArm d c true trigger = .ok (0, d') := by
  have hcommand : ∀ d₁ transient, Indexed d₁ → ∃ d', armCommand d₁ c transient = .ok (0, d') := by
    intro d₁ transient hx₁
    unfold armCommand
    rw [bind_ok (show nitioGiCommandReg _ = _ from giReg_of_lt (hx₁.lt c))]
    exact ⟨_, rfl⟩
  unfold niTioArm
  dsimp only
  rw [if_pos rfl]
  split
  · split
    · next hn => exact absurd hn ht
    · rw [bind_ok (show nitioGiCountingModeReg _ = _ from giReg_of_lt (hx.lt c))]
      exact hcommand _ _ hx
  · exact hcommand _ _ hx

theorem startInput_accepted (hx : Indexed d)
    (hsrc : cmd.startSrc ∈ [trigNow, trigInt, trigExt, trigOther])
    (ht : cmd.startSrc = trigExt → armCountingModeBits d.variant cmd.startArg ≠ none) :
    ∃ d', startInput d c cmd = .ok (0, d') := by
  unfold startInput
  split
  · exact arm_accepted hx (by cases d.variant <;> decide)
  split
  · exact ⟨d, rfl⟩
  split
  · next hext => exact arm_accepted hx (ht hext)
  split
  · exact ⟨d, rfl⟩
  · simp_all

theorem niTioCmd_accepted (hx : Indexed d) (hm : (d.counters c).miteChan = true)
    (ha : Accepted d.variant cmd) (hsrc : cmd.startSrc ∈ [trigNow, trigInt, trigExt, trigOther]) :
    ∃ d', niTioCmd d c cmd = .ok (0, d') := by
  obtain ⟨d₁, h₁⟩ := cmdSetup_accepted (c := c) hx ha.gate
  have a₁ : Acts False False d c d₁ := cmdSetup_acts h₁
  have hx₁ := hx.touches (a₁.neutral id)
  unfold niTioCmd
  rw [if_neg (by rw [hm]; decide), bind_ok h₁]
  dsimp only
  rw [if_neg (not_not.mpr rfl), if_neg (not_not.mpr ha.input)]
  unfold niTioInputCmd
  rw [bind_ok (show nitioGiCommandReg _ = _ from giReg_of_lt (hx₁.lt c))]
  have s₂ := step_setBits countFootprint d₁ c .command 0
    (show giSaveTraceBit &&& _ = 0 by decide)
  have hx₂ := hx₁.touches s₂.toTouches
  obtain ⟨d₃, h₃⟩ : Returns (niTioConfigureDma _ c true true) := configureDma_returns hx₂
  rw [bind_ok h₃]
  have s₃ := (configureDma_step h₃).toTouches
  refine startInput_accepted (hx₂.touches s₃) hsrc fun hext => ?_
  rw [s₃.variant, s₂.variant, (a₁.neutral id).variant]
  exact ha.trigger hext

end Registers

section Channels

variable {g : Gpct} {others : Nat → Bool} {c c' ch : Nat}

/-- The channels that are allocated are those of the counters and those of the other subdevices,
and each of them belongs to one. -/
structure Owned (g : Gpct) (others : Nat → Bool) : Prop where
  allocated : ∀ ch, g.allocated ch = true ↔ others ch = true ∨ ∃ c, g.held c = some ch
  apart : ∀ c ch, g.held c = some ch → others ch = false
  single : ∀ c c' ch, g.held c = some ch → g.held c' = some ch → c = c'

theorem request_free (h : miteRequestChannel g = some ch) : g.allocated ch = false := by
  have hfree := List.find?_some h
  simpa using hfree

theorem Owned.request (h : Owned g others) (hc : g.held c = none) (hch : g.allocated ch = false) :
    Owned (setMiteChannel (setAllocated g ch true) c (some ch)) others := by
  have hnew : others ch = false ∧ ∀ c', g.held c' ≠ some ch := by
    have hn : ¬ (others ch = true ∨ ∃ c, g.held c = some ch) := fun hx => by
      rw [(h.allocated ch).mpr hx] at hch
      cases hch
    exact ⟨Bool.eq_false_iff.mpr fun ho => hn (.inl ho), fun c' hc' => hn (.inr ⟨c', hc'⟩)⟩
  have hheld : ∀ {c' ch'}, (setMiteChannel (setAllocated g ch true) c (some ch)).held c' = some ch' →
      c' = c ∧ ch = ch' ∨ c' ≠ c ∧ g.held c' = some ch' := Tables.update_some_eq.mp
  refine ⟨fun ch' => ?_, fun c' ch' h' => ?_, fun c₁ c₂ ch' h₁ h₂ => ?_⟩
  · change update g.allocated ch true ch' = true ↔ _
    by_cases he : ch' = ch
    · subst he
      rw [Function.update_self]
      exact ⟨fun _ => .inr ⟨c, Tables.update_some_eq.mpr (.inl ⟨rfl, rfl⟩)⟩, fun _ => rfl⟩
    · rw [Function.update_of_ne he, h.allocated ch']
      refine or_congr Iff.rfl (exists_congr fun c' => ?_)
      constructor
      · intro h'
        refine Tables.update_some_eq.mpr (.inr ⟨?_, h'⟩)
        rintro rfl
        rw [hc] at h'
        cases h'
      · intro h'
        obtain ⟨-, hx⟩ | ⟨-, h'⟩ := hheld h'
        · exact absurd hx.symm he
        · exact h'
  · obtain ⟨-, rfl⟩ | ⟨-, h'⟩ := hheld h'
    · exact hnew.1
    · exact h.apart c' ch' h'
  · obtain ⟨h₁, hx₁⟩ | ⟨-, h₁⟩ := hheld h₁
    · obtain ⟨h₂, -⟩ | ⟨-, h₂⟩ := hheld h₂
      · rw [h₁, h₂]
      · exact absurd h₂ (hx₁ ▸ hnew.2 c₂)
    · obtain ⟨-, hx₂⟩ | ⟨-, h₂⟩ := hheld h₂
      · exact absurd h₁ (hx₂ ▸ hnew.2 c₁)
      · exact h.single c₁ c₂ ch' h₁ h₂

theorem Owned.release (h : Owned g others) (c : Nat) : Owned (releaseMiteChannel g c) others := by
  unfold releaseMiteChannel
  cases hc : g.held c with
  | none => exact h
  | some ch =>
    have hheld : ∀ {c' ch'}, (setAllocated (setMiteChannel g c none) ch false).held c' = some ch' ↔
        c' ≠ c ∧ g.held c' = some ch' := Tables.update_none_eq
    refine ⟨fun ch' => ?_, fun c' ch' h' => h.apart c' ch' (hheld.mp h').2,
      fun c₁ c₂ ch' h₁ h₂ => h.single c₁ c₂ ch' (hheld.mp h₁).2 (hheld.mp h₂).2⟩
    change update g.allocated ch false ch' = true ↔ _
    by_cases he : ch' = ch
    · subst he
      rw [Function.update_self]
      refine ⟨(fun hx => nomatch hx), ?_⟩
      rintro (ho | ⟨c', hc'⟩)
      · rw [h.apart c ch' hc] at ho
        cases ho
      · exact absurd (h.single c' c ch' (hheld.mp hc').2 hc) (hheld.mp hc').1
    · rw [Function.update_of_ne he, h.allocated ch']
      refine or_congr Iff.rfl (exists_congr fun c' => ?_)
      refine ⟨fun h' => hheld.mpr ⟨?_, h'⟩, fun h' => (hheld.mp h').2⟩
      rintro rfl
      rw [hc] at h'
      exact he (Option.some.inj h').symm

theorem release_held (g : Gpct) (c : Nat) : (releaseMiteChannel g c).held c = none := by
  unfold releaseMiteChannel
  cases hc : g.held c with
  | none => exact hc
  | some ch => exact Function.update_self ..

theorem release_other (h : c' ≠ c) : (releaseMiteChannel g c).held c' = g.held c' := by
  unfold releaseMiteChannel
  cases g.held c with
  | none => rfl
  | some ch => exact Function.update_of_ne h ..

theorem release_dev (g : Gpct) (c : Nat) :
    (releaseMiteChannel g c).dev.regs = g.dev.regs ∧
      (releaseMiteChannel g c).dev.variant = g.dev.variant ∧
      ∀ c', ((releaseMiteChannel g c).dev.counters c').counterIndex =
        (g.dev.counters c').counterIndex := by
  unfold releaseMiteChannel
  cases g.held c with
  | none => exact ⟨rfl, rfl, fun _ => rfl⟩
  | some ch =>
    refine ⟨rfl, rfl, fun c' => ?_⟩
    change (update g.dev.counters c { g.dev.counters c with miteChan := false } c').counterIndex = _
    by_cases h : c' = c
    · rw [h, Function.update_self]
    · rw [Function.update_of_ne h]

end Channels

/-- No counter with the index `i` has a channel. -/
def Idle (g : Gpct) (i : Nat) : Prop := ∀ c, (g.dev.counters c).counterIndex = i → g.held c = none

/-- Only a counter whose command has not ended has a channel, each channel belongs to one user, and
where no counter of an index has a channel, DMA and the interrupt are off. -/
structure Sound (st : CounterBoard) : Prop where
  running : ∀ c, st.gpct.held c ≠ none → Running (st.subs c)
  owned : Owned st.gpct st.others
  disabled : ∀ i, Idle st.gpct i → Disabled st.gpct.dev i

/-- A command that the driver refuses leaves its counter without a channel, and with DMA and the
interrupt off. -/
def RefusedClean (st : CounterBoard) : CounterStep → Prop
  | .cmd c req file => ∀ ret st', cmdRequest st c req file = .ok (some ret, st') → ret ≠ 0 →
      st'.gpct.held c = none ∧ Disabled st'.gpct.dev (st.gpct.dev.counters c).counterIndex
  | _ => True

def Proper (st : CounterBoard) (x : CounterStep) : Prop :=
  RefusedClean st x ∧ ∃ st', counterStep st x = .ok st' ∧ Sound st'

/-- The driver is asked to start `cmd`. -/
def Asked (st : CounterBoard) (c : Nat) (req : CmdReq) (file : File) (cmd : Cmd) : Prop :=
  startedCmd (doCmdIoctl st.board (st.subs c) (withTest st req) file).2.2.2 = some cmd

/-- A command that the driver is asked to start finds a channel and is accepted, or it finds none
and no other counter of its index has one. -/
def Fits (st : CounterBoard) : CounterStep → Prop
  | .cmd c req file => ∀ cmd, Asked st c req file cmd →
      if (miteRequestChannel st.gpct).isSome then Accepted st.gpct.dev.variant cmd
      else Idle st.gpct (st.gpct.dev.counters c).counterIndex
  | _ => True

structure Inv (st : CounterBoard) : Prop extends Sound st where
  base : ∀ c, Base (st.subs c)
  indexed : Indexed st.gpct.dev

section Steps

variable {st st' : CounterBoard} {g g' : Gpct} {others : Nat → Bool} {c ch : Nat} {cmd : Cmd}
variable {s' : Subdevice} {b : Board} {req : CmdReq} {file : File}

/-- What a function of the driver for the counter `c` leaves alone. -/
structure GpctStep (g : Gpct) (c : Nat) (g' : Gpct) : Prop where
  index : ∀ c', (g'.dev.counters c').counterIndex = (g.dev.counters c').counterIndex
  variant : g'.dev.variant = g.dev.variant
  held : ∀ c', c' ≠ c → g'.held c' = g.held c'
  disabled : ∀ i, i ≠ (g.dev.counters c).counterIndex → Disabled g.dev i → Disabled g'.dev i

theorem GpctStep.refl (g : Gpct) (c : Nat) : GpctStep g c g :=
  ⟨fun _ => rfl, rfl, fun _ _ => rfl, fun _ _ h => h⟩

theorem GpctStep.of_touches {F : Footprint} {d : NiGpctDevice} (ht : Touches F g.dev c d) :
    GpctStep g c { g with dev := d } :=
  ⟨ht.counterIndex, ht.variant, fun _ _ => rfl, fun _ hi h => h.other ht hi⟩

theorem GpctStep.trans {g'' : Gpct} (h : GpctStep g c g') (h' : GpctStep g' c g'') :
    GpctStep g c g'' where
  index c' := (h'.index c').trans (h.index c')
  variant := h'.variant.trans h.variant
  held c' hc := (h'.held c' hc).trans (h.held c' hc)
  disabled i hi hd := h'.disabled i ((h.index c).symm ▸ hi) (h.disabled i hi hd)

theorem Disabled.congr {d d' : NiGpctDevice} {i : Nat} (h : Disabled d i) (hr : d'.regs = d.regs)
    (hv : d'.variant = d.variant) : Disabled d' i := by
  refine ⟨?_, fun hn => ?_, ?_⟩
  · rw [hr]
    exact h.ack
  · rw [hr]
    exact h.dma (hv ▸ hn)
  · rw [hr]
    exact h.gate

theorem indexed_step (h : Indexed g.dev) (hs : GpctStep g c g') : Indexed g'.dev := by
  intro c'
  rw [hs.index, hs.variant]
  exact h c'

/-- A step of the driver for one counter keeps the invariant if it does for that counter. -/
theorem Inv.step (h : Inv st) (hs : GpctStep st.gpct c g') (hbase : Base s')
    (howned : Owned g' st.others) (hrun : g'.held c ≠ none → Running s')
    (hoff : Idle g' (st.gpct.dev.counters c).counterIndex →
      Disabled g'.dev (st.gpct.dev.counters c).counterIndex) : Inv (setSub st c b s' g') := by
  refine ⟨⟨fun c' hc' => ?_, howned, fun i hi => ?_⟩, fun c' => ?_, indexed_step h.indexed hs⟩
  · change Running (update st.subs c s' c')
    by_cases he : c' = c
    · subst he
      rw [Function.update_self]
      exact hrun hc'
    · rw [Function.update_of_ne he]
      exact h.running c' (hs.held c' he ▸ hc')
  · by_cases he : i = (st.gpct.dev.counters c).counterIndex
    · subst he
      exact hoff hi
    · refine hs.disabled i he (h.disabled i fun c' hc' => ?_)
      have hne : c' ≠ c := fun hx => he (by rw [← hc', hx])
      rw [← hs.held c' hne]
      exact hi c' ((hs.index c').trans hc')
  · change Base (update st.subs c s' c')
    by_cases he : c' = c
    · subst he
      rw [Function.update_self]
      exact hbase
    · rw [Function.update_of_ne he]
      exact h.base c'

/-- The driver's end of a command. -/
theorem counterCancel_spec (hx : Indexed g.dev) (ho : Owned g others) (c : Nat) :
    ∃ g', counterCancel g c = .ok g' ∧ GpctStep g c g' ∧ Owned g' others ∧ g'.held c = none ∧
      Disabled g'.dev (g.dev.counters c).counterIndex := by
  obtain ⟨d₁, h₁, hoff, F, ht⟩ := cancel_spec (c := c) hx
  obtain ⟨hregs, hvar, hidx⟩ := release_dev { g with dev := d₁ } c
  have hrel : GpctStep { g with dev := d₁ } c (releaseMiteChannel { g with dev := d₁ } c) :=
    ⟨hidx, hvar, fun _ hc' => release_other hc', fun _ _ hd => hd.congr hregs hvar⟩
  have ho₁ : Owned { g with dev := d₁ } others := ⟨ho.allocated, ho.apart, ho.single⟩
  refine ⟨releaseMiteChannel { g with dev := d₁ } c, ?_, (GpctStep.of_touches ht).trans hrel,
    ho₁.release c, release_held _ c, hoff.congr hregs hvar⟩
  unfold counterCancel
  rw [bind_ok h₁]
  rfl

theorem setMiteChannel_step (g : Gpct) (c : Nat) (ch : Option Nat) :
    GpctStep g c (setMiteChannel g c ch) := by
  refine ⟨fun c' => ?_, rfl, fun c' hc' => Function.update_of_ne hc' .., fun _ _ hd => hd.congr rfl rfl⟩
  change (update g.dev.counters c { g.dev.counters c with miteChan := ch.isSome } c').counterIndex = _
  by_cases h : c' = c
  · rw [h, Function.update_self]
  · rw [Function.update_of_ne h]

theorem requestMiteChannel_eq (hc : g.held c = none) :
    ni660xRequestMiteChannel g c =
      match miteRequestChannel g with
      | none => .ok (-ebusy, g)
      | some ch => .ok (0, setMiteChannel (setAllocated g ch true) c (some ch)) :=
  if_neg (by rw [hc]; decide)

/-- On both kinds of boards the channel is requested in the same way. -/
theorem counterCmd_eq (hx : Indexed g.dev) (c : Nat) (cmd : Cmd) :
    counterCmd g c cmd = gpctCmd ni660xRequestMiteChannel g c cmd := by
  have hi := hx c
  have hmio : g.dev.variant ≠ .ni660x → niGpctCmd g c cmd = gpctCmd ni660xRequestMiteChannel g c cmd := by
    intro hv
    rw [if_neg hv] at hi
    have hreq : niRequestGpctMiteChannel g c = ni660xRequestMiteChannel g c :=
      if_neg (Nat.not_le.mpr hi)
    unfold niGpctCmd gpctCmd
    rw [hreq]
  unfold counterCmd
  cases hv : g.dev.variant with
  | ni660x => rfl
  | eSeries => exact hmio fun hn => by rw [hv] at hn; cases hn
  | mSeries => exact hmio fun hn => by rw [hv] at hn; cases hn

theorem counterCmd_busy (hx : Indexed g.dev) (hc : g.held c = none)
    (hch : miteRequestChannel g = none) : counterCmd g c cmd = .ok ({ ret := -ebusy }, g) := by
  rw [counterCmd_eq hx, gpctCmd, requestMiteChannel_eq hc, hch]
  rfl

theorem counterCmd_starts (hx : Indexed g.dev) (ho : Owned g others) (hc : g.held c = none)
    (hch : miteRequestChannel g = some ch) (ha : Accepted g.dev.variant cmd)
    (hsrc : cmd.startSrc ∈ [trigNow, trigInt, trigExt, trigOther]) :
    ∃ ans g', counterCmd g c cmd = .ok (ans, g') ∧ ans.ret = 0 ∧ GpctStep g c g' ∧
      Owned g' others ∧ g'.held c = some ch := by
  let g₁ := setMiteChannel (setAllocated g ch true) c (some ch)
  have s₀ : GpctStep g c (setAllocated g ch true) := ⟨fun _ => rfl, rfl, fun _ _ => rfl, fun _ _ h => h⟩
  have s₁ : GpctStep g c g₁ := s₀.trans (setMiteChannel_step _ c (some ch))
  have hx₁ : Indexed g₁.dev := indexed_step hx s₁
  have hm : (g₁.dev.counters c).miteChan = true := by
    change (update g.dev.counters c _ c).miteChan = true
    rw [Function.update_self]
    rfl
  obtain ⟨d, hd⟩ := niTioCmd_accepted hx₁ hm (s₁.variant ▸ ha) hsrc
  have acts : Acts False False g₁.dev c d := cmd_acts hd
  have ho₁ := ho.request hc (request_free hch)
  refine ⟨{ ret := 0, inttrig := if (0 : Int) = 0 ∧ cmd.startSrc = trigInt then some inputInttrig else none },
    { g₁ with dev := d }, ?_, rfl, s₁.trans (.of_touches (acts.neutral id)),
    ⟨ho₁.allocated, ho₁.apart, ho₁.single⟩, Function.update_self ..⟩
  rw [counterCmd_eq hx, gpctCmd, requestMiteChannel_eq hc, hch]
  change (niTioCmd g₁.dev c cmd >>= _) = _
  rw [bind_ok hd]
  rfl

/-- `COMEDI_CMD` on a counter. -/
theorem cmdRequest_step (h : Inv st) (hfit : Fits st (.cmd c req file)) :
    RefusedClean st (.cmd c req file) ∧
      ∃ ret st', cmdRequest st c req file = .ok (ret, st') ∧ Inv st' := by
  have hheld : (st.subs c).busy = none → st.gpct.held c = none := fun hb =>
    by_contra fun hne => (h.base c).not_running hb (h.running c hne)
  cases hask : startedCmd (doCmdIoctl st.board (st.subs c) (withTest st req) file).2.2.2 with
  | none =>
    obtain ⟨r, hr, hbase, hsame⟩ := (h.base c).unasked (counterCmd st.gpct c) hask
    have hreq : cmdRequest st c req file = .ok (none, setSub st c r.2.1 r.2.2.1 st.gpct) := by
      unfold cmdRequest
      rw [bind_ok hr]
      rfl
    refine ⟨fun ret st' hr => ?_, none, _, hreq, ?_⟩
    · rw [hreq] at hr
      cases hr
    · refine h.step (.refl _ c) hbase h.owned (fun hne => ?_) (h.disabled _)
      rw [hsame (.inl (h.running c hne))]
      exact h.running c hne
  | some cmd =>
    have hnone := hheld (startedCmd_idle hask)
    obtain ⟨cmd₀, htest⟩ := startedCmd_tested hask
    have hfit := hfit cmd hask
    have hans : ∀ ans g', counterCmd st.gpct c cmd = .ok (ans, g') →
        ∃ r : CmdResult, cmdRequest st c req file = .ok (some r.1, setSub st c r.2.1 r.2.2.1 g') ∧
          r.1 = ans.ret ∧ Base r.2.2.1 ∧ (ans.ret = 0 → Running r.2.2.1) := by
      intro ans g' hs
      obtain ⟨r, hr, hval, hbase, -, hrun⟩ := (h.base c).asked hask hs
      refine ⟨r, ?_, hval, hbase, fun h0 => (hrun h0).1⟩
      unfold cmdRequest
      rw [bind_ok hr]
      rfl
    cases hch : miteRequestChannel st.gpct with
    | none =>
      rw [hch] at hfit
      obtain ⟨r, hreq, hval, hbase, -⟩ := hans _ _ (counterCmd_busy h.indexed hnone hch)
      have hoff := h.disabled _ hfit
      refine ⟨fun ret st' hr _ => ?_, _, _, hreq, ?_⟩
      · rw [hreq] at hr
        cases hr
        exact ⟨hnone, hoff⟩
      · exact h.step (.refl _ c) hbase h.owned (fun hne => absurd hnone hne) fun _ => hoff
    | some ch =>
      rw [hch] at hfit
      obtain ⟨ans, g', hs, hret, hstep, howned, hheld'⟩ := counterCmd_starts h.indexed h.owned hnone
        hch hfit (cmdtest_start htest).1
      obtain ⟨r, hreq, hval, hbase, hrun⟩ := hans _ _ hs
      refine ⟨fun ret st' hr hne => ?_, _, _, hreq, ?_⟩
      · rw [hreq] at hr
        cases hr
        exact absurd (hval.trans hret) hne
      · refine h.step hstep hbase howned (fun _ => hrun hret) fun hidle => ?_
        rw [hidle c (hstep.index c)] at hheld'
        cases hheld'

/-- The trigger arms the counter, which turns nothing on. -/
theorem inttrig_step (hx : Indexed g.dev) (c : Nat) (trignum : U32) :
    ∃ r, niTioInputInttrig g.dev c trignum = .ok r ∧ GpctStep g c { g with dev := r.2 } ∧
      ∀ i, Disabled g.dev i → Disabled r.2 i := by
  unfold niTioInputInttrig
  split
  · exact ⟨_, rfl, .refl g c, fun _ hd => hd⟩
  split
  · exact ⟨_, rfl, .refl g c, fun _ hd => hd⟩
  · obtain ⟨r, hr⟩ : Returns (niTioArm g.dev c true niGpctArmImmediate) := arm_returns hx
    have ht := (arm_step hr).toTouches
    exact ⟨r, hr, .of_touches ht, fun i hd => hd.arm ht⟩

theorem inttrigRequest_step (h : Inv st) (c : Nat) (trignum : U32) :
    ∃ st', inttrigRequest st c trignum = .ok st' ∧ Inv st' := by
  unfold inttrigRequest
  cases hfn : (st.subs c).async.bind (·.inttrig) with
  | none => exact ⟨st, rfl, h⟩
  | some fn =>
    obtain ⟨⟨ret, d⟩, hr, hstep, hoff⟩ := inttrig_step h.indexed c trignum
    obtain ⟨a, ha, hat⟩ := armed_fn hfn
    let ans : Answer := { ret := ret, inttrig := inttrigLeft st.gpct.dev c trignum }
    have hsub : (inttrigInsn (st.subs c) trignum ans).2.1 = setInttrig (st.subs c) ans.inttrig := by
      unfold inttrigInsn
      simp only [ha, hat]
    dsimp only
    rw [bind_ok hr]
    refine ⟨_, rfl, ?_⟩
    refine h.step hstep ?_ ⟨h.owned.allocated, h.owned.apart, h.owned.single⟩ (fun hne => ?_)
      fun hidle => hoff _ (h.disabled _ fun c' hc' => ?_)
    · rw [hsub]
      exact (h.base c).setInttrig ha hat _
    · rw [hsub]
      exact h.running c hne
    · exact hidle c' ((hstep.index c').trans hc')

theorem cancelRequest_step (h : Inv st) (c : Nat) (file : File) :
    ∃ st', cancelRequest st c file = .ok st' ∧ Inv st' := by
  unfold cancelRequest
  obtain ⟨hs, hcalls⟩ | ⟨-, hs, hcalls⟩ := cancel_cases st.board (h.base c).cancel file
  · dsimp only
    rw [hcalls, hs]
    exact ⟨_, rfl, h.step (.refl _ c) (h.base c) h.owned (h.running c) (h.disabled _)⟩
  · dsimp only
    rw [hs]
    by_cases hcall : callsCancel (doCancelIoctl st.board (st.subs c) {} file).2.2.2 = true
    · obtain ⟨g', hg, hstep, howned, hnone, hoff⟩ := counterCancel_spec h.indexed h.owned c
      rw [if_pos hcall, bind_ok hg]
      exact ⟨_, rfl, h.step hstep (h.base c).released howned (fun hne => absurd hnone hne)
        fun _ => hoff⟩
    · rw [if_neg hcall]
      refine ⟨_, rfl, h.step (.refl _ c) (h.base c).released h.owned (fun hne => ?_) (h.disabled _)⟩
      exact absurd (hcalls (h.running c hne)) hcall

theorem handleGpctInterrupt_step (h : Inv st) (c : Nat) (events : U32) :
    ∃ st', handleGpctInterrupt st c events = .ok st' ∧ Inv st' := by
  unfold handleGpctInterrupt
  by_cases hp : pending (raised (st.subs c) events) = 0
  · dsimp only
    rw [if_pos hp, raised_quiet hp]
    exact ⟨_, rfl, h.step (.refl _ c) (h.base c) h.owned (h.running c) (h.disabled _)⟩
  obtain ⟨hbase, hrun⟩ := (h.base c).event st.board events
  dsimp only
  rw [if_neg hp]
  by_cases hends : pending (raised (st.subs c) events) &&& endMask ≠ 0
  · obtain ⟨g', hg, hstep, howned, hnone, hoff⟩ := counterCancel_spec h.indexed h.owned c
    rw [if_pos hends, bind_ok hg]
    exact ⟨_, rfl, h.step hstep hbase howned (fun hne => absurd hnone hne) fun _ => hoff⟩
  · rw [if_neg hends]
    refine ⟨_, rfl, h.step (.refl _ c) hbase h.owned (fun hne => ?_) (h.disabled _)⟩
    have hr := h.running c hne
    rw [pending_raised (h.base c) hr] at hends
    exact hrun.mpr ⟨hr, not_not.mp hends⟩

/-- The other subdevices of the board take channels that nobody has, and give back their own. -/
theorem otherRequest_inv (h : Inv st) : Inv (otherRequest st) := by
  unfold otherRequest
  cases hch : miteRequestChannel st.gpct with
  | none => exact h
  | some ch =>
    have hfree : ∀ c, st.gpct.held c ≠ some ch := fun c hc => by
      have hall := (h.owned.allocated ch).mpr (.inr ⟨c, hc⟩)
      rw [request_free hch] at hall
      cases hall
    refine ⟨⟨h.running, ⟨fun ch' => ?_, fun c ch' hc => ?_, h.owned.single⟩, fun i hi => ?_⟩,
      h.base, h.indexed⟩
    · change update st.gpct.allocated ch true ch' = true ↔ update st.others ch true ch' = true ∨ _
      by_cases he : ch' = ch
      · subst he
        rw [Function.update_self, Function.update_self]
        exact ⟨fun _ => .inl rfl, fun _ => rfl⟩
      · rw [Function.update_of_ne he, Function.update_of_ne he]
        exact h.owned.allocated ch'
    · have hne : ch' ≠ ch := fun he => hfree c (he ▸ hc)
      change update st.others ch true ch' = false
      rw [Function.update_of_ne hne]
      exact h.owned.apart c ch' hc
    · exact (h.disabled i hi).congr rfl rfl

theorem otherRelease_inv (h : Inv st) (ch : Nat) : Inv (otherRelease st ch) := by
  unfold otherRelease
  split
  · next ho =>
    have hfree : ∀ c, st.gpct.held c ≠ some ch := fun c hc => by
      rw [h.owned.apart c ch hc] at ho
      cases ho
    refine ⟨⟨h.running, ⟨fun ch' => ?_, fun c ch' hc => ?_, h.owned.single⟩, fun i hi => ?_⟩,
      h.base, h.indexed⟩
    · change update st.gpct.allocated ch false ch' = true ↔ update st.others ch false ch' = true ∨ _
      by_cases he : ch' = ch
      · subst he
        rw [Function.update_self, Function.update_self]
        refine ⟨(fun hx => nomatch hx), ?_⟩
        rintro (hx | ⟨c, hc⟩)
        · cases hx
        · exact absurd hc (hfree c)
      · rw [Function.update_of_ne he, Function.update_of_ne he]
        exact h.owned.allocated ch'
    · have hne : ch' ≠ ch := fun he => hfree c (he ▸ hc)
      change update st.others ch false ch' = false
      rw [Function.update_of_ne hne]
      exact h.owned.apart c ch' hc
    · exact (h.disabled i hi).congr rfl rfl
  · exact h

theorem counterStep_step (h : Inv st) (x : CounterStep) (hfit : Fits st x) :
    RefusedClean st x ∧ ∃ st', counterStep st x = .ok st' ∧ Inv st' := by
  cases x with
  | cmd c req file =>
    obtain ⟨hclean, ret, st', hok, hinv⟩ := cmdRequest_step h hfit
    refine ⟨hclean, st', ?_, hinv⟩
    change (·.2) <$> cmdRequest st c req file = _
    rw [hok]
    rfl
  | inttrig c trignum => exact ⟨trivial, inttrigRequest_step h c trignum⟩
  | cancel c file => exact ⟨trivial, cancelRequest_step h c file⟩
  | interrupt c events => exact ⟨trivial, handleGpctInterrupt_step h c events⟩
  | otherRequest => exact ⟨trivial, _, rfl, otherRequest_inv h⟩
  | otherRelease ch => exact ⟨trivial, _, rfl, otherRelease_inv h ch⟩

end Steps

/-- A board on which no command has been started yet. -/
structure Attached (st : CounterBoard) : Prop where
  subs : ∀ c, Untouched (st.subs c) ∧ (st.subs c).cancel = true
  indexed : Indexed st.gpct.dev
  held : ∀ c, st.gpct.held c = none
  allocated : ∀ ch, st.gpct.allocated ch = st.others ch
  disabled : ∀ i, Disabled st.gpct.dev i

theorem Attached.inv {st : CounterBoard} (h : Attached st) : Inv st where
  running c hc := absurd (h.held c) hc
  owned := by
    have hheld : ∀ c ch, st.gpct.held c ≠ some ch := fun c ch hc => by
      rw [h.held c] at hc
      cases hc
    refine ⟨fun ch => ?_, fun c ch hc => absurd hc (hheld c ch),
      fun c _ ch hc => absurd hc (hheld c ch)⟩
    rw [h.allocated ch]
    exact ⟨.inl, fun ho => ho.resolve_right fun ⟨c, hc⟩ => hheld c ch hc⟩
  disabled i _ := h.disabled i
  base c := ⟨⟨none, (h.subs c).1.orderly⟩, (h.subs c).2, fun hr => absurd (h.subs c).1.running hr⟩
  indexed := h.indexed

/-- Over any run of requests and interrupts in which each command that the driver is asked for is
accepted, or finds no channel while no counter of its index has one, no `BUG_ON` is reached, no
channel is lost, and a refused command leaves nothing on. -/
theorem channels_kept (st : CounterBoard) (hst : Attached st) (xs : List CounterStep)
    (hfit : AllFit counterStep Fits st xs) :
    AllFit counterStep Proper st xs ∧
      ∃ st', GuardedRuns.run counterStep st xs = .ok st' ∧ Sound st' := by
  refine ⟨hfit.of_invariant Inv (fun st₁ x st₂ h hx hok => ?_) (fun st₁ x h hx => ?_) hst.inv, ?_⟩
  · obtain ⟨-, st', hok', hinv⟩ := counterStep_step h x hx
    rw [hok'] at hok
    cases hok
    exact hinv
  · obtain ⟨hclean, st', hok', hinv⟩ := counterStep_step h x hx
    exact ⟨hclean, st', hok', hinv.toSound⟩
  · obtain ⟨st', hrun, hinv⟩ := run_total Inv
      (fun st₁ x h hx => (counterStep_step h x hx).2) hst.inv hfit
    exact ⟨st', hrun, hinv.toSound⟩

def freshCounters (variant : NiGpctVariant) : CounterBoard where
  subs _ := duplex
  gpct := { dev := newBoard variant, numChannels := 4 }

theorem freshCounters_attached (variant : NiGpctVariant) : Attached (freshCounters variant) where
  subs _ := ⟨duplex_untouched, rfl⟩
  indexed := (constructed_newBoard variant).lt
  held _ := rfl
  allocated _ := rfl
  disabled _ := ⟨BitVec.zero_and, fun _ => BitVec.zero_and, BitVec.zero_and⟩

/-- A command that takes a value at each event of its gate. -/
def gated (gateSource : U32) : CmdReq where
  cmd :=
    { startSrc := trigNow, scanBeginSrc := trigFollow, convertSrc := trigExt,
      convertArg := gateSource, scanEndSrc := trigCount, scanEndArg := 1, stopSrc := trigNone,
      chanlistLen := 1 }
  entries := some fun _ => 0
  test := cmdtest .ni660x

theorem channels_kept_gate_pin :
    let xs : List CounterStep := [.cmd 0 (gated niGpctGatePinIGateSelect) 0, .cancel 0 0]
    AllFit counterStep Proper (freshCounters .ni660x) xs ∧
      ∃ st', GuardedRuns.run counterStep (freshCounters .ni660x) xs = .ok st' ∧ Sound st' := by
  refine channels_kept (freshCounters .ni660x) (freshCounters_attached _) _
    ⟨fun cmd hask => ?_, fun _ _ => ⟨trivial, fun _ _ => trivial⟩⟩
  have hcmd : some { (gated niGpctGatePinIGateSelect).cmd with chanlist := .kernel [0] } = some cmd :=
    hask
  cases hcmd
  refine ⟨fun gateSource hg => ?_, by decide, fun hext => absurd hext (by decide)⟩
  obtain rfl : niGpctGatePinIGateSelect = gateSource := Option.some.inj hg
  decide

/-- A command with a gate source that has no code is refused, and keeps its channel: the next one
reaches `BUG_ON(counter->mite_chan)`. -/
theorem refused_command_keeps_channel :
    ∃ st', cmdRequest (freshCounters .ni660x) 0 (gated 0x300) 0 = .ok (some (-einval), st') ∧
      st'.gpct.held 0 = some 0 ∧ ¬ Running (st'.subs 0) ∧
      counterStep st' (.cmd 0 (gated 0x300) 0) = .error .bug := by
  refine ⟨_, rfl, rfl, ?_, rfl⟩
  unfold Running
  decide

end Comedi.CounterChannelRuns
