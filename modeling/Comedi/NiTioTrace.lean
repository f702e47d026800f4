import Comedi.NiTioCalls

namespace Comedi.NiTioTrace

open Instructions ChanlistCheck SharedRegs NiTio NiTioInsn NiTioCmd GuardedRuns
open NiTioFootprints NiTioSteps NiTioClock
open Function (update)

/-- The copies, what was last written to the registers, and the periods are the same. -/
structure NoTrace (d d' : NiGpctDevice) : Prop where
  regs : d'.regs = d.regs
  written : d'.written = d.written
  period : ∀ c, (d'.counters c).clockPeriodPs = (d.counters c).clockPeriodPs

/-- A register of the counter has the value, in the copy and as last written. -/
def Holds (d : NiGpctDevice) (c : Nat) (r : NiGpctRegister) (value : U32) : Prop :=
  d.regs r = value ∧ d.written (d.counters c).chipIndex r = some value

variable {d d' : NiGpctDevice} {c : Nat} {r : NiGpctRegister} {v mask values : U32}

theorem NoTrace.refl (d : NiGpctDevice) : NoTrace d d := ⟨rfl, rfl, fun _ => rfl⟩

theorem setRegister_of_ne (d : NiGpctDevice) (c : Nat) (v : U32) {r r' : NiGpctRegister}
    (h : r' ≠ r) : (setRegister d c r v).regs r' = d.regs r' ∧
      (setRegister d c r v).written (d.counters c).chipIndex r' =
        d.written (d.counters c).chipIndex r' :=
  ⟨Function.update_of_ne h _ _, writeRegister_of_ne _ c v h⟩

/-- A write to a register that nothing else was done to. -/
theorem noTrace_setRegister (hregs : d'.regs r = d.regs r)
    (hwritten : d'.written (d.counters c).chipIndex r = d.written (d.counters c).chipIndex r)
    (hchip : (d'.counters c).chipIndex = (d.counters c).chipIndex) :
    NoTrace d (setRegister d' c r v) ↔ NoTrace d d' ∧ Holds d c r v := by
  constructor
  · intro h
    have hr : ∀ r', (setRegister d' c r v).regs r' = d.regs r' := congrFun h.regs
    have hw : ∀ chip r', (setRegister d' c r v).written chip r' = d.written chip r' :=
      fun chip => congrFun (congrFun h.written chip)
    refine ⟨⟨?_, ?_, h.period⟩, ?_, ?_⟩
    · funext r'
      by_cases he : r' = r
      · rw [he, hregs]
      · rw [← hr r']
        exact (Function.update_of_ne he _ _).symm
    · funext chip r'
      by_cases hc : chip = (d.counters c).chipIndex
      · by_cases he : r' = r
        · rw [hc, he, hwritten]
        · rw [← hw chip r', hc, ← hchip]
          exact (writeRegister_of_ne _ c v he).symm
      · rw [← hw chip r']
        exact congrFun (writeRegister_otherChip _ c v r (by rw [← hchip] at hc; exact hc)).symm r'
    · rw [← hr r]
      exact Function.update_self _ _ _
    · rw [← hw, ← hchip]
      exact writeRegister_self _ c v r
  · rintro ⟨h, hr, hw⟩
    refine ⟨?_, ?_, h.period⟩
    · change update d'.regs r v = d.regs
      rw [h.regs, ← hr, Function.update_eq_self]
    · funext chip r'
      by_cases hc : chip = (d.counters c).chipIndex
      · subst hc
        by_cases he : r' = r
        · subst he
          rw [hw, ← hchip]
          exact writeRegister_self _ c v r'
        · rw [← hchip, ← h.written]
          exact writeRegister_of_ne _ c v he
      · rw [← h.written]
        exact congrFun (writeRegister_otherChip _ c v r (by rw [← hchip] at hc; exact hc)) r'

theorem setBits_eq_setRegister (d : NiGpctDevice) (c : Nat) (r : NiGpctRegister)
    (mask values : U32) : niTioSetBits d c r mask values =
      setRegister d c r (d.regs r &&& ~~~mask ||| values &&& mask) := by
  have h0 : ∀ x : U32, x ||| 0x0 = x := fun x => BitVec.or_zero
  rw [niTioSetBits, niTioSetBitsTransient, h0]
  unfold setRegister setBits
  dsimp only
  rw [Function.update_self]

/-- The bits of a register of the counter are as they would be set, and the register holds its
copy. -/
def Shows (d : NiGpctDevice) (c : Nat) (name : RegName) (mask values : U32) : Prop :=
  let r : NiGpctRegister := ⟨name, (d.counters c).counterIndex⟩
  d.regs r &&& mask = values &&& mask ∧
    d.written (d.counters c).chipIndex r = some (d.regs r)

theorem noTrace_setBits (d : NiGpctDevice) (c : Nat) (name : RegName) (mask values : U32) :
    NoTrace d (niTioSetBits d c ⟨name, (d.counters c).counterIndex⟩ mask values) ↔
      Shows d c name mask values := by
  rw [setBits_eq_setRegister, noTrace_setRegister rfl rfl rfl]
  constructor
  · rintro ⟨-, hr, hw⟩
    refine ⟨set_eq_self_iff.mp hr.symm, ?_⟩
    rw [hw, ← hr]
  · rintro ⟨hr, hw⟩
    have he := (set_eq_self_iff.mpr hr).symm
    refine ⟨.refl d, he, ?_⟩
    rw [← he]
    exact hw

/-- The source and the subselect bit that a clock source asks for are in the registers. -/
def SourceKept (d : NiGpctDevice) (c : Nat) (clockSource : U32) : Prop :=
  (∀ code, clockCode d.variant (selectOf clockSource) = .ok code →
    Shows d c .inputSelect (giSourceSelectMask ||| giSourcePolarityBit)
      (clockInputSelectBits (giSourceSelectBits code) clockSource)) ∧
    ∀ x, subselectValue d.variant clockSource
      (d.regs ⟨.secondGate, (d.counters c).counterIndex⟩) = some x →
        Holds d c ⟨.secondGate, (d.counters c).counterIndex⟩ x

/-- The polarity that a gate asks for is in the registers, for the first gate with the gating. -/
def GateKept (d : NiGpctDevice) (c : Nat) (gateIndex gateSource : U32) : Prop :=
  (gateIndex = 0 → Shows d c .mode (giGatePolarityBit ||| giGatingModeMask)
    (gateModifierBits gateSource)) ∧
    (gateIndex = 1 → niTioSecondGateRegistersPresent d.variant = true →
      secondGatePolarityValue gateSource (d.regs ⟨.secondGate, (d.counters c).counterIndex⟩) =
        d.regs ⟨.secondGate, (d.counters c).counterIndex⟩)

theorem setSource_secondGate (d : NiGpctDevice) (c : Nat) (code clockSource : U32) :
    (setSource d c code clockSource).regs ⟨.secondGate, (d.counters c).counterIndex⟩ =
        d.regs ⟨.secondGate, (d.counters c).counterIndex⟩ ∧
      (setSource d c code clockSource).written (d.counters c).chipIndex
          ⟨.secondGate, (d.counters c).counterIndex⟩ =
        d.written (d.counters c).chipIndex ⟨.secondGate, (d.counters c).counterIndex⟩ := by
  have hne : (⟨.secondGate, (d.counters c).counterIndex⟩ : NiGpctRegister) ≠
      ⟨.inputSelect, (d.counters c).counterIndex⟩ := by simp
  rw [setSource, setBits_eq_setRegister]
  exact setRegister_of_ne d c _ hne

theorem setClockSrc_noTrace_iff {clockSource periodNs : U32} {r : Int × NiGpctDevice}
    (h : niTioSetClockSrc d c clockSource periodNs = .ok r) (hr : r.1 ≠ 0) :
    NoTrace d r.2 ↔ SourceKept d c clockSource := by
  obtain ⟨-, code, d₁, hc, h₁, hset⟩ := setClockSrc_cases h
  have he : r.2 = d₁ := by
    cases hset with
    | refused => rfl
    | prescaled => exact absurd rfl hr
    | plain => exact absurd rfl hr
  have hcode : SourceKept d c clockSource ↔ NoTrace d (setSource d c code clockSource) ∧ ∀ x,
      subselectValue d.variant clockSource
        (d.regs ⟨.secondGate, (d.counters c).counterIndex⟩) = some x →
          Holds d c ⟨.secondGate, (d.counters c).counterIndex⟩ x := by
    rw [setSource, noTrace_setBits]
    refine and_congr_left fun _ => ⟨fun hk => hk code hc, fun hk code' hc' => ?_⟩
    rw [hc] at hc'
    cases hc'
    exact hk
  obtain ⟨hregs, hwritten⟩ := setSource_secondGate d c code clockSource
  rw [he, hcode]
  rcases setSourceSubselect_cases h₁ with ⟨hx, heq⟩ | ⟨x, hx, heq⟩
  · change subselectValue d.variant clockSource ((setSource d c code clockSource).regs
      ⟨.secondGate, (d.counters c).counterIndex⟩) = none at hx
    rw [hregs] at hx
    rw [heq, hx]
    simp
  · change subselectValue d.variant clockSource ((setSource d c code clockSource).regs
      ⟨.secondGate, (d.counters c).counterIndex⟩) = some x at hx
    rw [hregs] at hx
    rw [heq, hx]
    change NoTrace d (setRegister _ c ⟨.secondGate, (d.counters c).counterIndex⟩ x) ↔ _
    rw [noTrace_setRegister hregs hwritten rfl]
    simp

theorem setSecondGatePolarity_noTrace_iff {r : NiGpctRegister} {gateSource : U32} :
    NoTrace d (setSecondGatePolarity d r gateSource) ↔
      secondGatePolarityValue gateSource (d.regs r) = d.regs r := by
  constructor
  · intro h
    have hr : update d.regs r (secondGatePolarityValue gateSource (d.regs r)) r = d.regs r :=
      congrFun h.regs r
    rwa [Function.update_self] at hr
  · intro h
    rw [setSecondGatePolarity_eq_self h]
    exact .refl d

theorem setGateSrc_noTrace_iff {gateIndex gateSource : U32} {r : Int × NiGpctDevice}
    (h : niTioSetGateSrc d c gateIndex gateSource = .ok r) (hr : r.1 ≠ 0) :
    NoTrace d r.2 ↔ GateKept d c gateIndex gateSource := by
  cases setGateSrc_cases h with
  | firstDisabled => exact absurd rfl hr
  | firstNone =>
    rw [noTrace_setBits]
    exact ⟨fun hk => ⟨fun _ => hk, fun h₁ => absurd h₁ (by decide)⟩, fun hk => hk.1 rfl⟩
  | first => exact absurd rfl hr
  | secondAbsent hp =>
    refine iff_of_true (.refl d) ⟨fun h₀ => absurd h₀ (by decide), fun _ hp' => ?_⟩
    rw [hp] at hp'
    cases hp'
  | secondDisabled => exact absurd rfl hr
  | secondNone hp =>
    rw [setSecondGatePolarity_noTrace_iff]
    exact ⟨fun hk => ⟨fun h₀ => absurd h₀ (by decide), fun _ _ => hk⟩, fun hk => hk.2 rfl hp⟩
  | second => exact absurd rfl hr
  | other _ h₀ h₁ =>
    exact iff_of_true (.refl d) ⟨fun h => absurd h h₀, fun h => absurd h h₁⟩

theorem armCommand_ret {transient : U32} {r : Int × NiGpctDevice}
    (h : armCommand d c transient = .ok r) : r.1 = 0 := by
  obtain ⟨r₁, -, h⟩ := bind_eq_ok h
  cases h
  rfl

theorem arm_noTrace {arm : Bool} {startTrigger : U32} {r : Int × NiGpctDevice}
    (h : niTioArm d c arm startTrigger = .ok r) (hr : r.1 ≠ 0) : NoTrace d r.2 := by
  unfold niTioArm at h
  dsimp only at h
  split at h
  · split at h
    · split at h
      · cases h
        exact .refl d
      · obtain ⟨r₁, -, h⟩ := bind_eq_ok h
        exact absurd (armCommand_ret h) hr
    · exact absurd (armCommand_ret h) hr
  · exact absurd (armCommand_ret h) hr

theorem setOtherSrc_noTrace {index source : U32} {r : Int × NiGpctDevice}
    (h : niTioSetOtherSrc d c index source = .ok r) (hr : r.1 ≠ 0) : NoTrace d r.2 := by
  unfold niTioSetOtherSrc at h
  split at h
  · obtain ⟨r₁, -, h⟩ := bind_eq_ok h
    split at h
    · cases h
      exact .refl d
    · cases h
      exact absurd rfl hr
  · cases h
    exact .refl d

/-- What a failing instruction asks for before it fails is in the registers already. -/
def Undisturbed (d : NiGpctDevice) (c : Nat) (data : Nat → U32) : Prop :=
  (data 0 = insnConfigSetClockSrc → SourceKept d c (data 1)) ∧
    (data 0 = insnConfigSetGateSrc → GateKept d c (data 1) (data 2))

/-- In any state, a failing instruction that sets a clock source or a gate leaves no trace exactly
if what it sets before it fails is so already; setting an encoder input and arming never do. -/
theorem failed_noTrace_iff {data reads data' : Nat → U32} {ret : Int}
    (hid : data 0 ∈ [insnConfigSetClockSrc, insnConfigSetGateSrc, insnConfigSetOtherSrc,
      insnConfigArm]) (h : niTioInsnConfig d c data reads = .ok (ret, data', d')) (hret : ret ≠ 0) :
    NoTrace d d' ↔ Undisturbed d c data := by
  simp only [List.mem_cons, List.not_mem_nil, or_false] at hid
  obtain h₀ | h₀ | h₀ | h₀ := hid
  · simp only [niTioInsnConfig, h₀] at h
    obtain ⟨x, hx, h⟩ := bind_eq_ok (x := niTioSetClockSrc d c (data 1) (data 2)) h
    cases h
    rw [setClockSrc_noTrace_iff hx hret, Undisturbed, h₀]
    exact ⟨fun hk => ⟨fun _ => hk, fun hn => absurd hn (by decide)⟩, fun hk => hk.1 rfl⟩
  · simp only [niTioInsnConfig, h₀] at h
    obtain ⟨x, hx, h⟩ := bind_eq_ok (x := niTioSetGateSrc d c (data 1) (data 2)) h
    cases h
    rw [setGateSrc_noTrace_iff hx hret, Undisturbed, h₀]
    exact ⟨fun hk => ⟨fun hn => absurd hn (by decide), fun _ => hk⟩, fun hk => hk.2 rfl⟩
  · simp only [niTioInsnConfig, h₀] at h
    obtain ⟨x, hx, h⟩ := bind_eq_ok (x := niTioSetOtherSrc d c (data 1) (data 2)) h
    cases h
    rw [Undisturbed, h₀]
    exact iff_of_true (setOtherSrc_noTrace hx hret)
      ⟨fun hn => absurd hn (by decide), fun hn => absurd hn (by decide)⟩
  · simp only [niTioInsnConfig, h₀] at h
    obtain ⟨x, hx, h⟩ := bind_eq_ok (x := niTioArm d c true (data 1)) h
    cases h
    rw [Undisturbed, h₀]
    exact iff_of_true (arm_noTrace hx hret)
      ⟨fun hn => absurd hn (by decide), fun hn => absurd hn (by decide)⟩

/-- A second encoder input on a board without any. -/
theorem failed_noTrace_newBoard :
    NoTrace (newBoard .ni660x) (newBoard .ni660x) ↔
      Undisturbed (newBoard .ni660x) 0 (words insnConfigSetOtherSrc 1 0) :=
  failed_noTrace_iff (by decide) (show niTioInsnConfig (newBoard .ni660x) 0
    (words insnConfigSetOtherSrc 1 0) (fun _ => 0) = .ok (-einval, _, _) from rfl) (by decide)

/-- Both prescalers at once are refused after the source is written. -/
theorem refusedPrescale_trace : ∃ d data' d', run tioStep (newBoard .mSeries) [(0, .initCounter)] =
    .ok d ∧ niTioInsnConfig d 0 (words insnConfigSetClockSrc 0x30000001 0) (fun _ => 0) =
      .ok (-einval, data', d') ∧ d.regs ⟨.inputSelect, 0⟩ = 0 ∧
        d'.regs ⟨.inputSelect, 0⟩ = 0x48 ∧ ¬ NoTrace d d' := by
  refine ⟨_, _, _, rfl, rfl, by decide, by decide, fun h => ?_⟩
  exact absurd (congrFun h.regs ⟨.inputSelect, 0⟩) (by decide)

end Comedi.NiTioTrace
