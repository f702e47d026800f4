import Comedi.NiTioCalls

namespace Comedi.NiTioFaults

open Instructions ChanlistCheck SharedRegs NiTio NiTioInsn NiTioCmd GuardedRuns
open NiTioFootprints NiTioSteps NiTioClock NiTioGates NiTioReadable NiTioCalls

/-- The counters have the indices that their drivers give them. -/
def Indexed (d : NiGpctDevice) : Prop :=
  ∀ c, (d.counters c).counterIndex < if d.variant = .ni660x then 4 else 2

variable {d d' : NiGpctDevice} {c n i : Nat} {name : RegName}

theorem Indexed.lt (h : Indexed d) (c : Nat) : (d.counters c).counterIndex < 4 := by
  have hc := h c
  split at hc
  · exact hc
  · exact Nat.lt_trans hc (by decide)

theorem Indexed.touches {F : Footprint} (h : Indexed d) (ht : Touches F d c d') : Indexed d' := by
  intro c'
  rw [ht.counterIndex, ht.variant]
  exact h c'

theorem giReg_returns (h : i < n) : Returns (giReg name n i) := ⟨_, giReg_of_lt h⟩

theorem gxxReg_returns (h : i < 4) : Returns (gxxReg name i) := ⟨_, gxxReg_of_lt h⟩

/-- The flags of a source never have both prescalers. -/
theorem prescaleFactor_returns {s x y : U32} {v : NiGpctVariant} (hs : selectOf s = s)
    (hy : y &&& giPrescaleX2Bit v = 0 ∨ y &&& giPrescaleX8Bit v = 0) :
    Returns (prescaleFactor ((s ||| modifierBits v x y) &&& niGpctPrescaleModeClockSrcMask)) := by
  have hz : s &&& niGpctPrescaleModeClockSrcMask = 0 := by
    rw [← hs, selectOf, BitVec.and_assoc,
      show niGpctClockSrcSelectMask &&& niGpctPrescaleModeClockSrcMask = 0 by decide]
    exact BitVec.and_zero
  have hm : (s ||| modifierBits v x y) &&& niGpctPrescaleModeClockSrcMask =
      modifierBits v x y &&& niGpctPrescaleModeClockSrcMask := by
    rw [BitVec.and_comm, BitVec.and_or_distrib_left, BitVec.and_comm, hz, BitVec.and_comm]
    exact BitVec.zero_or
  rw [hm]
  unfold modifierBits
  dsimp only
  obtain h | h := hy
  · simp only [h, ne_eq, not_true_eq_false, if_false]
    split <;> split <;> exact ⟨_, rfl⟩
  · simp only [h, ne_eq, not_true_eq_false, if_false]
    split <;> split <;> exact ⟨_, rfl⟩

/-- The clock source of a counter can be read, and its period. -/
theorem clockSrc_returns (hd : Readable d) (hi : (d.counters c).counterIndex < 4) :
    ∃ s, niTioGenericClockSrcSelect d c = .ok s ∧ Returns (niTioClockPeriodPs d c s) := by
  obtain ⟨s, hs, hself⟩ := (hd ⟨.inputSelect, (d.counters c).counterIndex⟩).1
    (d.regs ⟨.secondGate, (d.counters c).counterIndex⟩ &&& giSourceSubselectBit != 0)
  have hg := genericClockSrcSelect_eq hi
  rw [hs] at hg
  refine ⟨_, hg, ?_⟩
  unfold niTioClockPeriodPs
  split
  · exact returns_ok _
  · exact (prescaleFactor_returns hself
      (hd ⟨.countingMode, (d.counters c).counterIndex⟩)).bind fun _ _ => returns_ok _

theorem setSyncMode_returns {f : Bool} (hd : Readable d) (hi : (d.counters c).counterIndex < 4) :
    Returns (niTioSetSyncMode d c f) := by
  obtain ⟨s, hs, hp⟩ := clockSrc_returns hd hi
  refine (giReg_returns hi).bind fun r _ => Returns.bind ⟨s, hs⟩ fun y hy => ?_
  rw [hs] at hy
  cases hy
  refine hp.bind fun p _ => Returns.ite (fun _ => returns_ok _) fun _ => ?_
  exact Returns.ite (fun _ => returns_ok _) fun _ => returns_ok _

theorem setCountingMode_returns {mode : U32} (hd : Readable d)
    (hi : (d.counters c).counterIndex < 4) : Returns (setCountingMode d c mode) := by
  refine Returns.ite (fun _ => (giReg_returns hi).bind fun r hr => ?_) fun _ => returns_ok _
  obtain ⟨-, rfl⟩ := giReg_eq_ok hr
  refine setSyncMode_returns ?_ hi
  refine hd.touches (step_setBits (modeFootprint d.variant) d c .countingMode _ ?_).toTouches
    (mode_quiet _).codes
  cases d.variant <;> decide

theorem setCounterMode_returns {mode : U32} (hd : Readable d) (hx : Indexed d) :
    Returns (niTioSetCounterMode d c mode) := by
  refine (giReg_returns (hx.lt c)).bind fun r hr => ?_
  obtain ⟨-, rfl⟩ := giReg_eq_ok hr
  have s₁ := step_setBits (modeFootprint d.variant) d c .mode (modeRegValues mode)
    (modeRegMask_within mode _)
  refine (setCountingMode_returns (hd.touches s₁.toTouches (mode_quiet _).codes)
    (hx.lt c)).bind fun d₁ _ => ?_
  exact (giReg_returns (hx.lt c)).bind fun _ _ => (giReg_returns (hx.lt c)).bind fun _ _ =>
    returns_ok _

theorem armCommand_returns {transient : U32} (hx : Indexed d) :
    Returns (armCommand d c transient) :=
  (giReg_returns (hx.lt c)).bind fun _ _ => returns_ok _

theorem arm_returns {arm : Bool} {startTrigger : U32} (hx : Indexed d) :
    Returns (niTioArm d c arm startTrigger) := by
  refine Returns.ite (fun _ => Returns.ite (fun _ => ?_) fun _ => armCommand_returns hx)
    fun _ => armCommand_returns hx
  split
  · exact returns_ok _
  · refine (giReg_returns (hx.lt c)).bind fun r hr => armCommand_returns ?_
    exact hx

theorem setSourceSubselect_returns {clockSource : U32} (hx : Indexed d) :
    Returns (niTioSetSourceSubselect d c clockSource) := by
  refine (giReg_returns (hx.lt c)).bind fun r _ => Returns.ite (fun _ => returns_ok _) fun _ => ?_
  exact Returns.ite (fun _ => returns_ok _) fun _ =>
    Returns.ite (fun _ => returns_ok _) fun _ => returns_ok _

theorem setPeriod_returns {periodNs : U32} (hd : Readable d) (hx : Indexed d) :
    Returns (setPeriod d c periodNs) := by
  have s₁ : Step (periodFootprint d.variant) d c
      (setClockPeriodPs d c (1000 * periodNs.setWidth 64)) :=
    step_setCounter _ d c rfl rfl fun hp => absurd trivial hp
  exact setSyncMode_returns (fun r => hd r) ((hx.touches s₁.toTouches).lt c)

theorem finishClockSrc_returns {periodNs : U32} (hd : Readable d) (hx : Indexed d) :
    Returns (finishClockSrc d c periodNs) :=
  (setPeriod_returns hd hx).bind fun _ _ => returns_ok _

/-- Setting a clock source ends in `BUG()` for the sources without a code, and for no others. -/
theorem setClockSrc_returns {clockSource periodNs : U32} (hd : Readable d) (hx : Indexed d) :
    Returns (niTioSetClockSrc d c clockSource periodNs) ↔
      supportedClock d.variant (selectOf clockSource).toNat := by
  constructor
  · rintro ⟨r, h⟩
    obtain ⟨-, code, d₁, hc, -⟩ := setClockSrc_cases h
    by_contra hn
    rw [clockCode_of_unsupported (by simpa using hn)] at hc
    cases hc
  · intro hs
    obtain ⟨code, hc, -⟩ := clockCode_of_supported hs
    have hb : niTioSourceSelectBits d.variant clockSource = .ok (giSourceSelectBits code) := by
      rw [sourceSelectBits_eq, hc]
      rfl
    refine Returns.bind ⟨_, hb⟩ fun bits hbits => ?_
    rw [hb] at hbits
    cases hbits
    refine (giReg_returns (hx.lt c)).bind fun r hr => ?_
    obtain ⟨-, rfl⟩ := giReg_eq_ok hr
    have hx₀ : Indexed (setSource d c code clockSource) := hx
    refine (setSourceSubselect_returns hx₀).bind fun d₁ h₁ => ?_
    have s₁ := (setSourceSubselect_step h₁).toTouches
    have hd₁ : Readable d₁ := (hd.setSource hc).touches s₁ (subselect_codeNeutral _)
    have hx₁ : Indexed d₁ := hx₀.touches s₁
    refine Returns.ite (fun _ => ?_) fun _ => finishClockSrc_returns hd₁ hx₁
    split
    · exact returns_ok _
    · refine (giReg_returns (hx.lt c)).bind fun r hr => ?_
      obtain ⟨-, rfl⟩ := giReg_eq_ok hr
      rw [← show (d₁.counters c).counterIndex = (d.counters c).counterIndex from s₁.counterIndex c]
      exact finishClockSrc_returns (hd₁.setPrescale ‹_›) hx₁

theorem getClockSrc_returns (hd : Readable d) (hx : Indexed d) :
    Returns (niTioGetClockSrc d c) := by
  obtain ⟨s, hs, hp⟩ := clockSrc_returns hd (hx.lt c)
  refine Returns.bind ⟨s, hs⟩ fun y hy => ?_
  rw [hs] at hy
  cases hy
  exact hp.bind fun _ _ => returns_ok _

theorem setFirstGate_returns {select : Option U32} (hx : Indexed d) :
    Returns (setFirstGate d c select) := by
  cases select with
  | none => exact returns_ok _
  | some s => exact (giReg_returns (hx.lt c)).bind fun _ _ => returns_ok _

theorem setSecondGate_returns {select : Option U32} (hx : Indexed d) :
    Returns (setSecondGate d c select) := by
  refine (giReg_returns (hx.lt c)).bind fun _ _ => ?_
  cases select with
  | none => exact returns_ok _
  | some s => exact returns_ok _

theorem setGateSrc_returns {gateIndex gateSource : U32} (hx : Indexed d) :
    Returns (niTioSetGateSrc d c gateIndex gateSource) := by
  have hfirst := firstGateSelect_spec d.variant (crChan gateSource)
  obtain ⟨s₁, h₁, -⟩ := hfirst
  obtain ⟨s₂, h₂, -⟩ := secondGateSelect_spec (crChan gateSource)
  refine (giReg_returns (hx.lt c)).bind fun r hr => ?_
  obtain ⟨-, rfl⟩ := giReg_eq_ok hr
  refine Returns.ite (fun _ => Returns.ite (fun _ => ?_) fun _ => ?_) fun _ =>
    Returns.ite (fun _ => Returns.ite (fun _ => returns_ok _) fun hp =>
      Returns.ite (fun _ => returns_ok _) fun _ => ?_) fun _ => returns_ok _
  · exact (giReg_returns (hx.lt c)).bind fun _ _ => returns_ok _
  · refine ((giReg_returns (hx.lt c)).bind fun _ _ => returns_ok _ :
      Returns (niTioSetFirstGateModifiers d c gateSource)).bind fun d₁ hd₁ => ?_
    obtain ⟨r₁, -, hd₁⟩ := bind_eq_ok hd₁
    cases hd₁
    have hx₁ : Indexed (niTioSetBits d c r₁ (giGatePolarityBit ||| giGatingModeMask)
      (gateModifierBits gateSource)) := hx
    split
    next hvar =>
      rw [show d.variant = .eSeries from hvar] at h₁
      exact Returns.bind ⟨s₁, h₁⟩ fun _ _ => setFirstGate_returns hx₁
    next hvar =>
      rw [show d.variant = .mSeries from hvar] at h₁
      exact Returns.bind ⟨s₁, h₁⟩ fun _ _ => setFirstGate_returns hx₁
    next hvar =>
      rw [show d.variant = .ni660x from hvar] at h₁
      exact Returns.bind ⟨s₁, h₁⟩ fun _ _ => setFirstGate_returns hx₁
  · have hx₁ : Indexed (setSecondGatePolarity d ⟨.secondGate, (d.counters c).counterIndex⟩
      gateSource) := hx
    dsimp only
    split
    next => exact setSecondGate_returns hx₁
    next => exact Returns.bind ⟨s₂, h₂⟩ fun _ _ => setSecondGate_returns hx₁
    next hvar =>
      have heSeries : d.variant = .eSeries := hvar
      exact absurd (by rw [heSeries]; rfl) hp

theorem setOtherSrc_returns {index source : U32} (hx : Indexed d) :
    Returns (niTioSetOtherSrc d c index source) := by
  refine Returns.ite (fun hv => ?_) fun _ => returns_ok _
  have hi := hx c
  rw [hv, if_neg (by decide)] at hi
  refine (giReg_returns hi).bind fun _ _ => ?_
  split
  · exact returns_ok _
  · exact returns_ok _

theorem getGateSrc_returns {gateIndex : U32} (hd : Readable d) (hx : Indexed d) :
    Returns (niTioGetGateSrc d c gateIndex) := by
  refine (giReg_returns (hx.lt c)).bind fun _ _ => (giReg_returns (hx.lt c)).bind fun r hr => ?_
  obtain ⟨-, rfl⟩ := giReg_eq_ok hr
  refine Returns.ite (fun _ => Returns.ite (fun _ => returns_ok _) fun _ => ?_) fun _ =>
    Returns.ite (fun _ => Returns.ite (fun _ => returns_ok _) fun _ => ?_) fun _ => returns_ok _
  · refine (giReg_returns (hx.lt c)).bind fun r hr => ?_
    obtain ⟨-, rfl⟩ := giReg_eq_ok hr
    exact Returns.bind (hd ⟨.inputSelect, (d.counters c).counterIndex⟩).2 fun _ _ => returns_ok _
  · have hs := (hd ⟨.secondGate, (d.counters c).counterIndex⟩).1
    refine Returns.bind ?_ fun _ _ => returns_ok _
    cases hv : d.variant with
    | ni660x => exact hs hv
    | eSeries => exact returns_ok _
    | mSeries => exact returns_ok _

theorem rinsn_returns {insn : Insn} {reads : Nat → U32} (hx : Indexed d) :
    Returns (niTioRinsn d c insn reads) := by
  refine Returns.ite (fun _ => returns_ok _) fun _ => Returns.ite (fun _ => ?_) fun _ =>
    Returns.ite (fun _ => ?_) fun _ => Returns.ite (fun _ => ?_) fun _ => returns_ok _
  · exact (giReg_returns (hx.lt c)).bind fun _ _ => (giReg_returns (hx.lt c)).bind fun _ _ =>
      returns_ok _
  · exact (giReg_returns (hx.lt c)).bind fun _ _ => returns_ok _
  · exact (giReg_returns (hx.lt c)).bind fun _ _ => returns_ok _

theorem winsn_returns {insn : Insn} {data reads : Nat → U32} (hx : Indexed d) :
    Returns (niTioWinsn d c insn data reads) := by
  refine Returns.ite (fun _ => returns_ok _) fun _ => Returns.ite (fun _ => ?_) fun _ =>
    Returns.ite (fun _ => ?_) fun _ => Returns.ite (fun _ => ?_) fun _ => returns_ok _
  · refine Returns.bind ?_ fun _ _ => (giReg_returns (hx.lt c)).bind fun _ _ => returns_ok _
    exact (gxxReg_returns (hx.lt c)).bind fun _ _ =>
      Returns.ite (fun _ => giReg_returns (hx.lt c)) fun _ => giReg_returns (hx.lt c)
  · exact (giReg_returns (hx.lt c)).bind fun _ _ => returns_ok _
  · exact (giReg_returns (hx.lt c)).bind fun _ _ => returns_ok _

theorem counterStatus_returns {bits : U32} (hx : Indexed d) :
    Returns (niTioCounterStatus d c bits) := by
  refine (gxxReg_returns (hx.lt c)).bind fun _ _ => Returns.ite (fun _ => ?_) fun _ => returns_ok _
  exact Returns.ite (fun _ => returns_ok _) fun _ => returns_ok _

theorem insnConfig_returns {data reads : Nat → U32} (hd : Readable d) (hx : Indexed d)
    (hs : data 0 = insnConfigSetClockSrc → supportedClock d.variant (selectOf (data 1)).toNat) :
    Returns (niTioInsnConfig d c data reads) := by
  refine Returns.ite (fun _ => ?_) fun _ => Returns.ite (fun _ => ?_) fun _ =>
    Returns.ite (fun _ => ?_) fun _ => Returns.ite (fun _ => ?_) fun _ =>
    Returns.ite (fun h => ?_) fun _ => Returns.ite (fun _ => ?_) fun _ =>
    Returns.ite (fun _ => ?_) fun _ => Returns.ite (fun _ => ?_) fun _ =>
    Returns.ite (fun _ => ?_) fun _ => Returns.ite (fun _ => ?_) fun _ => returns_ok _
  · exact (setCounterMode_returns hd hx).bind fun _ _ => returns_ok _
  · exact (arm_returns hx).bind fun _ _ => returns_ok _
  · exact (arm_returns hx).bind fun _ _ => returns_ok _
  · exact (counterStatus_returns hx).bind fun _ _ => returns_ok _
  · exact ((setClockSrc_returns hd hx).mpr (hs h)).bind fun _ _ => returns_ok _
  · exact (getClockSrc_returns hd hx).bind fun _ _ => returns_ok _
  · exact (setGateSrc_returns hx).bind fun _ _ => returns_ok _
  · exact (getGateSrc_returns hd hx).bind fun _ _ => returns_ok _
  · exact (setOtherSrc_returns hx).bind fun _ _ => returns_ok _
  · refine Returns.bind ?_ fun _ _ => returns_ok _
    exact (gxxReg_returns (hx.lt c)).bind fun _ _ => returns_ok _

def gateSupported (v : NiGpctVariant) (gateIndex gate : U32) : Prop :=
  gateIndex = 0 ∧ gate ∈ firstGates v ∨
    gateIndex = 1 ∧ (v = .mSeries ∨ v = .ni660x ∧ gate ∈ secondGates)

/-- The selections that a variant does not support. -/
def Unsupported (v : NiGpctVariant) (data : Nat → U32) : Prop :=
  data 0 = insnConfigSetClockSrc ∧ supportedClock v (selectOf (data 1)).toNat = false ∨
    data 0 = insnConfigSetGateSrc ∧ ¬ gateSupported v (data 1) (crChan (data 2)) ∨
    data 0 = insnConfigSetOtherSrc ∧ (v ≠ .mSeries ∨ data 1 ∉ [0, 1, 2]) ∨
    data 0 = insnConfigSetRouting

/-- An instruction that makes such a selection is answered with `-EINVAL`. -/
def Rejected (d : NiGpctDevice) (call : Nat × TioCall) : Prop :=
  ∀ data reads, call.2 = .insnConfig data reads → Unsupported d.variant data →
    ∃ data' d', niTioInsnConfig d call.1 data reads = .ok (-einval, data', d')

def ClockSupported (d : NiGpctDevice) (call : Nat × TioCall) : Prop :=
  ∀ data reads, call.2 = .insnConfig data reads → data 0 = insnConfigSetClockSrc →
    supportedClock d.variant (selectOf (data 1)).toNat

def isInsn : TioCall → Prop
  | .insnConfig _ _ | .rinsn _ _ | .winsn _ _ _ => True
  | _ => False

theorem setGateSrc_refuses {gateIndex gateSource : U32} {r : Int × NiGpctDevice}
    (hn : ¬ gateSupported d.variant gateIndex (crChan gateSource))
    (h : niTioSetGateSrc d c gateIndex gateSource = .ok r) : r.1 = -einval := by
  cases setGateSrc_cases h with
  | firstDisabled hd => exact absurd (.inl ⟨rfl, by rw [hd]; exact List.mem_cons_self⟩) hn
  | firstNone => rfl
  | first _ select hs =>
    obtain ⟨o, ho, hdec⟩ := firstGateSelect_spec d.variant (crChan gateSource)
    rw [hs] at ho
    cases ho
    exact absurd (.inl ⟨rfl, (hdec select rfl).2⟩) hn
  | secondAbsent => rfl
  | secondDisabled hp hd =>
    cases hv : d.variant with
    | eSeries =>
      rw [hv] at hp
      cases hp
    | mSeries => exact absurd (.inr ⟨rfl, .inl hv⟩) hn
    | ni660x => exact absurd (.inr ⟨rfl, .inr ⟨hv, by rw [hd]; exact List.mem_cons_self⟩⟩) hn
  | secondNone => rfl
  | second hp _ select hs =>
    cases hv : d.variant with
    | eSeries =>
      rw [hv] at hp
      cases hp
    | mSeries => exact absurd (.inr ⟨rfl, .inl hv⟩) hn
    | ni660x =>
      rw [hv] at hs
      obtain ⟨o, ho, hdec⟩ := secondGateSelect_spec (crChan gateSource)
      rw [show ni660xSecondGateSelect _ = _ from hs] at ho
      cases ho
      exact absurd (.inr ⟨rfl, .inr ⟨hv, (hdec select rfl).2⟩⟩) hn
  | other => rfl

theorem setOtherSrc_refuses {index source : U32} {r : Int × NiGpctDevice}
    (hn : d.variant ≠ .mSeries ∨ index ∉ ([0, 1, 2] : List U32))
    (h : niTioSetOtherSrc d c index source = .ok r) : r.1 = -einval := by
  unfold niTioSetOtherSrc at h
  split at h
  · have hi := hn.resolve_left (not_not.mpr ‹_›)
    simp only [List.mem_cons, List.not_mem_nil, or_false, not_or] at hi
    obtain ⟨r₁, -, h⟩ := bind_eq_ok h
    rw [encoderShift, if_neg hi.1, if_neg hi.2.1, if_neg hi.2.2] at h
    cases h
    rfl
  · cases h
    rfl

theorem insnConfig_rejects {data reads : Nat → U32} (hd : Readable d) (hx : Indexed d)
    (hs : data 0 = insnConfigSetClockSrc → supportedClock d.variant (selectOf (data 1)).toNat)
    (hu : Unsupported d.variant data) :
    ∃ data' d', niTioInsnConfig d c data reads = .ok (-einval, data', d') := by
  obtain ⟨r, hr⟩ : Returns (niTioInsnConfig d c data reads) := insnConfig_returns hd hx hs
  obtain ⟨h₀, hu⟩ | ⟨h₀, hu⟩ | ⟨h₀, hu⟩ | h₀ := hu
  · rw [hs h₀] at hu
    cases hu
  · have h := hr
    simp only [niTioInsnConfig, h₀] at h
    obtain ⟨x, hx, h⟩ := bind_eq_ok (x := niTioSetGateSrc d c (data 1) (data 2)) h
    cases h
    rw [setGateSrc_refuses hu hx] at hr
    exact ⟨_, _, hr⟩
  · have h := hr
    simp only [niTioInsnConfig, h₀] at h
    obtain ⟨x, hx, h⟩ := bind_eq_ok (x := niTioSetOtherSrc d c (data 1) (data 2)) h
    cases h
    rw [setOtherSrc_refuses hu hx] at hr
    exact ⟨_, _, hr⟩
  · have h := hr
    simp only [niTioInsnConfig, h₀] at h
    cases h
    exact ⟨_, _, hr⟩

/-- The states in which a fault depends on the instruction alone. -/
def Sound (d : NiGpctDevice) : Prop := Readable d ∧ Indexed d

theorem Constructed.sound (h : Constructed d) : Sound d := by
  refine ⟨fun r => ?_, h.lt⟩
  rw [h.regs]
  exact codesOk_zero _ _

theorem Sound.step {call : Nat × TioCall} (h : Sound d) (hs : tioStep d call = .ok d') :
    Sound d' := by
  obtain ⟨F, ht⟩ := tioCall_touches hs
  exact ⟨(tioCall_acts hs).readable h.1, h.2.touches ht⟩

theorem Sound.run {calls : List (Nat × TioCall)} (h : Sound d)
    (hrun : run tioStep d calls = .ok d') : Sound d' := by
  have hall : AllFit tioStep (fun _ _ => True) d calls := AllFit.of_forall (fun _ _ _ => trivial) d
  exact run_keeps Sound (fun _ _ _ hd _ hs => hd.step hs) h hall hrun

theorem insn_returns {call : Nat × TioCall} (h : Sound d) (hi : isInsn call.2) :
    Returns (tioStep d call) ↔ ClockSupported d call := by
  obtain ⟨c, call⟩ := call
  cases call with
  | insnConfig data reads =>
    constructor
    · rintro ⟨d', hd'⟩ data' reads' he h₀
      cases he
      obtain ⟨r, hr, -⟩ := bind_eq_ok (x := niTioInsnConfig d c data reads) hd'
      simp only [niTioInsnConfig, h₀] at hr
      obtain ⟨x, hx, -⟩ := bind_eq_ok (x := niTioSetClockSrc d c (data 1) (data 2)) hr
      exact (setClockSrc_returns h.1 h.2).mp ⟨x, hx⟩
    · intro hs
      exact (insnConfig_returns h.1 h.2 (hs data reads rfl)).bind fun _ _ => returns_ok _
  | rinsn insn reads =>
    refine iff_of_true ?_ fun _ _ he => by cases he
    exact (rinsn_returns h.2).bind fun _ _ => returns_ok _
  | winsn insn data reads =>
    refine iff_of_true ?_ fun _ _ he => by cases he
    exact (winsn_returns h.2).bind fun _ _ => returns_ok _
  | _ => exact absurd hi id

/-- From any state that calls have led to, instructions end in `BUG()` exactly if one of them sets
a clock source that the variant has no code for; the other unsupported selections are rejected. -/
theorem insns_return_iff {d₀ : NiGpctDevice} (h₀ : Constructed d₀)
    {calls insns : List (Nat × TioCall)} (hrun : run tioStep d₀ calls = .ok d)
    (hi : ∀ call ∈ insns, isInsn call.2) :
    Returns (run tioStep d insns) ∧ AllFit tioStep Rejected d insns ↔
      AllFit tioStep ClockSupported d insns := by
  have hd : Sound d := (Constructed.sound h₀).run hrun
  have hiff := run_returns_iff Sound (fun call : Nat × TioCall => isInsn call.2) (fun _ _ h hi => insn_returns h hi)
    (fun _ _ _ h hs => h.step hs) hd hi
  refine ⟨fun h => hiff.mp h.1, fun h => ⟨hiff.mpr h, ?_⟩⟩
  refine AllFit.of_invariant Sound (fun _ _ _ h _ hs => h.step hs) ?_ hd h
  intro st call hst hs data reads he hu
  exact insnConfig_rejects hst.1 hst.2 (hs data reads he) hu

theorem insns_return_newBoard :
    Returns (run tioStep (newBoard .mSeries) [(1, config insnConfigSetClockSrc 0x28 0)]) ∧
      AllFit tioStep Rejected (newBoard .mSeries) [(1, config insnConfigSetClockSrc 0x28 0)] := by
  refine (insns_return_iff (constructed_newBoard .mSeries)
    (show run tioStep _ [] = .ok _ from rfl) ?_).mpr ⟨?_, fun _ _ => trivial⟩
  · simp [isInsn, config]
  · intro data reads he _
    cases he
    decide

/-- The source pin of the counter itself is a clock source of the NI 660x only. -/
theorem sourcePin_bug : run tioStep (newBoard .mSeries)
    [(0, .initCounter), (0, config insnConfigSetClockSrc niGpctSourcePinIClockSrcBits 0)] =
      .error .bug := rfl

end Comedi.NiTioFaults
