import Comedi.NiTioGates

namespace Comedi.NiTioReadable

open Instructions ChanlistCheck SharedRegs NiTio NiTioInsn NiTioCmd GuardedRuns
open NiTioFootprints NiTioSteps NiTioClock NiTioGates
open Function (update)

/-- The fields of the registers that hold codes. -/
def codeFields (v : NiGpctVariant) : RegName → U32
  | .inputSelect => giSourceSelectMask ||| giGateSelectMask
  | .countingMode => giPrescaleX2Bit v ||| giPrescaleX8Bit v
  | .secondGate => giSecondGateSelectMask ||| (if v = .eSeries then giSourceSubselectBit else 0)
  | _ => 0

/-- The codes in a register can be decoded. -/
def CodesOk (v : NiGpctVariant) : RegName → U32 → Prop
  | .inputSelect, x =>
    (∀ b, ∃ s, clockSourceOf v (sourceField x) b = .ok s ∧ selectOf s = s) ∧
      ∃ g, firstGateToGenericGateSource v (gateField x) = .ok g
  | .countingMode, x => x &&& giPrescaleX2Bit v = 0 ∨ x &&& giPrescaleX8Bit v = 0
  | .secondGate, x =>
    (v = .ni660x → ∃ g, ni660xSecondGateToGenericGateSource (secondGateField x) = .ok g) ∧
      (v = .eSeries → x &&& giSourceSubselectBit = 0)
  | _, _ => True

/-- The codes in all registers can be decoded. -/
def Readable (d : NiGpctDevice) : Prop := ∀ r, CodesOk d.variant r.name (d.regs r)

variable {v : NiGpctVariant} {name : RegName} {x y : U32}
variable {F : Footprint} {d d' : NiGpctDevice} {c : Nat}

theorem CodesOk.congr (h : CodesOk v name x) (he : x &&& codeFields v name = y &&& codeFields v name) :
    CodesOk v name y := by
  have hpart : ∀ f, f &&& ~~~codeFields v name = 0 → x &&& f = y &&& f :=
    fun f hf => and_eq_of_subset he hf
  cases name with
  | inputSelect =>
    have hs : sourceField x = sourceField y := by
      rw [sourceField, hpart giSourceSelectMask (by cases v <;> decide), sourceField]
    have hg : gateField x = gateField y := by
      rw [gateField, hpart giGateSelectMask (by cases v <;> decide), gateField]
    refine ⟨fun b => ?_, ?_⟩
    · rw [← hs]
      exact h.1 b
    · rw [← hg]
      exact h.2
  | countingMode =>
    change y &&& giPrescaleX2Bit v = 0 ∨ y &&& giPrescaleX8Bit v = 0
    rw [← hpart (giPrescaleX2Bit v) (by cases v <;> decide),
      ← hpart (giPrescaleX8Bit v) (by cases v <;> decide)]
    exact h
  | secondGate =>
    have hs : secondGateField x = secondGateField y := by
      rw [secondGateField, hpart giSecondGateSelectMask (by cases v <;> decide), secondGateField]
    refine ⟨fun hv => ?_, fun hv => ?_⟩
    · rw [← hs]
      exact h.1 hv
    · rw [← hpart giSourceSubselectBit (by rw [hv]; decide)]
      exact h.2 hv
  | _ => trivial

theorem codesOk_zero (v : NiGpctVariant) (name : RegName) : CodesOk v name 0 := by
  cases name with
  | inputSelect =>
    refine ⟨fun b => ⟨0, ?_, rfl⟩, ?_⟩
    · cases v <;> cases b <;> decide
    · cases v
      · exact ⟨niGpctTimestampMuxGateSelect, by decide⟩
      · exact ⟨niGpctTimestampMuxGateSelect, by decide⟩
      · exact ⟨niGpctSourcePinIGateSelect, by decide⟩
  | countingMode => exact .inl BitVec.zero_and
  | secondGate =>
    exact ⟨fun _ => ⟨niGpctSourcePinIGateSelect, by decide⟩, fun _ => BitVec.zero_and⟩
  | _ => trivial

/-- A function whose footprint has none of the codes. -/
def CodeNeutral (v : NiGpctVariant) (F : Footprint) : Prop :=
  ∀ n, F.bits n &&& codeFields v n = 0

theorem Readable.touches (hd : Readable d) (h : Touches F d c d') (hF : CodeNeutral d.variant F) :
    Readable d' := by
  intro r
  rw [h.variant]
  refine (hd r).congr ?_
  exact (h.field (by rw [BitVec.and_comm]; exact hF r.name) r.index).symm

theorem Readable.update {r : NiGpctRegister} (hd : Readable d) (hv : d'.variant = d.variant)
    (hr : d'.regs = update d.regs r x) (hx : CodesOk d.variant r.name x) : Readable d' := by
  intro r'
  rw [hv, hr]
  by_cases he : r' = r
  · rw [he, Function.update_self]
    exact hx
  · rw [Function.update_of_ne he]
    exact hd r'

/-- Registers are as they were, or zero. -/
def Zeroes (d d' : NiGpctDevice) : Prop :=
  d'.variant = d.variant ∧ ∀ r, r.name ≠ .command → d'.regs r = d.regs r ∨ d'.regs r = 0

theorem Zeroes.refl (d : NiGpctDevice) : Zeroes d d := ⟨rfl, fun _ _ => .inl rfl⟩

theorem Zeroes.trans {d'' : NiGpctDevice} (h : Zeroes d d') (h' : Zeroes d' d'') :
    Zeroes d d'' := by
  refine ⟨h'.1.trans h.1, fun r hr => ?_⟩
  obtain he | hz := h'.2 r hr
  · rw [he]
    exact h.2 r hr
  · exact .inr hz

theorem Readable.zeroes (hd : Readable d) (h : Zeroes d d') : Readable d' := by
  intro r
  rw [h.1]
  by_cases hr : r.name = .command
  · rw [hr]
    trivial
  · obtain he | hz := h.2 r hr
    · rw [he]
      exact hd r
    · rw [hz]
      exact codesOk_zero _ _

theorem resetCountAndDisarm_zeroes (h : niTioResetCountAndDisarm d c = .ok d') : Zeroes d d' := by
  obtain ⟨r, -, h⟩ := bind_eq_ok h
  cases h
  exact .refl d

theorem setRegister_zeroes (d : NiGpctDevice) (c : Nat) (r : NiGpctRegister) :
    Zeroes d (setRegister d c r 0) := by
  refine ⟨rfl, fun r' _ => ?_⟩
  by_cases he : r' = r
  · rw [he]
    exact .inr (Function.update_self r 0 d.regs)
  · exact .inl (Function.update_of_ne he 0 d.regs)

theorem storeReg_zeroes {n : Nat} (h : storeReg (giReg name n) 0 c d = .ok d') : Zeroes d d' := by
  obtain ⟨r, -, h⟩ := bind_eq_ok h
  cases h
  exact setRegister_zeroes d c r

theorem setAllBits_zeroes {n : Nat} {value : U32} (hz : value = 0 ∨ name = .command)
    (h : setAllBits (giReg name n) value c d = .ok d') : Zeroes d d' := by
  obtain ⟨r, hr, h⟩ := bind_eq_ok h
  obtain ⟨-, rfl⟩ := giReg_eq_ok hr
  cases h
  refine ⟨rfl, fun r' hr' => ?_⟩
  by_cases he : r' = ⟨name, (d.counters c).counterIndex⟩
  · subst he
    obtain rfl | rfl := hz
    · refine .inr ?_
      change setBits d.regs _ _ _ _ = 0
      rw [setBits_self]
      simp
    · exact absurd rfl hr'
  · exact .inl (setBits_of_ne he)

theorem initCounter_zeroes (h : niTioInitCounter d c = .ok d') : Zeroes d d' := by
  obtain ⟨d₁, h₁, h⟩ := bind_eq_ok h
  obtain ⟨d₂, h₂, h⟩ := bind_eq_ok h
  obtain ⟨d₃, h₃, h⟩ := bind_eq_ok h
  obtain ⟨d₄, h₄, h⟩ := bind_eq_ok h
  obtain ⟨d₅, h₅, h⟩ := bind_eq_ok h
  obtain ⟨d₆, h₆, h⟩ := bind_eq_ok h
  obtain ⟨d₇, h₇, h⟩ := bind_eq_ok h
  obtain ⟨d₈, h₈, h⟩ := bind_eq_ok h
  obtain ⟨d₉, h₉, h⟩ := bind_eq_ok h
  obtain ⟨d₀, h₀, h⟩ := bind_eq_ok h
  have z₄ := (((resetCountAndDisarm_zeroes h₁).trans (storeReg_zeroes h₂)).trans
    (setAllBits_zeroes (.inr rfl) h₃)).trans (setAllBits_zeroes (.inl rfl) h₄)
  have z₇ := ((z₄.trans (storeReg_zeroes h₅)).trans (storeReg_zeroes h₆)).trans
    (setAllBits_zeroes (.inl rfl) h₇)
  have z₈ : Zeroes d₇ d₈ := by
    unfold initCountingMode at h₈
    split at h₈
    · exact setAllBits_zeroes (.inl rfl) h₈
    · cases h₈
      exact .refl d₇
  have z₉ : Zeroes d₈ d₉ := by
    unfold initSecondGate at h₉
    split at h₉
    · exact storeReg_zeroes h₉
    · cases h₉
      exact .refl d₈
  exact (((z₇.trans z₈).trans z₉).trans (setAllBits_zeroes (.inl rfl) h₀)).trans
    (setAllBits_zeroes (.inl rfl) h)

/-- A function whose footprint has nothing of a clock source, and none of the codes. -/
structure Quiet (v : NiGpctVariant) (F : Footprint) : Prop where
  neutral : NeutralFootprint v F
  codes : CodeNeutral v F

theorem mode_quiet (v : NiGpctVariant) : Quiet v (modeFootprint v) where
  neutral := ⟨id, by cases v <;> intro n <;> cases n <;> decide⟩
  codes := by cases v <;> intro n <;> cases n <;> decide

theorem arm_quiet (v : NiGpctVariant) : Quiet v (armFootprint v) where
  neutral := ⟨id, by cases v <;> intro n <;> cases n <;> decide⟩
  codes := by cases v <;> intro n <;> cases n <;> decide

theorem other_quiet (v : NiGpctVariant) : Quiet v otherFootprint where
  neutral := ⟨id, by cases v <;> intro n <;> cases n <;> decide⟩
  codes := by cases v <;> intro n <;> cases n <;> decide

theorem count_quiet (v : NiGpctVariant) : Quiet v countFootprint where
  neutral := ⟨id, by cases v <;> intro n <;> cases n <;> decide⟩
  codes := by cases v <;> intro n <;> cases n <;> decide

theorem dma_quiet (v : NiGpctVariant) : Quiet v dmaFootprint where
  neutral := ⟨id, by cases v <;> intro n <;> cases n <;> decide⟩
  codes := by cases v <;> intro n <;> cases n <;> decide

theorem interrupt_quiet (v : NiGpctVariant) : Quiet v interruptFootprint where
  neutral := ⟨id, by cases v <;> intro n <;> cases n <;> decide⟩
  codes := by cases v <;> intro n <;> cases n <;> decide

theorem subselect_codeNeutral (v : NiGpctVariant) : CodeNeutral v (subselectFootprint v) := by
  cases v <;> intro n <;> cases n <;> decide

theorem sync_codeNeutral (v : NiGpctVariant) : CodeNeutral v (syncFootprint v) := by
  cases v <;> intro n <;> cases n <;> decide

theorem selectOf_subselected (v : NiGpctVariant) (clockSource : U32) (b : Bool) :
    selectOf (subselected v (selectOf clockSource) b) =
      subselected v (selectOf clockSource) b := by
  have hself : selectOf (selectOf clockSource) = selectOf clockSource := by
    unfold selectOf
    rw [BitVec.and_assoc, BitVec.and_self]
  unfold subselected
  split
  · exact hself
  split
  · cases b <;> rfl
  split
  · cases b <;> rfl
  exact hself

theorem prescaleBits_once {v : NiGpctVariant} {clockSource bits : U32}
    (h : prescaleBits v clockSource = some bits) :
    bits &&& giPrescaleX2Bit v = 0 ∨ bits &&& giPrescaleX8Bit v = 0 := by
  unfold prescaleBits at h
  dsimp only at h
  split at h
  · cases h
    exact .inl BitVec.zero_and
  split at h
  · cases h
    right
    cases v <;> decide
  split at h
  · cases h
    left
    cases v <;> decide
  cases h

theorem clockInput_source (code clockSource : U32) :
    clockInputSelectBits (giSourceSelectBits code) clockSource &&& giSourceSelectMask =
      giSourceSelectBits code &&& giSourceSelectMask := by
  unfold clockInputSelectBits
  split
  · exact BitFlags.and_or_of_disjoint (by decide)
  · rfl

theorem sourceField_clockInput (code clockSource x : U32) :
    sourceField (x &&& ~~~(giSourceSelectMask ||| giSourcePolarityBit) |||
      clockInputSelectBits (giSourceSelectBits code) clockSource &&&
        (giSourceSelectMask ||| giSourcePolarityBit)) = sourceField (giSourceSelectBits code) := by
  rw [sourceField, and_setBits_of_subset (by decide), clockInput_source, sourceField]

theorem Readable.setSource (hd : Readable d) {code clockSource : U32}
    (hc : clockCode d.variant (selectOf clockSource) = .ok code) :
    Readable (setSource d c code clockSource) := by
  have hs : supportedClock d.variant (selectOf clockSource).toNat := by
    by_contra hn
    rw [clockCode_of_unsupported (by simpa using hn)] at hc
    cases hc
  obtain ⟨code', hc', hdec⟩ := clockCode_of_supported hs
  rw [hc] at hc'
  cases hc'
  change Readable (NiTioClock.setSource d c code clockSource)
  refine Readable.update (r := ⟨.inputSelect, (d.counters c).counterIndex⟩) hd rfl rfl
    ⟨fun b => ?_, ?_⟩
  · rw [sourceField_clockInput]
    exact ⟨_, hdec b, selectOf_subselected _ _ b⟩
  · rw [gateField, and_setBits_of_disjoint (by decide)]
    exact (hd ⟨.inputSelect, (d.counters c).counterIndex⟩).2

theorem Readable.setPrescale (hd : Readable d) {clockSource bits : U32}
    (hb : prescaleBits d.variant clockSource = some bits) :
    Readable (setPrescale d c bits) := by
  refine Readable.update (r := ⟨.countingMode, (d.counters c).counterIndex⟩) hd rfl rfl ?_
  change _ &&& giPrescaleX2Bit d.variant = 0 ∨ _ &&& giPrescaleX8Bit d.variant = 0
  rw [and_setBits_of_subset (by cases d.variant <;> decide),
    and_setBits_of_subset (by cases d.variant <;> decide)]
  exact prescaleBits_once hb

theorem setSyncMode_readable {f : Bool} (hd : Readable d) (h : niTioSetSyncMode d c f = .ok d') :
    Readable d' :=
  hd.touches (setSyncMode_step h).toTouches (sync_codeNeutral d.variant)

theorem setPeriod_readable {periodNs : U32} (hd : Readable d)
    (h : setPeriod d c periodNs = .ok d') : Readable d' := by
  refine setSyncMode_readable ?_ h
  exact fun r => hd r

theorem setClockSrc_readable {clockSource periodNs : U32} {r : Int × NiGpctDevice}
    (hd : Readable d) (h : niTioSetClockSrc d c clockSource periodNs = .ok r) : Readable r.2 := by
  obtain ⟨-, code, d₁, hc, h₁, h⟩ := setClockSrc_cases h
  have hd₁ : Readable d₁ := (hd.setSource hc).touches (setSourceSubselect_step h₁).toTouches
    (subselect_codeNeutral _)
  cases h with
  | refused => exact hd₁
  | prescaled _ bits hb d₂ h₂ => exact setPeriod_readable (hd₁.setPrescale hb) h₂
  | plain _ d₂ h₂ => exact setPeriod_readable hd₁ h₂

theorem secondGatePolarityValue_codes (v : NiGpctVariant) (gateSource x : U32) :
    secondGatePolarityValue gateSource x &&& codeFields v .secondGate =
      x &&& codeFields v .secondGate := by
  unfold secondGatePolarityValue
  split
  · exact BitFlags.and_or_of_disjoint (by cases v <;> decide)
  · exact BitFlags.clear_keeps (by cases v <;> decide)

theorem secondGateField_value (gateSource select x : U32) :
    secondGateField (secondGateValue gateSource select x) =
      secondGateField (giSecondGateSelectBits select) := by
  have hz : (secondGatePolarityValue gateSource x ||| giSecondGateModeBit) &&&
      ~~~giSecondGateSelectMask &&& giSecondGateSelectMask = 0 :=
    BitFlags.cleared (BitVec.and_not_self _)
  rw [secondGateField, secondGateValue, BitVec.and_comm, BitVec.and_or_distrib_left,
    BitVec.and_comm, hz, show ∀ y : U32, 0 ||| y = y from fun y => BitVec.zero_or,
    BitVec.and_comm, secondGateField]

theorem setGateSrc_readable {gateIndex gateSource : U32} {r : Int × NiGpctDevice}
    (hd : Readable d) (h : niTioSetGateSrc d c gateIndex gateSource = .ok r) : Readable r.2 := by
  have hmode : ∀ m b, Readable
      (niTioSetBits d c ⟨.mode, (d.counters c).counterIndex⟩ m b) :=
    fun m b => hd.update (r := ⟨.mode, (d.counters c).counterIndex⟩) rfl rfl trivial
  cases setGateSrc_cases h with
  | firstDisabled => exact hmode _ _
  | firstNone => exact hmode _ _
  | first _ select hs =>
    have hg := hmode (giGatePolarityBit ||| giGatingModeMask) (gateModifierBits gateSource)
    refine hg.update (r := ⟨.inputSelect, (d.counters c).counterIndex⟩) rfl rfl ⟨fun b => ?_, ?_⟩
    · rw [sourceField, and_setBits_of_disjoint (by decide)]
      exact (hg ⟨.inputSelect, (d.counters c).counterIndex⟩).1 b
    · rw [gateField, and_setBits_of_subset (by decide)]
      obtain ⟨o, ho, hdec⟩ := firstGateSelect_spec d.variant (ChanlistCheck.crChan gateSource)
      rw [hs] at ho
      cases ho
      exact ⟨_, (hdec select rfl).1⟩
  | secondAbsent => exact hd
  | secondDisabled =>
    refine hd.update (r := ⟨.secondGate, (d.counters c).counterIndex⟩) rfl rfl ?_
    have hm : codeFields d.variant .secondGate &&& giSecondGateModeBit = 0 := by
      cases d.variant <;> decide
    exact (hd ⟨.secondGate, (d.counters c).counterIndex⟩).congr (BitFlags.clear_keeps hm).symm
  | secondNone =>
    refine hd.update (r := ⟨.secondGate, (d.counters c).counterIndex⟩) rfl rfl ?_
    exact (hd ⟨.secondGate, (d.counters c).counterIndex⟩).congr
      (secondGatePolarityValue_codes _ _ _).symm
  | second hp _ select hs =>
    refine hd.update (r := ⟨.secondGate, (d.counters c).counterIndex⟩) rfl rfl
      ⟨fun hv => ?_, fun hv => ?_⟩
    · rw [secondGateField_value]
      obtain ⟨o, ho, hdec⟩ := secondGateSelect_spec (ChanlistCheck.crChan gateSource)
      rw [hv] at hs
      rw [show ni660xSecondGateSelect _ = _ from hs] at ho
      cases ho
      exact ⟨_, (hdec select rfl).1⟩
    · rw [hv] at hp
      cases hp
  | other => exact hd

end Comedi.NiTioReadable
