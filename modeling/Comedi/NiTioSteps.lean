import Comedi.NiTioFootprints

namespace Comedi.NiTioSteps

open Instructions ChanlistCheck SharedRegs NiTio NiTioInsn NiTioCmd GuardedRuns NiTioFootprints
open Function (update)

variable {d d' : NiGpctDevice} {c : Nat} {name : RegName} {transient : U32}

theorem resetCountAndDisarm_step (F : Footprint) (h : niTioResetCountAndDisarm d c = .ok d') :
    Step F d c d' := by
  obtain ⟨r, hr, h⟩ := bind_eq_ok h
  cases h
  rw [(gxxReg_eq_ok hr).2]
  exact step_writeRegister F d c _ rfl

theorem storeReg_step {n : Nat} (v : U32) (h : storeReg (giReg name n) v c d = .ok d') :
    Step everything d c d' := by
  obtain ⟨r, hr, h⟩ := bind_eq_ok h
  obtain ⟨-, rfl⟩ := giReg_eq_ok hr
  cases h
  exact step_setRegister everything d c name v (by simp [everything])

theorem setAllBits_step {n : Nat} (v : U32) (h : setAllBits (giReg name n) v c d = .ok d') :
    Step everything d c d' := by
  obtain ⟨r, hr, h⟩ := bind_eq_ok h
  obtain ⟨-, rfl⟩ := giReg_eq_ok hr
  cases h
  exact step_setBits everything d c name v (by simp [everything])

theorem initCountingMode_step (h : initCountingMode c d = .ok d') : Step everything d c d' := by
  unfold initCountingMode at h
  split at h
  · exact setAllBits_step _ h
  · cases h
    exact .refl _ _ _

theorem initSecondGate_step (h : initSecondGate c d = .ok d') : Step everything d c d' := by
  unfold initSecondGate at h
  split at h
  · exact storeReg_step _ h
  · cases h
    exact .refl _ _ _

theorem initCounter_step (h : niTioInitCounter d c = .ok d') : Step everything d c d' := by
  obtain ⟨d₁, h₁, h⟩ := bind_eq_ok h
  obtain ⟨d₂, h₂, h⟩ := bind_eq_ok h
  obtain ⟨d₃, h₃, h⟩ := bind_eq_ok h
  obtain ⟨d₄, h₄, h⟩ := bind_eq_ok h
  obtain ⟨d₅, h₅, h⟩ := bind_eq_ok h
  obtain ⟨d₆, h₆, h⟩ := bind_eq_ok h
  obtain ⟨d₇, h₇, h⟩ := bind_eq_ok h
  obtain ⟨d₈, h₈, h⟩ := bind_eq_ok h
  obtain ⟨d₉, h₉, h⟩ := bind_eq_ok h
  obtain ⟨d₀, h₀, h⟩ := bind_eq_ok h
  have s₄ := (((resetCountAndDisarm_step everything h₁).trans (storeReg_step 0 h₂)).trans
    (setAllBits_step _ h₃)).trans (setAllBits_step _ h₄)
  have s₇ := ((s₄.trans (storeReg_step 0 h₅)).trans (storeReg_step 0 h₆)).trans
    (setAllBits_step _ h₇)
  have s₉ := (s₇.trans (initCountingMode_step h₈)).trans (initSecondGate_step h₉)
  exact (s₉.trans (setAllBits_step _ h₀)).trans (setAllBits_step _ h)

theorem setSyncMode_step {f : Bool} (h : niTioSetSyncMode d c f = .ok d') :
    Step (syncFootprint d.variant) d c d' := by
  obtain ⟨r, hr, h⟩ := bind_eq_ok h
  obtain ⟨-, rfl⟩ := giReg_eq_ok hr
  obtain ⟨s, -, h⟩ := bind_eq_ok h
  obtain ⟨p, -, h⟩ := bind_eq_ok h
  have hm : giAlternateSyncBit d.variant &&&
      ~~~(syncFootprint d.variant).bits .countingMode = 0 := by simp [syncFootprint]
  split at h
  · cases h
    exact .refl _ _ _
  · dsimp only at h
    split at h
    · cases h
      exact step_setBits _ d c .countingMode _ hm
    · cases h
      exact step_setBits _ d c .countingMode _ hm

theorem setCountingMode_step {mode : U32} (h : setCountingMode d c mode = .ok d') :
    Step (modeFootprint d.variant) d c d' := by
  unfold setCountingMode at h
  split at h
  · obtain ⟨r, hr, h⟩ := bind_eq_ok h
    obtain ⟨-, rfl⟩ := giReg_eq_ok hr
    refine (step_setBits _ d c .countingMode _ ?_).trans ((setSyncMode_step h).mono ?_ id)
    · cases d.variant <;> decide
    · change ∀ n, (syncFootprint d.variant).bits n &&& _ = 0
      cases d.variant <;> intro n <;> cases n <;> decide
  · cases h
    exact .refl _ _ _

theorem modeRegMask_within (mode : U32) (v : NiGpctVariant) :
    modeRegMask mode &&& ~~~(modeFootprint v).bits .mode = 0 := by
  unfold modeRegMask
  dsimp only
  split
  · cases v <;> decide
  · cases v <;> decide

theorem setCounterMode_step {mode : U32} {r : Int × NiGpctDevice}
    (h : niTioSetCounterMode d c mode = .ok r) : Step (modeFootprint d.variant) d c r.2 := by
  obtain ⟨r₁, hr₁, h⟩ := bind_eq_ok h
  obtain ⟨-, rfl⟩ := giReg_eq_ok hr₁
  obtain ⟨d₁, h₁, h⟩ := bind_eq_ok h
  have s₁ : Step (modeFootprint d.variant) d c d₁ :=
    (step_setBits _ d c .mode _ (modeRegMask_within mode _)).trans (setCountingMode_step h₁)
  rw [← s₁.counterIndex c] at h
  obtain ⟨r₂, hr₂, h⟩ := bind_eq_ok h
  obtain ⟨-, rfl⟩ := giReg_eq_ok hr₂
  obtain ⟨r₃, hr₃, h⟩ := bind_eq_ok h
  obtain ⟨-, rfl⟩ := giReg_eq_ok hr₃
  cases h
  have s₂ := s₁.trans (step_setBits (modeFootprint d.variant) d₁ c .command
    ((mode >>> niGpctCountingDirectionShift) <<< giUpDownShift)
    (show giUpDownMask &&& _ = 0 by cases d.variant <;> decide))
  refine s₂.trans ?_
  exact step_setBits _ _ c .inputSelect _ (by cases d.variant <;> decide)

theorem armCommand_step (F : Footprint) {r : Int × NiGpctDevice} (h : armCommand d c transient = .ok r)
    (ht : transient &&& ~~~transientBits .command = 0) : Step F d c r.2 := by
  obtain ⟨r₁, hr₁, h⟩ := bind_eq_ok h
  obtain ⟨-, rfl⟩ := giReg_eq_ok hr₁
  cases h
  exact step_setBitsTransient F d c .command 0 BitVec.zero_and ht

theorem arm_step {arm : Bool} {startTrigger : U32} {r : Int × NiGpctDevice}
    (h : niTioArm d c arm startTrigger = .ok r) : Step (armFootprint d.variant) d c r.2 := by
  unfold niTioArm at h
  have ht : (if startTrigger = niGpctArmPairedImmediate then giArmBit ||| giArmCopyBit
      else giArmBit) &&& ~~~transientBits .command = 0 := by split <;> decide
  dsimp only at h
  split at h
  · split at h
    · split at h
      · cases h
        exact .refl _ _ _
      · obtain ⟨r₁, hr₁, h⟩ := bind_eq_ok h
        obtain ⟨-, rfl⟩ := giReg_eq_ok hr₁
        refine (step_setBits _ d c .countingMode _ ?_).trans (armCommand_step _ h ht)
        cases d.variant <;> decide
    · exact armCommand_step _ h ht
  · exact armCommand_step _ h (by decide)

theorem setSourceSubselect_step {clockSource : U32}
    (h : niTioSetSourceSubselect d c clockSource = .ok d') :
    Step (subselectFootprint d.variant) d c d' := by
  obtain ⟨r, hr, h⟩ := bind_eq_ok h
  obtain ⟨-, rfl⟩ := giReg_eq_ok hr
  dsimp only at h
  split at h
  · cases h
    exact .refl _ _ _
  · have hv : d.variant = .mSeries := not_not.mp ‹_›
    have hb : (subselectFootprint d.variant).bits .secondGate = giSourceSubselectBit := by
      rw [hv]
      rfl
    split at h
    · cases h
      refine step_setRegister _ d c .secondGate _ ?_
      rw [hb]
      exact BitFlags.clear_keeps (by decide)
    · split at h
      · cases h
        refine step_setRegister _ d c .secondGate _ ?_
        rw [hb]
        exact BitFlags.and_or_of_disjoint (by decide)
      · cases h
        exact .refl _ _ _

theorem finishClockSrc_step {period : U32} {r : Int × NiGpctDevice}
    (h : finishClockSrc d c period = .ok r) : Step (periodFootprint d.variant) d c r.2 := by
  obtain ⟨d₁, h₁, h⟩ := bind_eq_ok h
  cases h
  have s₁ : Step (periodFootprint d.variant) d c
      (setClockPeriodPs d c (1000 * period.setWidth 64)) :=
    step_setCounter _ d c rfl rfl fun hp => absurd trivial hp
  refine s₁.trans ((setSyncMode_step h₁).mono ?_ False.elim)
  change ∀ n, (syncFootprint d.variant).bits n &&& _ = 0
  cases d.variant <;> intro n <;> cases n <;> decide

theorem prescaleBits_within {clockSource bits : U32} {v : NiGpctVariant}
    (h : prescaleBits v clockSource = some bits) :
    bits &&& (giPrescaleX2Bit v ||| giPrescaleX8Bit v) = bits := by
  unfold prescaleBits at h
  dsimp only at h
  split at h
  · cases h
    exact BitVec.zero_and
  · split at h
    · cases h
      cases v <;> decide
    · split at h
      · cases h
        cases v <;> decide
      · cases h

theorem subselect_clock (v : NiGpctVariant) (n : RegName) :
    (subselectFootprint v).bits n &&& ~~~(clockFootprint v).bits n = 0 := by
  cases v <;> cases n <;> decide

theorem period_clock (v : NiGpctVariant) (n : RegName) :
    (periodFootprint v).bits n &&& ~~~(clockFootprint v).bits n = 0 := by
  cases v <;> cases n <;> decide

theorem setClockSrc_step {clockSource period : U32} {r : Int × NiGpctDevice}
    (h : niTioSetClockSrc d c clockSource period = .ok r) :
    Step (clockFootprint d.variant) d c r.2 := by
  obtain ⟨bits, -, h⟩ := bind_eq_ok h
  obtain ⟨r₁, hr₁, h⟩ := bind_eq_ok h
  obtain ⟨-, rfl⟩ := giReg_eq_ok hr₁
  obtain ⟨d₁, h₁, h⟩ := bind_eq_ok h
  have s₁ : Step (clockFootprint d.variant) d c d₁ :=
    (step_setBits _ d c .inputSelect _ (by cases d.variant <;> decide)).trans
      ((setSourceSubselect_step h₁).mono (subselect_clock _) False.elim)
  rw [← s₁.variant] at s₁ ⊢
  split at h
  · split at h
    · cases h
      exact s₁
    · rw [← s₁.counterIndex c] at h
      obtain ⟨r₂, hr₂, h⟩ := bind_eq_ok h
      obtain ⟨-, rfl⟩ := giReg_eq_ok hr₂
      refine s₁.trans ((step_setBits _ d₁ c .countingMode _ ?_).trans
        ((finishClockSrc_step h).mono (period_clock _) fun _ => trivial))
      cases d₁.variant <;> decide
  · exact s₁.trans ((finishClockSrc_step h).mono (period_clock _) fun _ => trivial)

/-- The hardware code of a gate, where there is one. -/
def firstGateSelect : NiGpctVariant → U32 → Result (Option U32)
  | .eSeries | .mSeries => niMSeriesGateSelect
  | .ni660x => ni660xGateSelect

def secondGateSelect : NiGpctVariant → U32 → Result (Option U32)
  | .eSeries => fun _ => .error .bug
  | .mSeries => fun selectedGate => .ok (some (selectedGate &&& selectedGateMask))
  | .ni660x => ni660xSecondGateSelect

/-- What the polarity and the code of a second gate make of its register. -/
def secondGatePolarityValue (gateSource x : U32) : U32 :=
  if gateSource &&& crInvert ≠ 0 then x ||| giSecondGatePolarityBit
  else x &&& ~~~giSecondGatePolarityBit

def secondGateValue (gateSource select x : U32) : U32 :=
  ((secondGatePolarityValue gateSource x ||| giSecondGateModeBit) &&& ~~~giSecondGateSelectMask) |||
    giSecondGateSelectBits select

def gateModifierBits (gateSource : U32) : U32 :=
  (if gateSource &&& crInvert ≠ 0 then giGatePolarityBit else 0) |||
    (if gateSource &&& crEdge ≠ 0 then giRisingEdgeGatingBits else giLevelGatingBits)

/-- What setting a gate does, for the counter with the index `i`. -/
inductive GateSet (d : NiGpctDevice) (c i : Nat) (gateSource : U32) :
    U32 → Int × NiGpctDevice → Prop where
  | firstDisabled (h : crChan gateSource = niGpctDisabledGateSelect) :
    GateSet d c i gateSource 0 (0, niTioSetBits d c ⟨.mode, i⟩ giGatingModeMask giGatingDisabledBits)
  | firstNone (h : crChan gateSource ≠ niGpctDisabledGateSelect)
    (hs : firstGateSelect d.variant (crChan gateSource) = .ok none) :
    GateSet d c i gateSource 0 (-einval, niTioSetBits d c ⟨.mode, i⟩
      (giGatePolarityBit ||| giGatingModeMask) (gateModifierBits gateSource))
  | first (h : crChan gateSource ≠ niGpctDisabledGateSelect) (select : U32)
    (hs : firstGateSelect d.variant (crChan gateSource) = .ok (some select)) :
    GateSet d c i gateSource 0 (0, niTioSetBits (niTioSetBits d c ⟨.mode, i⟩
      (giGatePolarityBit ||| giGatingModeMask) (gateModifierBits gateSource)) c ⟨.inputSelect, i⟩
      giGateSelectMask (giGateSelectBits select))
  | secondAbsent (h : niTioSecondGateRegistersPresent d.variant = false) :
    GateSet d c i gateSource 1 (-einval, d)
  | secondDisabled (hp : niTioSecondGateRegistersPresent d.variant = true)
    (h : crChan gateSource = niGpctDisabledGateSelect) :
    GateSet d c i gateSource 1
      (0, setRegister d c ⟨.secondGate, i⟩ (d.regs ⟨.secondGate, i⟩ &&& ~~~giSecondGateModeBit))
  | secondNone (hp : niTioSecondGateRegistersPresent d.variant = true)
    (h : crChan gateSource ≠ niGpctDisabledGateSelect)
    (hs : secondGateSelect d.variant (crChan gateSource) = .ok none) :
    GateSet d c i gateSource 1 (-einval, setSecondGatePolarity d ⟨.secondGate, i⟩ gateSource)
  | second (hp : niTioSecondGateRegistersPresent d.variant = true)
    (h : crChan gateSource ≠ niGpctDisabledGateSelect) (select : U32)
    (hs : secondGateSelect d.variant (crChan gateSource) = .ok (some select)) :
    GateSet d c i gateSource 1 (0, setRegister d c ⟨.secondGate, i⟩
      (secondGateValue gateSource select (d.regs ⟨.secondGate, i⟩)))
  | other (gateIndex : U32) (h₀ : gateIndex ≠ 0) (h₁ : gateIndex ≠ 1) :
    GateSet d c i gateSource gateIndex (-einval, d)

theorem setSecondGate_polarity {gateSource : U32} {select : Option U32} {r : Int × NiGpctDevice}
    (h : setSecondGate (setSecondGatePolarity d ⟨.secondGate, (d.counters c).counterIndex⟩
      gateSource) c select = .ok r) :
    r = match select with
      | none => (-einval, setSecondGatePolarity d ⟨.secondGate, (d.counters c).counterIndex⟩
          gateSource)
      | some s => (0, setRegister d c ⟨.secondGate, (d.counters c).counterIndex⟩
          (secondGateValue gateSource s (d.regs ⟨.secondGate, (d.counters c).counterIndex⟩))) := by
  obtain ⟨r₁, hr₁, h⟩ := bind_eq_ok h
  obtain ⟨-, rfl⟩ := giReg_eq_ok hr₁
  cases select with
  | none =>
    cases h
    rfl
  | some s =>
    cases h
    change (_, setRegister (setSecondGatePolarity d _ _) c _ _) = _
    simp only [setSecondGatePolarity, setRegister, writeRegister, Function.update_self,
      Function.update_idem, secondGateValue, secondGatePolarityValue]

theorem setFirstGate_eq {select : Option U32} {r : Int × NiGpctDevice}
    (h : setFirstGate d c select = .ok r) :
    r = match select with
      | none => (-einval, d)
      | some s => (0, niTioSetBits d c ⟨.inputSelect, (d.counters c).counterIndex⟩
          giGateSelectMask (giGateSelectBits s)) := by
  cases select with
  | none =>
    cases h
    rfl
  | some s =>
    obtain ⟨r₁, hr₁, h⟩ := bind_eq_ok h
    obtain ⟨-, rfl⟩ := giReg_eq_ok hr₁
    cases h
    rfl

theorem setGateSrc_cases {gateIndex gateSource : U32} {r : Int × NiGpctDevice}
    (h : niTioSetGateSrc d c gateIndex gateSource = .ok r) :
    GateSet d c (d.counters c).counterIndex gateSource gateIndex r := by
  obtain ⟨r₁, hr₁, h⟩ := bind_eq_ok h
  obtain ⟨-, rfl⟩ := giReg_eq_ok hr₁
  split at h
  · rename_i h₀
    rw [h₀]
    split at h
    · obtain ⟨r₂, hr₂, h⟩ := bind_eq_ok h
      obtain ⟨-, rfl⟩ := giReg_eq_ok hr₂
      cases h
      exact .firstDisabled ‹_›
    · obtain ⟨d₁, h₁, h⟩ := bind_eq_ok h
      obtain ⟨r₂, hr₂, h₁⟩ := bind_eq_ok h₁
      obtain ⟨-, rfl⟩ := giReg_eq_ok hr₂
      cases h₁
      have hs : ∃ select, firstGateSelect d.variant (crChan gateSource) = .ok select ∧
          setFirstGate (niTioSetBits d c ⟨.mode, (d.counters c).counterIndex⟩
            (giGatePolarityBit ||| giGatingModeMask) (gateModifierBits gateSource)) c select =
              .ok r := by
        dsimp only [niTioSetBits, niTioSetBitsTransient, writeRegister] at h
        split at h
        · rename_i hv
          obtain ⟨select, hs, h⟩ := bind_eq_ok h
          exact ⟨select, by rw [hv]; exact hs, h⟩
        · rename_i hv
          obtain ⟨select, hs, h⟩ := bind_eq_ok h
          exact ⟨select, by rw [hv]; exact hs, h⟩
        · rename_i hv
          obtain ⟨select, hs, h⟩ := bind_eq_ok h
          exact ⟨select, by rw [hv]; exact hs, h⟩
      obtain ⟨select, hs, h⟩ := hs
      rw [setFirstGate_eq h]
      cases select with
      | none => exact .firstNone ‹_› hs
      | some select => exact .first ‹_› select hs
  · split at h
    · rename_i h₁
      rw [h₁]
      split at h
      · cases h
        exact .secondAbsent ‹_›
      · have hp : niTioSecondGateRegistersPresent d.variant = true := by simpa using ‹¬ _ = false›
        split at h
        · cases h
          exact .secondDisabled hp ‹_›
        · have hs : ∃ select, secondGateSelect d.variant (crChan gateSource) = .ok select ∧
              setSecondGate (setSecondGatePolarity d ⟨.secondGate, (d.counters c).counterIndex⟩
                gateSource) c select = .ok r := by
            dsimp only [setSecondGatePolarity] at h
            split at h
            · rename_i hv
              exact ⟨_, by rw [hv]; rfl, h⟩
            · rename_i hv
              obtain ⟨select, hs, h⟩ := bind_eq_ok h
              exact ⟨select, by rw [hv]; exact hs, h⟩
            · cases h
          obtain ⟨select, hs, h⟩ := hs
          rw [setSecondGate_polarity h]
          cases select with
          | none => exact .secondNone hp ‹_› hs
          | some select => exact .second hp ‹_› select hs
    · cases h
      exact .other gateIndex ‹_› ‹_›

theorem gateModifierBits_within (gateSource : U32) :
    gateModifierBits gateSource &&& (giGatePolarityBit ||| giGatingModeMask) =
      gateModifierBits gateSource := by
  unfold gateModifierBits
  split
  · split <;> decide
  · split <;> decide

theorem secondGateValue_within (gateSource select x : U32) :
    secondGateValue gateSource select x &&& ~~~secondGateFootprint.bits .secondGate =
      x &&& ~~~secondGateFootprint.bits .secondGate := by
  have hs : giSecondGateSelectBits select &&& ~~~secondGateFootprint.bits .secondGate = 0 := by
    rw [giSecondGateSelectBits, BitVec.and_assoc,
      show giSecondGateSelectMask &&& ~~~secondGateFootprint.bits .secondGate = 0 by decide]
    exact BitVec.and_zero
  rw [secondGateValue, BitFlags.and_or_of_disjoint hs, BitFlags.clear_keeps (by decide),
    BitFlags.and_or_of_disjoint (by decide), secondGatePolarityValue]
  split
  · exact BitFlags.and_or_of_disjoint (by decide)
  · exact BitFlags.clear_keeps (by decide)

theorem setSecondGatePolarity_touches (d : NiGpctDevice) (c : Nat) (gateSource : U32) :
    Touches secondGateFootprint d c
      (setSecondGatePolarity d ⟨.secondGate, (d.counters c).counterIndex⟩ gateSource) where
  variant := rfl
  counterIndex _ := rfl
  chipIndex _ := rfl
  period _ _ := rfl
  regs r := by
    by_cases he : r = ⟨.secondGate, (d.counters c).counterIndex⟩
    · subst he
      simp only [setSecondGatePolarity, Function.update_self, Footprint.owned, if_true]
      split
      · exact BitFlags.and_or_of_disjoint (by decide)
      · exact BitFlags.clear_keeps (by decide)
    · simp only [setSecondGatePolarity, Function.update_of_ne he]
  otherChips _ _ := rfl

/-- The polarity of the second gate is changed in the copy alone when the gate is refused. -/
def PolarityLost (d : NiGpctDevice) (c : Nat) (gateIndex gateSource : U32) : Prop :=
  gateIndex = 1 ∧ niTioSecondGateRegistersPresent d.variant = true ∧
    crChan gateSource ≠ niGpctDisabledGateSelect ∧
    secondGateSelect d.variant (crChan gateSource) = .ok none ∧
    secondGatePolarityValue gateSource (d.regs ⟨.secondGate, (d.counters c).counterIndex⟩) ≠
      d.regs ⟨.secondGate, (d.counters c).counterIndex⟩

theorem setSecondGatePolarity_eq_self {r : NiGpctRegister} {gateSource : U32}
    (h : secondGatePolarityValue gateSource (d.regs r) = d.regs r) :
    setSecondGatePolarity d r gateSource = d := by
  unfold secondGatePolarityValue at h
  rw [setSecondGatePolarity, h, Function.update_eq_self]

theorem setGateSrc_step {gateIndex gateSource : U32} {r : Int × NiGpctDevice}
    (h : niTioSetGateSrc d c gateIndex gateSource = .ok r) :
    Touches (gateFootprint gateIndex) d c r.2 ∧
      (¬ PolarityLost d c gateIndex gateSource → Step (gateFootprint gateIndex) d c r.2) := by
  have hmodifiers : Step (gateFootprint 0) d c (niTioSetBits d c
      ⟨.mode, (d.counters c).counterIndex⟩ (giGatePolarityBit ||| giGatingModeMask)
      (gateModifierBits gateSource)) := step_setBits _ d c .mode _ (by decide)
  have hself : Step (gateFootprint gateIndex) d c d := .refl _ d c
  cases setGateSrc_cases h with
  | firstDisabled =>
    have hs : Step (gateFootprint 0) d c (niTioSetBits d c ⟨.mode, (d.counters c).counterIndex⟩
        giGatingModeMask giGatingDisabledBits) := step_setBits _ d c .mode _ (by decide)
    exact ⟨hs.toTouches, fun _ => hs⟩
  | firstNone => exact ⟨hmodifiers.toTouches, fun _ => hmodifiers⟩
  | first _ select =>
    have hs := hmodifiers.trans (step_setBits (gateFootprint 0) _ c .inputSelect
      (giGateSelectBits select) (show giGateSelectMask &&& _ = 0 by decide))
    exact ⟨hs.toTouches, fun _ => hs⟩
  | secondAbsent => exact ⟨hself.toTouches, fun _ => hself⟩
  | secondDisabled =>
    have hs : Step (gateFootprint 1) d c (setRegister d c ⟨.secondGate, (d.counters c).counterIndex⟩
        (d.regs ⟨.secondGate, (d.counters c).counterIndex⟩ &&& ~~~giSecondGateModeBit)) :=
      step_setRegister _ d c .secondGate _ (BitFlags.clear_keeps (by decide))
    exact ⟨hs.toTouches, fun _ => hs⟩
  | secondNone hp hd hs =>
    refine ⟨setSecondGatePolarity_touches d c gateSource, fun hn => ?_⟩
    rw [setSecondGatePolarity_eq_self]
    · exact .refl _ d c
    · by_contra hv
      exact hn ⟨rfl, hp, hd, hs, hv⟩
  | second _ _ select =>
    have hs : Step (gateFootprint 1) d c (setRegister d c ⟨.secondGate, (d.counters c).counterIndex⟩
        (secondGateValue gateSource select (d.regs ⟨.secondGate, (d.counters c).counterIndex⟩))) :=
      step_setRegister _ d c .secondGate _ (secondGateValue_within _ _ _)
    exact ⟨hs.toTouches, fun _ => hs⟩
  | other => exact ⟨hself.toTouches, fun _ => hself⟩

theorem setOtherSrc_step {index source : U32} {r : Int × NiGpctDevice}
    (h : niTioSetOtherSrc d c index source = .ok r) : Step otherFootprint d c r.2 := by
  unfold niTioSetOtherSrc at h
  split at h
  · obtain ⟨r₁, hr₁, h⟩ := bind_eq_ok h
    obtain ⟨-, rfl⟩ := giReg_eq_ok hr₁
    split at h
    · cases h
      exact .refl _ d c
    · rename_i shift hshift
      cases h
      refine step_setRegister _ d c .abz _ ?_
      have hm : ((0x1f : U32) <<< shift) &&& ~~~otherFootprint.bits .abz = 0 := by
        unfold encoderShift at hshift
        split at hshift
        · cases hshift
          decide
        · split at hshift
          · cases hshift
            decide
          · split at hshift
            · cases hshift
              decide
            · cases hshift
      exact SharedRegs.and_setBits_of_disjoint hm
  · cases h
    exact .refl _ d c

theorem configureDmaReg_step {enable readNotWrite : Bool}
    (h : configureDmaReg d c enable readNotWrite = .ok d') : Step dmaFootprint d c d' := by
  unfold configureDmaReg at h
  split at h
  · cases h
    exact .refl _ _ c
  · obtain ⟨r₂, hr₂, h⟩ := bind_eq_ok h
    obtain ⟨-, rfl⟩ := giReg_eq_ok hr₂
    cases h
    exact step_setBits dmaFootprint _ c .dmaConfig _ (by decide)
  · obtain ⟨r₂, hr₂, h⟩ := bind_eq_ok h
    obtain ⟨-, rfl⟩ := giReg_eq_ok hr₂
    cases h
    exact step_setBits dmaFootprint _ c .dmaConfig _ (by decide)

theorem configureDma_step {enable readNotWrite : Bool}
    (h : niTioConfigureDma d c enable readNotWrite = .ok d') : Step dmaFootprint d c d' := by
  obtain ⟨r₁, hr₁, h⟩ := bind_eq_ok h
  obtain ⟨-, rfl⟩ := giReg_eq_ok hr₁
  have h₁ := configureDmaReg_step h
  exact (step_setBits dmaFootprint d c .inputSelect _ (by decide)).trans h₁

theorem rinsn_step {insn : Insn} {reads : Nat → U32} {r : Int × Option U32 × NiGpctDevice}
    (h : niTioRinsn d c insn reads = .ok r) : Step countFootprint d c r.2.2 := by
  unfold niTioRinsn at h
  dsimp only at h
  split at h
  · cases h
    exact .refl _ d c
  · split at h
    · obtain ⟨r₁, hr₁, h⟩ := bind_eq_ok h
      obtain ⟨-, rfl⟩ := giReg_eq_ok hr₁
      obtain ⟨r₂, -, h⟩ := bind_eq_ok h
      cases h
      exact (step_setBits countFootprint d c .command 0 (by decide)).trans
        (step_setBits countFootprint _ c .command giSaveTraceBit (by decide))
    · split at h
      · obtain ⟨r₁, -, h⟩ := bind_eq_ok h
        cases h
        exact .refl _ d c
      · split at h
        · obtain ⟨r₁, -, h⟩ := bind_eq_ok h
          cases h
          exact .refl _ d c
        · cases h
          exact .refl _ d c

theorem winsn_step {insn : Insn} {data reads : Nat → U32} {r : Int × NiGpctDevice}
    (h : niTioWinsn d c insn data reads = .ok r) : Step countFootprint d c r.2 := by
  unfold niTioWinsn at h
  dsimp only at h
  split at h
  · cases h
    exact .refl _ d c
  · split at h
    · obtain ⟨r₁, hr₁, h⟩ := bind_eq_ok h
      obtain ⟨r₂, hr₂, h⟩ := bind_eq_ok h
      obtain ⟨-, rfl⟩ := giReg_eq_ok hr₂
      cases h
      exact (step_setBitsTransient countFootprint (writeRegister d c (data 0) r₁) c .command 0
        BitVec.zero_and (show giLoadBit &&& _ = 0 by decide)).writeBack
    · split at h
      · obtain ⟨r₁, hr₁, h⟩ := bind_eq_ok h
        obtain ⟨-, rfl⟩ := giReg_eq_ok hr₁
        cases h
        exact step_setRegister countFootprint d c .loadA _ (by simp [countFootprint])
      · split at h
        · obtain ⟨r₁, hr₁, h⟩ := bind_eq_ok h
          obtain ⟨-, rfl⟩ := giReg_eq_ok hr₁
          cases h
          exact step_setRegister countFootprint d c .loadB _ (by simp [countFootprint])
        · cases h
          exact .refl _ d c

end Comedi.NiTioSteps
