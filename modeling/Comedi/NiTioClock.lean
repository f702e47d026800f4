import Comedi.NiTioSteps

namespace Comedi.NiTioClock

open Instructions ChanlistCheck SharedRegs NiTio NiTioInsn NiTioCmd GuardedRuns
open NiTioFootprints NiTioSteps
open Function (update)

def clockCode : NiGpctVariant → U32 → Result U32
  | .ni660x => ni660xClock
  | .eSeries | .mSeries => niMSeriesClock

def clockSourceOf : NiGpctVariant → U32 → Bool → Result U32
  | .ni660x, code, _ => ni660xClockSource code
  | .eSeries, code, subselect | .mSeries, code, subselect => niMSeriesClockSource code subselect

def sourceField (x : U32) : U32 := (x &&& giSourceSelectMask) >>> giSourceSelectShift

def selectOf (clockSource : U32) : U32 := clockSource &&& niGpctClockSrcSelectMask

/-- The clock sources that a variant has a code for. -/
def supportedClock (v : NiGpctVariant) (select : Nat) : Bool :=
  match v with
  | .ni660x => select ≤ 6 || (0x10 ≤ select && select ≤ 0x1e)
  | .eSeries | .mSeries => (select ≤ 9 && select != 6) || (0x18 ≤ select && select ≤ 0x2f)

/-- The source that is read back where two have one code. -/
def subselected (v : NiGpctVariant) (select : U32) (subselect : Bool) : U32 :=
  if v = .ni660x then select
  else if select = niGpctNextGateClockSrcBits ∨ select = niGpctPxiStarTriggerClockSrcBits then
    (if subselect then niGpctPxiStarTriggerClockSrcBits else niGpctNextGateClockSrcBits)
  else if select = niGpctTimebase3ClockSrcBits ∨ select = niGpctAnalogTriggerOutClockSrcBits then
    (if subselect then niGpctAnalogTriggerOutClockSrcBits else niGpctTimebase3ClockSrcBits)
  else select

theorem clock_table (v : NiGpctVariant) : ∀ n : Fin 64,
    if supportedClock v n then
      ∀ b, (do clockSourceOf v (sourceField (giSourceSelectBits (← clockCode v (.ofNat 32 n)))) b) =
        .ok (subselected v (.ofNat 32 n) b)
    else clockCode v (.ofNat 32 n) = .error .bug := by
  cases v <;> decide +kernel

theorem selectOf_toNat_lt (clockSource : U32) : (selectOf clockSource).toNat < 64 := by
  have h := Nat.and_le_right (n := clockSource.toNat) (m := 63)
  have he : (selectOf clockSource).toNat = clockSource.toNat &&& 63 := BitVec.toNat_and _ _
  omega

theorem clockCode_of_supported {v : NiGpctVariant} {clockSource : U32}
    (h : supportedClock v (selectOf clockSource).toNat) :
    ∃ code, clockCode v (selectOf clockSource) = .ok code ∧
      ∀ b, clockSourceOf v (sourceField (giSourceSelectBits code)) b =
        .ok (subselected v (selectOf clockSource) b) := by
  have ht := clock_table v ⟨_, selectOf_toNat_lt clockSource⟩
  rw [if_pos h] at ht
  simp only [BitVec.ofNat_toNat, BitVec.setWidth_eq] at ht
  obtain ⟨code, hc, -⟩ := bind_eq_ok (ht true)
  refine ⟨code, hc, fun b => ?_⟩
  have hb := ht b
  rw [hc] at hb
  exact hb

theorem clockCode_of_unsupported {v : NiGpctVariant} {clockSource : U32}
    (h : supportedClock v (selectOf clockSource).toNat = false) :
    clockCode v (selectOf clockSource) = .error .bug := by
  have ht := clock_table v ⟨_, selectOf_toNat_lt clockSource⟩
  rw [if_neg (by simp [h])] at ht
  simpa only [BitVec.ofNat_toNat, BitVec.setWidth_eq] using ht

theorem sourceSelectBits_eq (v : NiGpctVariant) (clockSource : U32) :
    niTioSourceSelectBits v clockSource = giSourceSelectBits <$> clockCode v (selectOf clockSource) := by
  cases v <;> rfl

/-- The flags of a clock source, by the registers that hold them. -/
def modifierBits (v : NiGpctVariant) (inputSelectBits countingModeBits : U32) : U32 :=
  let bits : U32 :=
    if inputSelectBits &&& giSourcePolarityBit ≠ 0 then niGpctInvertClockSrcBit else 0
  let bits :=
    if countingModeBits &&& giPrescaleX2Bit v ≠ 0 then bits ||| niGpctPrescaleX2ClockSrcBits
    else bits
  if countingModeBits &&& giPrescaleX8Bit v ≠ 0 then bits ||| niGpctPrescaleX8ClockSrcBits
  else bits

variable {d d' : NiGpctDevice} {c : Nat}

theorem clockSrcModifiers_eq (hi : (d.counters c).counterIndex < 4) :
    niTioClockSrcModifiers d c = .ok (modifierBits d.variant
      (d.regs ⟨.inputSelect, (d.counters c).counterIndex⟩)
      (d.regs ⟨.countingMode, (d.counters c).counterIndex⟩)) := by
  unfold niTioClockSrcModifiers
  dsimp only
  rw [bind_ok (x := nitioGiCountingModeReg _) (giReg_of_lt hi),
    bind_ok (x := nitioGiInputSelectReg _) (giReg_of_lt hi)]
  rfl

/-- The clock source of a counter is decoded from three registers. -/
theorem genericClockSrcSelect_eq (hi : (d.counters c).counterIndex < 4) :
    niTioGenericClockSrcSelect d c =
      (· ||| modifierBits d.variant (d.regs ⟨.inputSelect, (d.counters c).counterIndex⟩)
        (d.regs ⟨.countingMode, (d.counters c).counterIndex⟩)) <$>
      clockSourceOf d.variant (sourceField (d.regs ⟨.inputSelect, (d.counters c).counterIndex⟩))
        (d.regs ⟨.secondGate, (d.counters c).counterIndex⟩ &&& giSourceSubselectBit != 0) := by
  have hm := clockSrcModifiers_eq hi
  cases hv : d.variant with
  | ni660x =>
    rw [hv] at hm
    simp only [niTioGenericClockSrcSelect, hv, ni660xClockSrcSelect]
    rw [bind_ok (x := nitioGiInputSelectReg _) (giReg_of_lt hi), hm]
    rfl
  | _ =>
    rw [hv] at hm
    simp only [niTioGenericClockSrcSelect, hv, niMSeriesClockSrcSelect]
    rw [bind_ok (x := nitioGiSecondGateReg _) (giReg_of_lt hi),
      bind_ok (x := nitioGiInputSelectReg _) (giReg_of_lt hi), hm]
    rfl

variable {clockSource periodNs : U32} {r : Int × NiGpctDevice}

/-- The state after the source and its polarity are set. -/
def setSource (d : NiGpctDevice) (c : Nat) (code clockSource : U32) : NiGpctDevice :=
  niTioSetBits d c ⟨.inputSelect, (d.counters c).counterIndex⟩
    (giSourceSelectMask ||| giSourcePolarityBit)
    (clockInputSelectBits (giSourceSelectBits code) clockSource)

/-- The state after the prescaler is set. -/
def setPrescale (d : NiGpctDevice) (c : Nat) (bits : U32) : NiGpctDevice :=
  niTioSetBits d c ⟨.countingMode, (d.counters c).counterIndex⟩
    (giPrescaleX2Bit d.variant ||| giPrescaleX8Bit d.variant) bits

/-- The period is stored, and the synchronization mode follows it. -/
def setPeriod (d : NiGpctDevice) (c : Nat) (periodNs : U32) : Result NiGpctDevice :=
  niTioSetSyncMode (setClockPeriodPs d c (1000 * periodNs.setWidth 64)) c false

/-- What setting a clock source does once the source and its subselect bit are set. -/
inductive ClockSet (d₁ : NiGpctDevice) (c : Nat) (clockSource periodNs : U32) :
    Int × NiGpctDevice → Prop where
  | refused (hp : niTioCountingModeRegistersPresent d₁.variant = true)
    (hb : prescaleBits d₁.variant clockSource = none) :
    ClockSet d₁ c clockSource periodNs (-einval, d₁)
  | prescaled (hp : niTioCountingModeRegistersPresent d₁.variant = true) (bits : U32)
    (hb : prescaleBits d₁.variant clockSource = some bits) (d₂ : NiGpctDevice)
    (h : setPeriod (setPrescale d₁ c bits) c periodNs = .ok d₂) :
    ClockSet d₁ c clockSource periodNs (0, d₂)
  | plain (hp : niTioCountingModeRegistersPresent d₁.variant = false) (d₂ : NiGpctDevice)
    (h : setPeriod d₁ c periodNs = .ok d₂) :
    ClockSet d₁ c clockSource periodNs (0, d₂)

theorem setClockSrc_cases (h : niTioSetClockSrc d c clockSource periodNs = .ok r) :
    (d.counters c).counterIndex < 4 ∧ ∃ code d₁, clockCode d.variant (selectOf clockSource) = .ok code ∧
      niTioSetSourceSubselect (setSource d c code clockSource) c clockSource = .ok d₁ ∧
      ClockSet d₁ c clockSource periodNs r := by
  obtain ⟨bits, hbits, h⟩ := bind_eq_ok h
  rw [sourceSelectBits_eq] at hbits
  obtain ⟨code, hcode, hbits⟩ := bind_eq_ok (x := clockCode d.variant _) hbits
  cases hbits
  obtain ⟨r₁, hr₁, h⟩ := bind_eq_ok h
  obtain ⟨hi, rfl⟩ := giReg_eq_ok hr₁
  obtain ⟨d₁, h₁, h⟩ := bind_eq_ok h
  refine ⟨hi, code, d₁, hcode, h₁, ?_⟩
  have hindex : (d₁.counters c).counterIndex = (d.counters c).counterIndex :=
    (setSourceSubselect_step h₁).counterIndex c
  split at h
  · split at h
    · cases h
      exact .refused ‹_› ‹_›
    · obtain ⟨r₂, hr₂, h⟩ := bind_eq_ok h
      obtain ⟨-, rfl⟩ := giReg_eq_ok hr₂
      rw [← hindex] at h
      obtain ⟨d₂, h₂, h⟩ := bind_eq_ok h
      cases h
      exact .prescaled ‹_› _ ‹_› d₂ h₂
  · obtain ⟨d₂, h₂, h⟩ := bind_eq_ok h
    cases h
    exact .plain (by simpa using ‹¬ _ = true›) d₂ h₂

/-- What the subselect bit makes of the register of the second gate. -/
def subselectValue (v : NiGpctVariant) (clockSource x : U32) : Option U32 :=
  let select := selectOf clockSource
  if v ≠ .mSeries then none
  else if select = niGpctNextGateClockSrcBits ∨ select = niGpctTimebase3ClockSrcBits then
    some (x &&& ~~~giSourceSubselectBit)
  else if select = niGpctAnalogTriggerOutClockSrcBits ∨
      select = niGpctPxiStarTriggerClockSrcBits then
    some (x ||| giSourceSubselectBit)
  else none

theorem setSourceSubselect_eq (h : niTioSetSourceSubselect d c clockSource = .ok d') :
    d' = match subselectValue d.variant clockSource
        (d.regs ⟨.secondGate, (d.counters c).counterIndex⟩) with
      | none => d
      | some x => setRegister d c ⟨.secondGate, (d.counters c).counterIndex⟩ x := by
  obtain ⟨r, hr, h⟩ := bind_eq_ok h
  obtain ⟨-, rfl⟩ := giReg_eq_ok hr
  unfold subselectValue selectOf
  dsimp only at h ⊢
  split at h
  · cases h
    rw [if_pos ‹_›]
  split at h
  · cases h
    rw [if_neg ‹_›, if_pos ‹_›]
  split at h
  · cases h
    rw [if_neg ‹_›, if_neg ‹_›, if_pos ‹_›]
  cases h
  rw [if_neg ‹_›, if_neg ‹_›, if_neg ‹_›]

theorem setSourceSubselect_cases (h : niTioSetSourceSubselect d c clockSource = .ok d') :
    subselectValue d.variant clockSource
        (d.regs ⟨.secondGate, (d.counters c).counterIndex⟩) = none ∧ d' = d ∨
      ∃ x, subselectValue d.variant clockSource
          (d.regs ⟨.secondGate, (d.counters c).counterIndex⟩) = some x ∧
        d' = setRegister d c ⟨.secondGate, (d.counters c).counterIndex⟩ x := by
  have heq := setSourceSubselect_eq h
  cases hx : subselectValue d.variant clockSource
      (d.regs ⟨.secondGate, (d.counters c).counterIndex⟩) with
  | none =>
    rw [hx] at heq
    exact .inl ⟨rfl, heq⟩
  | some x =>
    rw [hx] at heq
    exact .inr ⟨x, rfl, heq⟩

end Comedi.NiTioClock
