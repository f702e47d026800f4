import Comedi.NiTioFaults

namespace Comedi.NiTioReadback

open Instructions ChanlistCheck SharedRegs NiTio NiTioInsn NiTioCmd GuardedRuns
open NiTioFootprints NiTioSteps NiTioClock NiTioGates NiTioReadable NiTioCalls NiTioFaults
open Function (update)

/-- The bits of a clock source: its code, its polarity and its prescale mode. -/
def sourceMask : U32 :=
  niGpctClockSrcSelectMask ||| niGpctInvertClockSrcBit ||| niGpctPrescaleModeClockSrcMask

def prescaleOf (clockSource : U32) : U32 := clockSource &&& niGpctPrescaleModeClockSrcMask

/-- The period of a clock source in whole nanoseconds: that of the time base, prescaled, or the one
that the user gave. -/
def clockPeriodNs (clockSource periodNs : U32) : U32 :=
  match timebasePeriodPs (selectOf clockSource) with
  | none => periodNs
  | some period =>
    let factor : BitVec 64 :=
      if prescaleOf clockSource = niGpctPrescaleX2ClockSrcBits then 2
      else if prescaleOf clockSource = niGpctPrescaleX8ClockSrcBits then 8
      else 1
    (period * factor / 1000).setWidth 32

/-- The registers of a counter hold a clock source, with the code `code`. -/
structure Selected (d : NiGpctDevice) (c : Nat) (clockSource periodNs code : U32) : Prop where
  source : d.regs ⟨.inputSelect, (d.counters c).counterIndex⟩ &&&
      (giSourceSelectMask ||| giSourcePolarityBit) =
    clockInputSelectBits (giSourceSelectBits code) clockSource
  subselect : d.variant ≠ .ni660x → subselected d.variant (selectOf clockSource)
      (d.regs ⟨.secondGate, (d.counters c).counterIndex⟩ &&& giSourceSubselectBit != 0) =
    if d.variant = .eSeries then subselected .eSeries (selectOf clockSource) false
    else selectOf clockSource
  prescale : niTioCountingModeRegistersPresent d.variant = true →
    prescaleBits d.variant clockSource =
      some (d.regs ⟨.countingMode, (d.counters c).counterIndex⟩ &&&
        (giPrescaleX2Bit d.variant ||| giPrescaleX8Bit d.variant))
  period : (d.counters c).clockPeriodPs = 1000 * periodNs.setWidth 64

variable {d d' : NiGpctDevice} {c c' : Nat} {clockSource periodNs code : U32}

/-- A call that leaves clock sources alone, on any counter. -/
theorem Selected.touches (hs : Selected d c clockSource periodNs code)
    (h : Touches (clockNeutral d.variant) d c' d') : Selected d' c clockSource periodNs code := by
  have hfield : ∀ name f, f &&& ~~~clockFields d.variant name = 0 →
      d'.regs ⟨name, (d'.counters c).counterIndex⟩ &&& f =
        d.regs ⟨name, (d.counters c).counterIndex⟩ &&& f := by
    intro name f hf
    rw [h.counterIndex c]
    exact h.field hf _
  constructor
  · rw [hfield .inputSelect _ (by cases d.variant <;> decide)]
    exact hs.source
  · rw [h.variant, hfield .secondGate _ (by cases d.variant <;> decide)]
    exact hs.subselect
  · rw [h.variant, hfield .countingMode _ (by cases d.variant <;> decide)]
    exact hs.prescale
  · rw [h.period id c]
    exact hs.period

theorem Selected.run {between : List (Nat × TioCall)}
    (hs : Selected d c clockSource periodNs code) (hn : ∀ call ∈ between, ¬ setsClock call.2)
    (h : run tioStep d between = .ok d') : Selected d' c clockSource periodNs code := by
  have hfit : AllFit tioStep (fun _ call => ¬ setsClock call.2) d between :=
    AllFit.of_forall (fun call hc _ => hn call hc) d
  exact run_keeps (fun d => Selected d c clockSource periodNs code)
    (fun _ _ _ hd hn hs => hd.touches ((tioCall_acts hs).neutral hn)) hs hfit h

theorem variant_run {calls : List (Nat × TioCall)} (h : run tioStep d calls = .ok d') :
    d'.variant = d.variant := by
  have hall : AllFit tioStep (fun _ _ => True) d calls := AllFit.of_forall (fun _ _ _ => trivial) d
  refine run_keeps (fun d' => d'.variant = d.variant) (fun _ _ _ hd _ hs => ?_) rfl hall h
  obtain ⟨F, ht⟩ := tioCall_touches hs
  exact ht.variant.trans hd

/-- What follows once the source and the subselect bit are set. -/
def tailFootprint (v : NiGpctVariant) : Footprint where
  bits
    | .countingMode => giPrescaleX2Bit v ||| giPrescaleX8Bit v ||| giAlternateSyncBit v
    | _ => 0
  period := True

theorem setPeriod_step (h : setPeriod d c periodNs = .ok d') :
    Step (periodFootprint d.variant) d c d' ∧
      (d'.counters c).clockPeriodPs = 1000 * periodNs.setWidth 64 := by
  have hfinish : finishClockSrc d c periodNs = .ok (0, d') := by
    rw [finishClockSrc]
    exact bind_ok h _
  refine ⟨finishClockSrc_step hfinish, ?_⟩
  rw [(setSyncMode_step h).period id c, setClockPeriodPs]
  dsimp only
  rw [Function.update_self]

theorem clockSet_tail (h : ClockSet d c clockSource periodNs (0, d')) :
    Touches (tailFootprint d.variant) d c d' ∧
      (d'.counters c).clockPeriodPs = 1000 * periodNs.setWidth 64 ∧
      (niTioCountingModeRegistersPresent d.variant = true →
        prescaleBits d.variant clockSource =
          some (d'.regs ⟨.countingMode, (d.counters c).counterIndex⟩ &&&
            (giPrescaleX2Bit d.variant ||| giPrescaleX8Bit d.variant))) := by
  have hmono : ∀ n, (periodFootprint d.variant).bits n &&&
      ~~~(tailFootprint d.variant).bits n = 0 := by
    cases d.variant <;> intro n <;> cases n <;> decide
  cases h with
  | prescaled hp bits hb _ h =>
    obtain ⟨hs, hperiod⟩ := setPeriod_step h
    have s₁ : Step (tailFootprint d.variant) d c (setPrescale d c bits) :=
      step_setBits _ d c .countingMode bits (by cases d.variant <;> decide)
    refine ⟨s₁.toTouches.trans (hs.toTouches.mono hmono fun _ => trivial), hperiod, fun _ => ?_⟩
    have hz : (giPrescaleX2Bit d.variant ||| giPrescaleX8Bit d.variant) &&&
        (periodFootprint d.variant).bits .countingMode = 0 := by cases d.variant <;> decide
    rw [hb, hs.toTouches.field hz]
    change some bits = some (setBits d.regs _ _ _ _ &&& _)
    rw [setBits_self, and_setBits_of_subset (BitVec.and_not_self _), prescaleBits_within hb]
  | plain hp _ h =>
    obtain ⟨hs, hperiod⟩ := setPeriod_step h
    refine ⟨hs.toTouches.mono hmono fun _ => trivial, hperiod, fun hp' => ?_⟩
    rw [hp] at hp'
    cases hp'

theorem giSourceSelectBits_within (code clockSource : U32) :
    clockInputSelectBits (giSourceSelectBits code) clockSource &&&
        (giSourceSelectMask ||| giSourcePolarityBit) =
      clockInputSelectBits (giSourceSelectBits code) clockSource := by
  have hs : giSourceSelectBits code &&& (giSourceSelectMask ||| giSourcePolarityBit) =
      giSourceSelectBits code := by
    rw [giSourceSelectBits, BitVec.and_assoc,
      show giSourceSelectMask &&& (giSourceSelectMask ||| giSourcePolarityBit) =
        giSourceSelectMask by decide]
  unfold clockInputSelectBits
  split
  · rw [BitVec.and_comm, BitVec.and_or_distrib_left, BitVec.and_comm, hs]
    exact congrArg _ (by decide)
  · exact hs

theorem subselected_setRegister {x y : U32} (h : subselectValue .mSeries clockSource x = some y) :
    subselected .mSeries (selectOf clockSource) (y &&& giSourceSubselectBit != 0) =
      selectOf clockSource := by
  simp only [subselectValue, ne_eq, not_true_eq_false, if_false] at h
  split at h
  · cases h
    rw [BitFlags.cleared (by decide)]
    rcases ‹_ ∨ _› with hs | hs
    · rw [hs]
      decide
    · rw [hs]
      decide
  split at h
  · cases h
    rw [BitFlags.or_self_and]
    rcases ‹selectOf clockSource = niGpctAnalogTriggerOutClockSrcBits ∨ _› with hs | hs
    · rw [hs]
      decide
    · rw [hs]
      decide
  cases h

theorem subselected_of_none {b : Bool} {x : U32} (h : subselectValue .mSeries clockSource x = none) :
    subselected .mSeries (selectOf clockSource) b = selectOf clockSource := by
  simp only [subselectValue, ne_eq, not_true_eq_false, if_false] at h
  split at h
  · cases h
  split at h
  · cases h
  rename_i h₁ h₂
  unfold subselected
  rw [if_neg (by decide), if_neg (fun hs => hs.elim (fun hs => h₁ (.inl hs)) fun hs => h₂ (.inr hs)),
    if_neg (fun hs => hs.elim (fun hs => h₁ (.inr hs)) fun hs => h₂ (.inl hs))]

/-- After a clock source is set, the registers hold it. -/
theorem setClockSrc_selected (hd : Readable d)
    (h : niTioSetClockSrc d c clockSource periodNs = .ok (0, d')) :
    ∃ code, clockCode d'.variant (selectOf clockSource) = .ok code ∧
      Selected d' c clockSource periodNs code := by
  have hd' : Readable d' := setClockSrc_readable hd h
  obtain ⟨-, code, d₁, hc, h₁, hset⟩ := setClockSrc_cases h
  have s₁ := (setSourceSubselect_step h₁).toTouches
  obtain ⟨s₂, hperiod, hprescale⟩ := clockSet_tail hset
  have hi : (d₁.counters c).counterIndex = (d.counters c).counterIndex := s₁.counterIndex c
  have hi' : (d'.counters c).counterIndex = (d.counters c).counterIndex :=
    (s₂.counterIndex c).trans hi
  have hv₁ : d₁.variant = d.variant := s₁.variant
  have hv' : d'.variant = d.variant := s₂.variant.trans hv₁
  refine ⟨code, by rw [hv']; exact hc, ?_, ?_, ?_, hperiod⟩
  · rw [s₂.field BitVec.and_zero, hi', s₁.field BitVec.and_zero]
    change setBits d.regs _ _ _ _ &&& _ = _
    rw [setBits_self, and_setBits_of_subset (BitVec.and_not_self _), giSourceSelectBits_within]
  · intro hn
    cases hv : d.variant with
    | ni660x => exact absurd (hv'.trans hv) hn
    | eSeries =>
      have hz := (hd' ⟨.secondGate, (d'.counters c).counterIndex⟩).2 (hv'.trans hv)
      rw [hz, hv', hv]
      rfl
    | mSeries =>
      rw [s₂.field BitVec.and_zero, hv', hv, if_neg (by decide), hi']
      have hvariant : (setSource d c code clockSource).variant = .mSeries := hv
      rcases setSourceSubselect_cases h₁ with ⟨hx, heq⟩ | ⟨x, hx, heq⟩
      · rw [hvariant] at hx
        rw [heq]
        exact subselected_of_none hx
      · rw [hvariant] at hx
        have he : (setRegister (setSource d c code clockSource) c
            ⟨.secondGate, (d.counters c).counterIndex⟩ x).regs
              ⟨.secondGate, (d.counters c).counterIndex⟩ = x := Function.update_self _ _ _
        rw [heq]
        change subselected _ _ ((setRegister _ c ⟨.secondGate, (d.counters c).counterIndex⟩ x).regs
          _ &&& _ != 0) = _
        rw [he]
        exact subselected_setRegister hx
  · rw [hv', ← hv₁, hi', ← hi]
    exact hprescale

theorem invert_cases (clockSource : U32) :
    clockSource &&& niGpctInvertClockSrcBit = 0 ∨
      clockSource &&& niGpctInvertClockSrcBit = niGpctInvertClockSrcBit :=
  BitFlags.and_twoPow_cases clockSource 31

/-- The polarity bit of a register that holds a clock source. -/
theorem sourcePolarity_eq {x : U32} (hx : x &&& (giSourceSelectMask ||| giSourcePolarityBit) =
      clockInputSelectBits (giSourceSelectBits code) clockSource) :
    (if x &&& giSourcePolarityBit ≠ 0 then niGpctInvertClockSrcBit else 0) =
      clockSource &&& niGpctInvertClockSrcBit := by
  have hb : giSourceSelectBits code &&& giSourcePolarityBit = 0 := by
    rw [giSourceSelectBits, BitVec.and_assoc,
      show giSourceSelectMask &&& giSourcePolarityBit = 0 by decide]
    exact BitVec.and_zero
  have hp : x &&& giSourcePolarityBit =
      clockInputSelectBits (giSourceSelectBits code) clockSource &&& giSourcePolarityBit := by
    rw [← hx, BitVec.and_assoc, show (giSourceSelectMask ||| giSourcePolarityBit) &&&
      giSourcePolarityBit = giSourcePolarityBit by decide]
  rw [hp, clockInputSelectBits]
  obtain h | h := invert_cases clockSource
  · rw [h, if_neg (not_not.mpr rfl), if_neg (not_not.mpr hb)]
  · have hn : niGpctInvertClockSrcBit ≠ 0 := by decide
    have hg : giSourcePolarityBit ≠ 0 := by decide
    rw [h, if_pos hn, BitFlags.or_self_and, if_pos hg]

/-- The prescaler bits of a register that holds a prescale mode. -/
theorem prescale_eq {v : NiGpctVariant} {y bits : U32} (hv : v ≠ .eSeries)
    (hy : prescaleBits v clockSource =
      some (y &&& (giPrescaleX2Bit v ||| giPrescaleX8Bit v))) :
    (if y &&& giPrescaleX8Bit v ≠ 0 then
      (if y &&& giPrescaleX2Bit v ≠ 0 then bits ||| niGpctPrescaleX2ClockSrcBits else bits) |||
        niGpctPrescaleX8ClockSrcBits
      else if y &&& giPrescaleX2Bit v ≠ 0 then bits ||| niGpctPrescaleX2ClockSrcBits else bits) =
    bits ||| prescaleOf clockSource := by
  have h₂ : y &&& giPrescaleX2Bit v =
      y &&& (giPrescaleX2Bit v ||| giPrescaleX8Bit v) &&& giPrescaleX2Bit v := by
    rw [BitVec.and_assoc]
    cases v <;> rfl
  have h₈ : y &&& giPrescaleX8Bit v =
      y &&& (giPrescaleX2Bit v ||| giPrescaleX8Bit v) &&& giPrescaleX8Bit v := by
    rw [BitVec.and_assoc]
    cases v <;> rfl
  unfold prescaleBits at hy
  dsimp only at hy
  split at hy
  · rename_i hm
    rw [← Option.some.inj hy] at h₂ h₈
    rw [h₂, h₈, prescaleOf, hm]
    cases v with
    | eSeries => exact absurd rfl hv
    | _ => exact BitVec.or_zero.symm
  split at hy
  · rename_i hm
    rw [← Option.some.inj hy] at h₂ h₈
    rw [h₂, h₈, prescaleOf, hm]
    cases v with
    | eSeries => exact absurd rfl hv
    | _ => rfl
  split at hy
  · rename_i hm
    rw [← Option.some.inj hy] at h₂ h₈
    rw [h₂, h₈, prescaleOf, hm]
    cases v with
    | eSeries => exact absurd rfl hv
    | _ => rfl
  cases hy

theorem modifierBits_selected {v : NiGpctVariant} {x y : U32}
    (hx : x &&& (giSourceSelectMask ||| giSourcePolarityBit) =
      clockInputSelectBits (giSourceSelectBits code) clockSource)
    (hy : niTioCountingModeRegistersPresent v = true → prescaleBits v clockSource =
      some (y &&& (giPrescaleX2Bit v ||| giPrescaleX8Bit v))) :
    modifierBits v x y = clockSource &&& niGpctInvertClockSrcBit |||
      (if v = .eSeries then 0 else prescaleOf clockSource) := by
  rw [modifierBits, sourcePolarity_eq hx]
  cases v with
  | eSeries =>
    have hz : y &&& (0 : U32) = 0 := BitVec.and_zero
    simp only [giPrescaleX2Bit, giPrescaleX8Bit, hz, ne_eq, not_true_eq_false, if_false, if_true]
    exact BitVec.or_zero.symm
  | mSeries => exact prescale_eq (by decide) (hy rfl)
  | ni660x => exact prescale_eq (by decide) (hy rfl)

/-- What the clock source of a counter reads as, once it is set. -/
theorem clockSrcSelect_selected (hs : Selected d c clockSource periodNs code)
    (hi : (d.counters c).counterIndex < 4)
    (hc : clockCode d.variant (selectOf clockSource) = .ok code) :
    niTioGenericClockSrcSelect d c = .ok
      (if d.variant = .eSeries then
        subselected .eSeries (selectOf clockSource) false |||
          clockSource &&& niGpctInvertClockSrcBit
      else clockSource &&& sourceMask) := by
  have hsup : supportedClock d.variant (selectOf clockSource).toNat := by
    by_contra hn
    rw [clockCode_of_unsupported (by simpa using hn)] at hc
    cases hc
  obtain ⟨code', hc', hdec⟩ := clockCode_of_supported hsup
  rw [hc] at hc'
  cases hc'
  have hcode : sourceField (d.regs ⟨.inputSelect, (d.counters c).counterIndex⟩) =
      sourceField (giSourceSelectBits code) := by
    rw [sourceField, ← show (giSourceSelectMask ||| giSourcePolarityBit) &&& giSourceSelectMask =
      giSourceSelectMask by decide, ← BitVec.and_assoc, hs.source, clockInput_source, sourceField]
  rw [genericClockSrcSelect_eq hi, modifierBits_selected hs.source hs.prescale, hcode, hdec]
  change Except.ok _ = _
  congr 1
  by_cases hv : d.variant = .eSeries
  · have hsub := hs.subselect (by rw [hv]; decide)
    rw [if_pos hv] at hsub
    rw [hsub, if_pos hv, if_pos hv]
    exact congrArg _ BitVec.or_zero
  · have hsub : subselected d.variant (selectOf clockSource)
        (d.regs ⟨.secondGate, (d.counters c).counterIndex⟩ &&& giSourceSubselectBit != 0) =
          selectOf clockSource := by
      by_cases hx : d.variant = .ni660x
      · rw [hx]
        rfl
      · rw [hs.subselect hx, if_neg hv]
    rw [hsub, if_neg hv, if_neg hv, sourceMask, BitVec.and_or_distrib_left,
      BitVec.and_or_distrib_left, BitVec.or_assoc, selectOf, prescaleOf]

theorem nanoseconds (periodNs : U32) :
    ((1000 * periodNs.setWidth 64 : BitVec 64) / 1000).setWidth 32 = periodNs := by
  apply BitVec.eq_of_toNat_eq
  have h := periodNs.isLt
  rw [BitVec.toNat_setWidth, BitVec.toNat_udiv, BitVec.toNat_mul, BitVec.toNat_setWidth]
  change 1000 * (periodNs.toNat % 2 ^ 64) % 2 ^ 64 / 1000 % 2 ^ 32 = periodNs.toNat
  have h₁ : periodNs.toNat < 2 ^ 64 := Nat.lt_trans h (by decide)
  have h₂ : 1000 * periodNs.toNat < 2 ^ 64 := by omega
  rw [Nat.mod_eq_of_lt h₁, Nat.mod_eq_of_lt h₂, Nat.mul_div_cancel_left _ (by decide),
    Nat.mod_eq_of_lt h]

theorem prescaleBits_mode {v : NiGpctVariant} {bits : U32}
    (h : prescaleBits v clockSource = some bits) :
    prescaleOf clockSource = niGpctNoPrescaleClockSrcBits ∨
      prescaleOf clockSource = niGpctPrescaleX2ClockSrcBits ∨
      prescaleOf clockSource = niGpctPrescaleX8ClockSrcBits := by
  unfold prescaleBits at h
  dsimp only at h
  split at h
  · exact .inl ‹_›
  split at h
  · exact .inr (.inl ‹_›)
  split at h
  · exact .inr (.inr ‹_›)
  cases h

theorem getClockSrc_eq
    (hg : niTioGenericClockSrcSelect d c = .ok (clockSource &&& sourceMask))
    (hperiod : (d.counters c).clockPeriodPs = 1000 * periodNs.setWidth 64)
    (hm : prescaleOf clockSource = niGpctNoPrescaleClockSrcBits ∨
      prescaleOf clockSource = niGpctPrescaleX2ClockSrcBits ∨
      prescaleOf clockSource = niGpctPrescaleX8ClockSrcBits) :
    niTioGetClockSrc d c =
      .ok (clockSource &&& sourceMask, clockPeriodNs clockSource periodNs) := by
  have hsel : (clockSource &&& sourceMask) &&& niGpctClockSrcSelectMask = selectOf clockSource := by
    rw [BitVec.and_assoc, show sourceMask &&& niGpctClockSrcSelectMask =
      niGpctClockSrcSelectMask by decide, selectOf]
  have hpre : (clockSource &&& sourceMask) &&& niGpctPrescaleModeClockSrcMask =
      prescaleOf clockSource := by
    rw [BitVec.and_assoc, show sourceMask &&& niGpctPrescaleModeClockSrcMask =
      niGpctPrescaleModeClockSrcMask by decide, prescaleOf]
  rw [niTioGetClockSrc, bind_ok hg, niTioClockPeriodPs, hsel, hpre, clockPeriodNs]
  cases timebasePeriodPs (selectOf clockSource) with
  | none =>
    rw [hperiod]
    change Except.ok _ = _
    rw [nanoseconds]
  | some period =>
    obtain h | h | h := hm
    · rw [h]
      rfl
    · rw [h]
      rfl
    · rw [h]
      rfl

/-- The clock sources that an e-series counter can hold. -/
def HoldsSource (v : NiGpctVariant) (clockSource : U32) : Prop :=
  v = .eSeries → selectOf clockSource ≠ niGpctPxiStarTriggerClockSrcBits ∧
    selectOf clockSource ≠ niGpctAnalogTriggerOutClockSrcBits ∧ prescaleOf clockSource = 0

theorem eSeries_source_eq_iff : subselected .eSeries (selectOf clockSource) false |||
    clockSource &&& niGpctInvertClockSrcBit = clockSource &&& sourceMask ↔
      HoldsSource .eSeries clockSource := by
  have hsource : clockSource &&& sourceMask = selectOf clockSource |||
      clockSource &&& niGpctInvertClockSrcBit ||| prescaleOf clockSource := by
    rw [sourceMask, BitVec.and_or_distrib_left, BitVec.and_or_distrib_left, selectOf, prescaleOf]
  have hz : (selectOf clockSource ||| clockSource &&& niGpctInvertClockSrcBit) &&&
      niGpctPrescaleModeClockSrcMask = 0 := by
    rw [selectOf, ← BitVec.and_or_distrib_left, BitVec.and_assoc,
      show (niGpctClockSrcSelectMask ||| niGpctInvertClockSrcBit) &&&
        niGpctPrescaleModeClockSrcMask = 0 by decide]
    exact BitVec.and_zero
  constructor
  · intro h _
    have hself := selectOf_subselected .eSeries clockSource false
    have hsel : subselected .eSeries (selectOf clockSource) false = selectOf clockSource := by
      have hinv : clockSource &&& niGpctInvertClockSrcBit &&& niGpctClockSrcSelectMask = 0 := by
        rw [BitVec.and_assoc, show niGpctInvertClockSrcBit &&& niGpctClockSrcSelectMask = 0 by decide]
        exact BitVec.and_zero
      rw [← hself, selectOf, ← BitFlags.and_or_of_disjoint hinv, h, BitVec.and_assoc,
        show sourceMask &&& niGpctClockSrcSelectMask = niGpctClockSrcSelectMask by decide, selectOf]
    refine ⟨fun h₈ => ?_, fun h₉ => ?_, ?_⟩
    · rw [h₈] at hsel
      exact absurd hsel (by decide)
    · rw [h₉] at hsel
      exact absurd hsel (by decide)
    · rw [hsel, hsource] at h
      have hp : prescaleOf clockSource &&& niGpctPrescaleModeClockSrcMask =
          prescaleOf clockSource := by
        rw [prescaleOf, BitVec.and_assoc, BitVec.and_self]
      rw [← hp, ← BitFlags.and_or_of_disjoint hz, BitVec.or_comm, ← h, hz]
  · intro h
    obtain ⟨h₈, h₉, hp⟩ := h rfl
    have hsel : subselected .eSeries (selectOf clockSource) false = selectOf clockSource := by
      unfold subselected
      rw [if_neg (by decide)]
      split
      · exact Eq.symm (Or.resolve_right ‹_› h₈)
      split
      · exact Eq.symm (Or.resolve_right ‹_› h₉)
      rfl
    rw [hsource, hp, hsel]
    exact BitVec.or_zero.symm

theorem getClockSrc_selected_iff (hs : Selected d c clockSource periodNs code)
    (hi : (d.counters c).counterIndex < 4)
    (hc : clockCode d.variant (selectOf clockSource) = .ok code) :
    niTioGetClockSrc d c = .ok (clockSource &&& sourceMask, clockPeriodNs clockSource periodNs) ↔
      HoldsSource d.variant clockSource := by
  have hg := clockSrcSelect_selected hs hi hc
  by_cases hv : d.variant = .eSeries
  · rw [if_pos hv] at hg
    rw [hv, ← eSeries_source_eq_iff]
    constructor
    · intro h
      obtain ⟨s, hs', h⟩ := bind_eq_ok h
      rw [hg] at hs'
      cases hs'
      obtain ⟨p, -, h⟩ := bind_eq_ok h
      exact congrArg Prod.fst (Except.ok.inj h)
    · intro he
      have hp := (eSeries_source_eq_iff.mp he rfl).2.2
      rw [he] at hg
      exact getClockSrc_eq hg hs.period (.inl hp)
  · rw [if_neg hv] at hg
    have hpresent : niTioCountingModeRegistersPresent d.variant = true := by
      cases hx : d.variant with
      | eSeries => exact absurd hx hv
      | mSeries => rfl
      | ni660x => rfl
    exact iff_of_true
      (getClockSrc_eq hg hs.period (prescaleBits_mode (hs.prescale hpresent)))
      fun he => absurd he hv

/-- The answer of the instruction is that of the function. -/
theorem insnConfig_getClockSrc_iff {get reads : Nat → U32} {source period : U32}
    (hget : get 0 = insnConfigGetClockSrc) :
    niTioInsnConfig d c get reads = .ok (0, update (update get 1 source) 2 period, d) ↔
      niTioGetClockSrc d c = .ok (source, period) := by
  simp only [niTioInsnConfig, hget]
  constructor
  · intro h
    obtain ⟨⟨s, p⟩, hx, h⟩ := bind_eq_ok (x := niTioGetClockSrc d c) h
    have hdata : update (update get 1 s) 2 p = update (update get 1 source) 2 period :=
      congrArg (fun r => r.2.1) (Except.ok.inj h)
    have hs := congrFun hdata 1
    have hp := congrFun hdata 2
    rw [Function.update_self, Function.update_self] at hp
    rw [Function.update_of_ne (by decide), Function.update_self,
      Function.update_of_ne (by decide), Function.update_self] at hs
    rw [hx, hs, hp]
  · intro h
    exact bind_ok h _

/-- A clock source that was set is read back, whatever calls that set no clock source came between,
unless an e-series counter was given a source or a prescaler that it does not have. -/
theorem clockSrc_reads_back_iff {d₀ d₁ d₂ : NiGpctDevice} (h₀ : Constructed d₀)
    {calls between : List (Nat × TioCall)} (hrun : run tioStep d₀ calls = .ok d)
    {data data' reads get reads' : Nat → U32} (hset : data 0 = insnConfigSetClockSrc)
    (h : niTioInsnConfig d c data reads = .ok (0, data', d₁))
    (hn : ∀ call ∈ between, ¬ setsClock call.2) (hbetween : run tioStep d₁ between = .ok d₂)
    (hget : get 0 = insnConfigGetClockSrc) :
    niTioInsnConfig d₂ c get reads' = .ok (0, update (update get 1 (data 1 &&& sourceMask)) 2
        (clockPeriodNs (data 1) (data 2)), d₂) ↔ HoldsSource d.variant (data 1) := by
  have hd : Sound d := (Constructed.sound h₀).run hrun
  simp only [niTioInsnConfig, hset] at h
  obtain ⟨⟨ret, d₃⟩, hx, h⟩ := bind_eq_ok (x := niTioSetClockSrc d c (data 1) (data 2)) h
  cases h
  obtain ⟨code, hc, hs⟩ := setClockSrc_selected hd.1 hx
  have hv₁ : d₃.variant = d.variant := (setClockSrc_step hx).variant
  have hv₂ : d₂.variant = d₃.variant := variant_run hbetween
  have hd₁ : Sound d₃ :=
    ⟨setClockSrc_readable hd.1 hx, hd.2.touches (setClockSrc_step hx).toTouches⟩
  have hiff := getClockSrc_selected_iff (hs.run hn hbetween) ((hd₁.run hbetween).2.lt c)
    (by rw [hv₂]; exact hc)
  rw [hv₂, hv₁] at hiff
  rw [← hiff]
  exact insnConfig_getClockSrc_iff hget

theorem clockSrc_reads_back_newBoard : ∃ d₁ d₂ data', niTioInsnConfig (newBoard .mSeries) 0
      (words insnConfigSetClockSrc 0xa0000009 40) (fun _ => 0) = .ok (0, data', d₁) ∧
    run tioStep d₁ [(0, config insnConfigSetGateSrc 1 0x8000001f)] = .ok d₂ ∧
    (niTioInsnConfig d₂ 0 (words insnConfigGetClockSrc 0 0) (fun _ => 0) =
      .ok (0, update (update (words insnConfigGetClockSrc 0 0) 1 (0xa0000009 &&& sourceMask)) 2
        (clockPeriodNs 0xa0000009 40), d₂) ↔ HoldsSource .mSeries 0xa0000009) := by
  have hset : words insnConfigSetClockSrc 0xa0000009 40 0 = insnConfigSetClockSrc := rfl
  have hn : ∀ call ∈ [((0 : Nat), config insnConfigSetGateSrc 1 0x8000001f)],
      ¬ setsClock call.2 := by
    intro call hc
    rw [List.mem_singleton.mp hc]
    exact (by decide : insnConfigSetGateSrc ≠ insnConfigSetClockSrc)
  obtain ⟨d₁, d₂, data', h, hb⟩ : ∃ d₁ d₂ data', niTioInsnConfig (newBoard .mSeries) 0
        (words insnConfigSetClockSrc 0xa0000009 40) (fun _ => 0) = .ok (0, data', d₁) ∧
      run tioStep d₁ [(0, config insnConfigSetGateSrc 1 0x8000001f)] = .ok d₂ :=
    ⟨_, _, _, rfl, rfl⟩
  exact ⟨d₁, d₂, data', h, hb, clockSrc_reads_back_iff (constructed_newBoard .mSeries)
    (show run tioStep (newBoard .mSeries) [] = .ok _ from rfl) hset h hn hb rfl⟩

/-- The star trigger of an e-series counter is read back as the gate of the next counter. -/
theorem starTrigger_eSeries : ∃ d data' data'', niTioInsnConfig (newBoard .eSeries) 0
      (words insnConfigSetClockSrc niGpctPxiStarTriggerClockSrcBits 0) (fun _ => 0) =
        .ok (0, data', d) ∧
    niTioInsnConfig d 0 (words insnConfigGetClockSrc 0 0) (fun _ => 0) = .ok (0, data'', d) ∧
    data'' 1 = niGpctNextGateClockSrcBits := by
  exact ⟨_, _, _, rfl, rfl, by decide⟩

end Comedi.NiTioReadback
