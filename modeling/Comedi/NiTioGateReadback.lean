import Comedi.NiTioReadback

namespace Comedi.NiTioGateReadback

open Instructions ChanlistCheck SharedRegs NiTio NiTioInsn NiTioCmd GuardedRuns
open NiTioFootprints NiTioSteps NiTioClock NiTioGates NiTioReadable NiTioCalls NiTioFaults
open NiTioReadback
open Function (update)

variable {d d' : NiGpctDevice} {c c' : Nat} {gateIndex gateSource : U32}

/-- The gating mode of the first gate is not the one of a disabled gate. -/
def FirstEnabled (d : NiGpctDevice) (c : Nat) : Prop :=
  d.regs ⟨.mode, (d.counters c).counterIndex⟩ &&& giGatingModeMask ≠ giGatingDisabledBits

instance (d : NiGpctDevice) (c : Nat) : Decidable (FirstEnabled d c) :=
  inferInstanceAs (Decidable (_ ≠ _))

/-- A word names a gate, with its polarity. -/
def SameGate (word gateSource : U32) : Prop :=
  crChan word = crChan gateSource ∧ word &&& crInvert = gateSource &&& crInvert

theorem getGateSrc_first (hi : (d.counters c).counterIndex < 4) (he : FirstEnabled d c) :
    niTioGetGateSrc d c 0 = (fun source => (0, some (source ||| gateFlags
        (d.regs ⟨.mode, (d.counters c).counterIndex⟩ &&& giGatePolarityBit != 0)
        (d.regs ⟨.mode, (d.counters c).counterIndex⟩)))) <$>
      firstGateToGenericGateSource d.variant
        (gateField (d.regs ⟨.inputSelect, (d.counters c).counterIndex⟩)) := by
  unfold niTioGetGateSrc
  dsimp only
  rw [bind_ok (x := nitioGiModeReg _) (giReg_of_lt hi),
    bind_ok (x := nitioGiSecondGateReg _) (giReg_of_lt hi), if_pos rfl, if_neg he,
    bind_ok (x := nitioGiInputSelectReg _) (giReg_of_lt hi)]
  rfl

theorem getGateSrc_first_disabled (hi : (d.counters c).counterIndex < 4)
    (he : ¬ FirstEnabled d c) :
    niTioGetGateSrc d c 0 = .ok (0, some niGpctDisabledGateSelect) := by
  unfold niTioGetGateSrc
  dsimp only
  rw [bind_ok (x := nitioGiModeReg _) (giReg_of_lt hi),
    bind_ok (x := nitioGiSecondGateReg _) (giReg_of_lt hi), if_pos rfl, if_pos (not_not.mp he)]
  rfl

theorem getGateSrc_second {x source : U32} (hi : (d.counters c).counterIndex < 4)
    (hx : d.regs ⟨.secondGate, (d.counters c).counterIndex⟩ = x) (he : FirstEnabled d c)
    (hm : x &&& giSecondGateModeBit ≠ 0)
    (hdec : secondGateToGenericGateSource d.variant (secondGateField x) = .ok source) :
    niTioGetGateSrc d c 1 = .ok (0, some (source ||| gateFlags
      (x &&& giSecondGatePolarityBit != 0)
      (d.regs ⟨.mode, (d.counters c).counterIndex⟩))) := by
  subst hx
  unfold niTioGetGateSrc
  dsimp only
  rw [bind_ok (x := nitioGiModeReg _) (giReg_of_lt hi),
    bind_ok (x := nitioGiSecondGateReg _) (giReg_of_lt hi), if_neg (by decide), if_pos rfl,
    if_neg (fun hn => hn.elim he hm)]
  exact bind_ok hdec _

theorem getGateSrc_second_disabled (hi : (d.counters c).counterIndex < 4)
    (h : ¬ FirstEnabled d c ∨
      d.regs ⟨.secondGate, (d.counters c).counterIndex⟩ &&& giSecondGateModeBit = 0) :
    niTioGetGateSrc d c 1 = .ok (0, some niGpctDisabledGateSelect) := by
  unfold niTioGetGateSrc
  dsimp only
  rw [bind_ok (x := nitioGiModeReg _) (giReg_of_lt hi),
    bind_ok (x := nitioGiSecondGateReg _) (giReg_of_lt hi), if_neg (by decide), if_pos rfl,
    if_pos (h.imp_left not_not.mp)]
  rfl

theorem flag_cases (x : U32) : (x &&& crInvert = 0 ∨ x &&& crInvert = crInvert) ∧
    (x &&& crEdge = 0 ∨ x &&& crEdge = crEdge) :=
  ⟨BitFlags.and_twoPow_cases x 31, BitFlags.and_twoPow_cases x 30⟩

/-- The flags of a gate stand beside its code. -/
theorem flags_of_gate (gateSource flags : U32) (hf : flags &&& ~~~(crInvert ||| crEdge) = 0) :
    crChan (crChan gateSource ||| flags) = crChan gateSource ∧
      (crChan gateSource ||| flags) &&& crInvert = flags &&& crInvert ∧
      (crChan gateSource ||| flags) &&& crEdge = flags &&& crEdge := by
  have hz : flags &&& 0xffff = 0 := by
    have h := and_eq_of_subset (y := 0) (f := (0xffff : U32))
      (hf.trans (BitVec.zero_and (x := ~~~(crInvert ||| crEdge))).symm) (by decide)
    exact h.trans BitVec.zero_and
  have hself : crChan (crChan gateSource) = crChan gateSource := by
    rw [crChan, crChan, BitVec.and_assoc, BitVec.and_self]
  have hchan : ∀ f : U32, 0xffff &&& f = 0 → crChan gateSource &&& f = 0 := by
    intro f h
    rw [crChan, BitVec.and_assoc, h]
    exact BitVec.and_zero
  refine ⟨?_, ?_, ?_⟩
  · rw [crChan, BitFlags.and_or_of_disjoint hz]
    exact hself
  · rw [BitVec.or_comm, BitFlags.and_or_of_disjoint (hchan crInvert (by decide))]
  · rw [BitVec.or_comm, BitFlags.and_or_of_disjoint (hchan crEdge (by decide))]

theorem gateFlags_within (inverted : Bool) (modeBits : U32) :
    gateFlags inverted modeBits &&& ~~~(crInvert ||| crEdge) = 0 := by
  unfold gateFlags
  by_cases h : modeBits &&& giGatingModeMask = giLevelGatingBits
  · rw [if_neg (not_not.mpr h)]
    cases inverted <;> decide
  · rw [if_pos h]
    cases inverted <;> decide

theorem gateFlags_invert (inverted : Bool) (modeBits : U32) :
    gateFlags inverted modeBits &&& crInvert = if inverted then crInvert else 0 := by
  unfold gateFlags
  by_cases h : modeBits &&& giGatingModeMask = giLevelGatingBits
  · rw [if_neg (not_not.mpr h)]
    cases inverted <;> decide
  · rw [if_pos h]
    cases inverted <;> decide

/-- The flags of the first gate are read back from the mode register. -/
theorem gateFlags_modifiers {modeBits : U32} (h : modeBits &&& (giGatePolarityBit ||| giGatingModeMask) =
    gateModifierBits gateSource) :
    gateFlags (modeBits &&& giGatePolarityBit != 0) modeBits &&& crInvert =
        gateSource &&& crInvert ∧
      gateFlags (modeBits &&& giGatePolarityBit != 0) modeBits &&& crEdge =
        gateSource &&& crEdge ∧ modeBits &&& giGatingModeMask ≠ giGatingDisabledBits := by
  have hp : modeBits &&& giGatePolarityBit = gateModifierBits gateSource &&& giGatePolarityBit := by
    rw [← h, BitVec.and_assoc]
    rfl
  have hg : modeBits &&& giGatingModeMask = gateModifierBits gateSource &&& giGatingModeMask := by
    rw [← h, BitVec.and_assoc]
    rfl
  rw [gateFlags, hp, hg, gateModifierBits]
  obtain ⟨hi | hi, he | he⟩ := flag_cases gateSource
  · rw [hi, he]
    decide
  · rw [hi, he]
    decide
  · rw [hi, he]
    decide
  · rw [hi, he]
    decide

theorem firstGate_word {modeBits : U32} (h : modeBits &&& (giGatePolarityBit ||| giGatingModeMask) =
    gateModifierBits gateSource) :
    let word := crChan gateSource |||
      gateFlags (modeBits &&& giGatePolarityBit != 0) modeBits
    SameGate word gateSource ∧ word &&& crEdge = gateSource &&& crEdge := by
  obtain ⟨hi, he, -⟩ := gateFlags_modifiers h
  obtain ⟨hc, hfi, hfe⟩ := flags_of_gate gateSource
    (gateFlags (modeBits &&& giGatePolarityBit != 0) modeBits) (gateFlags_within _ _)
  exact ⟨⟨hc, hfi.trans hi⟩, hfe.trans he⟩

/-- The state after the first gate is enabled and selected. -/
def enableFirst (d : NiGpctDevice) (c : Nat) (gateSource select : U32) : NiGpctDevice :=
  niTioSetBits (niTioSetBits d c ⟨.mode, (d.counters c).counterIndex⟩
    (giGatePolarityBit ||| giGatingModeMask) (gateModifierBits gateSource)) c
      ⟨.inputSelect, (d.counters c).counterIndex⟩ giGateSelectMask (giGateSelectBits select)

theorem enableFirst_mode (d : NiGpctDevice) (c : Nat) (gateSource select : U32) :
    (enableFirst d c gateSource select).regs ⟨.mode, (d.counters c).counterIndex⟩ &&&
      (giGatePolarityBit ||| giGatingModeMask) = gateModifierBits gateSource := by
  have hne : (⟨.mode, (d.counters c).counterIndex⟩ : NiGpctRegister) ≠
      ⟨.inputSelect, (d.counters c).counterIndex⟩ := by simp
  rw [enableFirst, niTioSetBits_regs, setBits_of_ne hne, niTioSetBits_regs, setBits_self,
    and_setBits_of_subset (BitVec.and_not_self _), gateModifierBits_within]

theorem enableFirst_gate (d : NiGpctDevice) (c : Nat) (gateSource select : U32) :
    gateField ((enableFirst d c gateSource select).regs
      ⟨.inputSelect, (d.counters c).counterIndex⟩) = gateField (giGateSelectBits select) := by
  rw [enableFirst, niTioSetBits_regs, setBits_self, gateField,
    and_setBits_of_subset (by decide), gateField]

/-- What the first gate reads as after it is set. -/
theorem setFirstGate_reads_back (hi : (d.counters c).counterIndex < 4)
    (h : niTioSetGateSrc d c 0 gateSource = .ok (0, d')) :
    ∃ word, niTioGetGateSrc d' c 0 = .ok (0, some word) ∧
      (crChan gateSource = niGpctDisabledGateSelect → word = niGpctDisabledGateSelect) ∧
      (crChan gateSource ≠ niGpctDisabledGateSelect →
        SameGate word gateSource ∧ word &&& crEdge = gateSource &&& crEdge) := by
  generalize hgi : (0 : U32) = gi at h
  generalize hr : ((0 : Int), d') = r at h
  cases setGateSrc_cases h with
  | firstDisabled hd =>
    cases hr
    refine ⟨niGpctDisabledGateSelect, getGateSrc_first_disabled hi ?_, fun _ => rfl,
      fun hn => absurd hd hn⟩
    refine not_not.mpr ?_
    change setBits d.regs ⟨.mode, (d.counters c).counterIndex⟩ _ _
      ⟨.mode, (d.counters c).counterIndex⟩ &&& _ = _
    rw [setBits_self, and_setBits_of_subset (by decide)]
    decide
  | firstNone =>
    cases hr
  | first hd select hs =>
    cases hr
    obtain ⟨o, ho, hdec⟩ := firstGateSelect_spec d.variant (crChan gateSource)
    rw [hs] at ho
    cases ho
    have hm := enableFirst_mode d c gateSource select
    have hget := getGateSrc_first (d := enableFirst d c gateSource select) hi
      (gateFlags_modifiers hm).2.2
    rw [show (enableFirst d c gateSource select).variant = d.variant from rfl,
      show ((enableFirst d c gateSource select).counters c).counterIndex =
        (d.counters c).counterIndex from rfl, enableFirst_gate, (hdec select rfl).1] at hget
    exact ⟨_, hget, fun hn => absurd hn hd, fun _ => firstGate_word hm⟩
  | secondAbsent => cases hr
  | secondDisabled => cases hgi
  | secondNone => cases hr
  | second => cases hgi
  | other _ h₀ => exact absurd hgi.symm h₀

theorem secondGateValue_mode (gateSource select x : U32) :
    secondGateValue gateSource select x &&& giSecondGateModeBit ≠ 0 := by
  have hs : giSecondGateSelectBits select &&& giSecondGateModeBit = 0 := by
    rw [giSecondGateSelectBits, BitVec.and_assoc,
      show giSecondGateSelectMask &&& giSecondGateModeBit = 0 by decide]
    exact BitVec.and_zero
  rw [secondGateValue, BitFlags.and_or_of_disjoint hs, BitFlags.clear_keeps (by decide),
    BitFlags.or_self_and]
  decide

theorem secondGateValue_polarity (gateSource select x : U32) :
    (if secondGateValue gateSource select x &&& giSecondGatePolarityBit != 0 then crInvert else 0) =
      gateSource &&& crInvert := by
  have hs : giSecondGateSelectBits select &&& giSecondGatePolarityBit = 0 := by
    rw [giSecondGateSelectBits, BitVec.and_assoc,
      show giSecondGateSelectMask &&& giSecondGatePolarityBit = 0 by decide]
    exact BitVec.and_zero
  rw [secondGateValue, BitFlags.and_or_of_disjoint hs, BitFlags.clear_keeps (by decide),
    BitFlags.and_or_of_disjoint (by decide), secondGatePolarityValue]
  obtain hi | hi := (flag_cases gateSource).1
  · rw [hi, if_neg (not_not.mpr rfl), BitFlags.cleared (by decide)]
    rfl
  · rw [hi, if_pos (by decide : crInvert ≠ 0), BitFlags.or_self_and]
    rfl

/-- The word of a second gate of an NI 660x has the polarity of its register. -/
theorem secondGate_word (gateSource select x modeBits : U32) :
    SameGate (crChan gateSource ||| gateFlags
      (secondGateValue gateSource select x &&& giSecondGatePolarityBit != 0) modeBits)
      gateSource := by
  obtain ⟨hc, hfi, -⟩ := flags_of_gate gateSource (gateFlags
    (secondGateValue gateSource select x &&& giSecondGatePolarityBit != 0) modeBits)
      (gateFlags_within _ _)
  exact ⟨hc, by rw [hfi, gateFlags_invert, secondGateValue_polarity]⟩

theorem firstEnabled_setRegister {v : U32} :
    FirstEnabled (setRegister d c ⟨.secondGate, (d.counters c).counterIndex⟩ v) c ↔
      FirstEnabled d c := by
  have hne : (⟨.mode, (d.counters c).counterIndex⟩ : NiGpctRegister) ≠
      ⟨.secondGate, (d.counters c).counterIndex⟩ := by simp
  have he : update d.regs ⟨.secondGate, (d.counters c).counterIndex⟩ v
      ⟨.mode, (d.counters c).counterIndex⟩ = d.regs ⟨.mode, (d.counters c).counterIndex⟩ :=
    Function.update_of_ne hne _ _
  rw [FirstEnabled, FirstEnabled, ← he]
  rfl

theorem setRegister_regs_self (d : NiGpctDevice) (c : Nat) (r : NiGpctRegister) (v : U32) :
    (setRegister d c r v).regs r = v := Function.update_self _ _ _

/-- What the second gate of an NI 660x reads as after it is set, if the first gate is enabled. -/
theorem setSecondGate_reads_back (hi : (d.counters c).counterIndex < 4)
    (hv : d.variant = .ni660x) (he : FirstEnabled d c)
    (h : niTioSetGateSrc d c 1 gateSource = .ok (0, d')) :
    ∃ word, niTioGetGateSrc d' c 1 = .ok (0, some word) ∧
      (crChan gateSource = niGpctDisabledGateSelect → word = niGpctDisabledGateSelect) ∧
      (crChan gateSource ≠ niGpctDisabledGateSelect → SameGate word gateSource) := by
  generalize hgi : (1 : U32) = gi at h
  generalize hr : ((0 : Int), d') = r at h
  cases setGateSrc_cases h with
  | firstDisabled => cases hgi
  | firstNone => cases hr
  | first => cases hgi
  | secondAbsent => cases hr
  | secondDisabled _ hd =>
    cases hr
    refine ⟨niGpctDisabledGateSelect, ?_, fun _ => rfl, fun hn => absurd hd hn⟩
    refine getGateSrc_second_disabled hi (.inr ?_)
    refine (congrArg (· &&& giSecondGateModeBit) (setRegister_regs_self d c _ _)).trans ?_
    exact BitFlags.cleared (by decide)
  | secondNone => cases hr
  | second _ hd select hs =>
    cases hr
    rw [hv] at hs
    obtain ⟨o, ho, hdec⟩ := secondGateSelect_spec (crChan gateSource)
    rw [show ni660xSecondGateSelect _ = _ from hs] at ho
    cases ho
    have hdecoded : secondGateToGenericGateSource d.variant (secondGateField
        (secondGateValue gateSource select
          (d.regs ⟨.secondGate, (d.counters c).counterIndex⟩))) = .ok (crChan gateSource) := by
      rw [hv, secondGateField_value]
      exact (hdec select rfl).1
    exact ⟨_, getGateSrc_second hi (setRegister_regs_self d c _ _)
      (firstEnabled_setRegister.mpr he) (secondGateValue_mode _ _ _) hdecoded,
      fun hn => absurd hn hd, fun _ => secondGate_word _ _ _ _⟩
  | other _ _ h₁ => exact absurd hgi.symm h₁

/-- A call that leaves clock sources alone leaves them as they are read. -/
theorem getClockSrc_touches (h : Touches (clockNeutral d.variant) d c d')
    (hi : (d.counters c').counterIndex < 4) : niTioGetClockSrc d' c' = niTioGetClockSrc d c' := by
  have hfield : ∀ name f, f &&& ~~~clockFields d.variant name = 0 →
      d'.regs ⟨name, (d.counters c').counterIndex⟩ &&& f =
        d.regs ⟨name, (d.counters c').counterIndex⟩ &&& f :=
    fun name f hf => h.field hf _
  have hi' : (d'.counters c').counterIndex < 4 := by
    rw [h.counterIndex]
    exact hi
  have hselect : niTioGenericClockSrcSelect d' c' = niTioGenericClockSrcSelect d c' := by
    rw [genericClockSrcSelect_eq hi, genericClockSrcSelect_eq hi', h.variant, h.counterIndex c',
      sourceField, sourceField, modifierBits, modifierBits,
      hfield .inputSelect giSourceSelectMask (by cases d.variant <;> decide),
      hfield .inputSelect giSourcePolarityBit (by cases d.variant <;> decide),
      hfield .countingMode (giPrescaleX2Bit d.variant) (by cases d.variant <;> decide),
      hfield .countingMode (giPrescaleX8Bit d.variant) (by cases d.variant <;> decide),
      hfield .secondGate giSourceSubselectBit (by cases d.variant <;> decide)]
  have hperiod : ∀ s, niTioClockPeriodPs d' c' s = niTioClockPeriodPs d c' s := by
    intro s
    rw [niTioClockPeriodPs, niTioClockPeriodPs, h.period id c']
  rw [niTioGetClockSrc, niTioGetClockSrc, hselect]
  simp only [hperiod]

theorem firstEnabled_iff (hmode : d'.regs ⟨.mode, (d.counters c).counterIndex⟩ =
      d.regs ⟨.mode, (d.counters c).counterIndex⟩)
    (hi : (d'.counters c).counterIndex = (d.counters c).counterIndex) :
    FirstEnabled d' c ↔ FirstEnabled d c := by
  rw [FirstEnabled, FirstEnabled, hi, hmode]

/-- Setting the second gate leaves the first one of every counter as it is read. -/
theorem getGateSrc_first_touches (h : Touches secondGateFootprint d c d')
    (hi : (d.counters c').counterIndex < 4) :
    niTioGetGateSrc d' c' 0 = niTioGetGateSrc d c' 0 := by
  have hreg : ∀ name, secondGateFootprint.bits name = 0 →
      d'.regs ⟨name, (d.counters c').counterIndex⟩ =
        d.regs ⟨name, (d.counters c').counterIndex⟩ := by
    intro name hn
    refine h.regs_eq ?_
    rw [Footprint.owned, hn, ite_self]
  have hi' : (d'.counters c').counterIndex < 4 := by
    rw [h.counterIndex]
    exact hi
  have hiff := firstEnabled_iff (hreg .mode rfl) (h.counterIndex c')
  by_cases he : FirstEnabled d c'
  · rw [getGateSrc_first hi he, getGateSrc_first hi' (hiff.mpr he), h.variant,
      h.counterIndex c', hreg .mode rfl, hreg .inputSelect rfl]
  · rw [getGateSrc_first_disabled hi he, getGateSrc_first_disabled hi' (fun hn => he (hiff.mp hn))]

theorem sameGate_flags (source m m' : U32) (inverted : Bool) :
    SameGate (source ||| gateFlags inverted m) (source ||| gateFlags inverted m') := by
  have hz : ∀ m, gateFlags inverted m &&& 0xffff = 0 := by
    intro m
    have h := and_eq_of_subset (y := 0) (f := (0xffff : U32)) ((gateFlags_within inverted m).trans
      (BitVec.zero_and (x := ~~~(crInvert ||| crEdge))).symm) (by decide)
    exact h.trans BitVec.zero_and
  constructor
  · rw [crChan, crChan, BitFlags.and_or_of_disjoint (hz m), BitFlags.and_or_of_disjoint (hz m')]
  · rw [BitVec.and_comm, BitVec.and_or_distrib_left, BitVec.and_comm _ (gateFlags inverted m),
      gateFlags_invert, BitVec.and_comm _ crInvert, BitVec.and_or_distrib_left,
      BitVec.and_comm _ (gateFlags inverted m'), gateFlags_invert]

/-- Enabling the first gate anew leaves the second one, up to the flag for edges. -/
theorem getGateSrc_second_same {ret : Int} {word : U32} (hi : (d.counters c).counterIndex < 4)
    (h : Touches firstGateFootprint d c d') (he : FirstEnabled d c) (he' : FirstEnabled d' c)
    (hget : niTioGetGateSrc d c 1 = .ok (ret, some word)) :
    ∃ word', niTioGetGateSrc d' c 1 = .ok (ret, some word') ∧ SameGate word' word := by
  have hreg : d'.regs ⟨.secondGate, (d'.counters c).counterIndex⟩ =
      d.regs ⟨.secondGate, (d.counters c).counterIndex⟩ := by
    rw [h.counterIndex]
    refine h.regs_eq ?_
    rw [Footprint.owned]
    exact ite_self _
  have hi' : (d'.counters c).counterIndex < 4 := by
    rw [h.counterIndex]
    exact hi
  by_cases hm : d.regs ⟨.secondGate, (d.counters c).counterIndex⟩ &&& giSecondGateModeBit = 0
  · rw [getGateSrc_second_disabled hi (.inr hm)] at hget
    cases hget
    exact ⟨_, getGateSrc_second_disabled hi' (.inr (by rw [hreg]; exact hm)), rfl, rfl⟩
  · obtain ⟨source, hdec⟩ : ∃ source, secondGateToGenericGateSource d.variant (secondGateField
        (d.regs ⟨.secondGate, (d.counters c).counterIndex⟩)) = .ok source := by
      unfold niTioGetGateSrc at hget
      dsimp only at hget
      rw [bind_ok (x := nitioGiModeReg _) (giReg_of_lt hi),
        bind_ok (x := nitioGiSecondGateReg _) (giReg_of_lt hi), if_neg (by decide), if_pos rfl,
        if_neg (fun hn => hn.elim he hm)] at hget
      obtain ⟨source, hs, -⟩ := bind_eq_ok hget
      exact ⟨source, hs⟩
    rw [getGateSrc_second hi rfl he hm hdec] at hget
    cases hget
    exact ⟨_, getGateSrc_second hi' hreg he' hm (by rw [h.variant]; exact hdec),
      sameGate_flags _ _ _ _⟩

theorem setFirstGate_enabled (hd : crChan gateSource ≠ niGpctDisabledGateSelect)
    (h : niTioSetGateSrc d c 0 gateSource = .ok (0, d')) : FirstEnabled d' c := by
  generalize hgi : (0 : U32) = gi at h
  generalize hr : ((0 : Int), d') = r at h
  cases setGateSrc_cases h with
  | firstDisabled hn => exact absurd hn hd
  | firstNone => cases hr
  | first _ select =>
    cases hr
    exact (gateFlags_modifiers (enableFirst_mode d c gateSource select)).2.2
  | secondAbsent => cases hr
  | secondDisabled => cases hgi
  | secondNone => cases hr
  | second => cases hgi
  | other _ h₀ => exact absurd hgi.symm h₀

/-- The next reading of the gate that was set. A disabled gate has no flags. -/
def ReadsBack (d' : NiGpctDevice) (c : Nat) (data : Nat → U32) : Prop :=
  ∀ get reads : Nat → U32, get 0 = insnConfigGetGateSrc → get 1 = data 1 →
    ∃ word, niTioInsnConfig d' c get reads = .ok (0, update get 2 word, d') ∧
      (crChan (data 2) = niGpctDisabledGateSelect → word = niGpctDisabledGateSelect) ∧
      (crChan (data 2) ≠ niGpctDisabledGateSelect → SameGate word (data 2) ∧
        (data 1 = 0 → word &&& crEdge = data 2 &&& crEdge))

/-- What setting a gate leaves: the clock sources, the first gates if it was the second, and the
second gate if it was the first, which stays enabled. -/
structure LeavesOthers (d d' : NiGpctDevice) (c : Nat) (data : Nat → U32) : Prop where
  clock : ∀ c', niTioGetClockSrc d' c' = niTioGetClockSrc d c'
  first : data 1 = 1 → ∀ c', niTioGetGateSrc d' c' 0 = niTioGetGateSrc d c' 0
  second : data 1 = 0 → FirstEnabled d c → crChan (data 2) ≠ niGpctDisabledGateSelect →
    ∀ ret word, niTioGetGateSrc d c 1 = .ok (ret, some word) →
      ∃ word', niTioGetGateSrc d' c 1 = .ok (ret, some word') ∧ SameGate word' word

theorem insnConfig_getGateSrc {get reads : Nat → U32} {word : U32}
    (hget : get 0 = insnConfigGetGateSrc) (h : niTioGetGateSrc d c (get 1) = .ok (0, some word)) :
    niTioInsnConfig d c get reads = .ok (0, update get 2 word, d) := by
  simp only [niTioInsnConfig, hget]
  exact bind_ok h _

/-- A gate that was set is read back, and setting it leaves the clock source and the other gate. -/
theorem gateSrc_reads_back {d₀ : NiGpctDevice} (h₀ : Constructed d₀)
    {calls : List (Nat × TioCall)} (hrun : run tioStep d₀ calls = .ok d)
    {data data' reads : Nat → U32} (hset : data 0 = insnConfigSetGateSrc)
    (h : niTioInsnConfig d c data reads = .ok (0, data', d')) :
    (data 1 = 0 ∨ d.variant = .ni660x ∧ data 1 = 1 ∧ FirstEnabled d c → ReadsBack d' c data) ∧
      LeavesOthers d d' c data := by
  have hd : Sound d := (Constructed.sound h₀).run hrun
  simp only [niTioInsnConfig, hset] at h
  obtain ⟨⟨ret, d₁⟩, hx, h⟩ := bind_eq_ok (x := niTioSetGateSrc d c (data 1) (data 2)) h
  cases h
  have ht := (setGateSrc_step hx).1
  refine ⟨fun hindex get reads hget hsame => ?_, ?_, ?_, ?_⟩
  · obtain h₁ | ⟨hv, h₁, he⟩ := hindex
    · rw [h₁] at hx hsame
      obtain ⟨word, hw, hdis, hen⟩ := setFirstGate_reads_back (hd.2.lt c) hx
      rw [← hsame] at hw
      exact ⟨word, insnConfig_getGateSrc hget hw, hdis,
        fun hn => ⟨(hen hn).1, fun _ => (hen hn).2⟩⟩
    · rw [h₁] at hx hsame
      obtain ⟨word, hw, hdis, hen⟩ := setSecondGate_reads_back (hd.2.lt c) hv he hx
      rw [← hsame] at hw
      refine ⟨word, insnConfig_getGateSrc hget hw, hdis, fun hn => ⟨hen hn, fun h₀ => ?_⟩⟩
      rw [h₁] at h₀
      exact absurd h₀ (by decide)
  · exact fun c' => getClockSrc_touches (ht.neutral (gate_neutral _ _)) (hd.2.lt c')
  · intro h₁ c'
    rw [h₁] at ht
    exact getGateSrc_first_touches ht (hd.2.lt c')
  · intro h₁ he hn ret word hw
    rw [h₁] at ht hx
    exact getGateSrc_second_same (hd.2.lt c) ht he (setFirstGate_enabled hn hx) hw

theorem gateSrc_reads_back_newBoard : ∃ d' data', niTioInsnConfig (newBoard .ni660x) 5
      (words insnConfigSetGateSrc 0 0xc0000102) (fun _ => 0) = .ok (0, data', d') ∧
    ReadsBack d' 5 (words insnConfigSetGateSrc 0 0xc0000102) := by
  have hset : words insnConfigSetGateSrc 0 0xc0000102 0 = insnConfigSetGateSrc := rfl
  obtain ⟨d', data', h⟩ : ∃ d' data', niTioInsnConfig (newBoard .ni660x) 5
      (words insnConfigSetGateSrc 0 0xc0000102) (fun _ => 0) = .ok (0, data', d') := ⟨_, _, rfl⟩
  exact ⟨d', data', h, (gateSrc_reads_back (constructed_newBoard .ni660x)
    (show run tioStep (newBoard .ni660x) [] = .ok _ from rfl) hset h).1 (.inl rfl)⟩

/-- A gate that is disabled with the flag for an inverted one is read back without it. -/
theorem disabledGate_flags : ∃ d data' data'', niTioInsnConfig (newBoard .mSeries) 0
      (words insnConfigSetGateSrc 0 (niGpctDisabledGateSelect ||| crInvert)) (fun _ => 0) =
        .ok (0, data', d) ∧
    niTioInsnConfig d 0 (words insnConfigGetGateSrc 0 0) (fun _ => 0) = .ok (0, data'', d) ∧
    data'' 2 = niGpctDisabledGateSelect := by
  exact ⟨_, _, _, rfl, rfl, by decide⟩

end Comedi.NiTioGateReadback
