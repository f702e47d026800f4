import Comedi.BitFlags
import Comedi.GuardedRuns
import Comedi.NiTioCmd

namespace Comedi.NiTioFootprints

open Instructions ChanlistCheck SharedRegs NiTio NiTioInsn NiTioCmd GuardedRuns
open Function (update)

/-- The bits of the registers of a counter that a function may change, and whether it may change
the period of the clock. -/
structure Footprint where
  bits : RegName → U32
  period : Prop := False

namespace Footprint

/-- The bits among all registers, for the counters with the index `i`. -/
def owned (F : Footprint) (i : Nat) (r : NiGpctRegister) : U32 :=
  if r.index = i then F.bits r.name else 0

end Footprint

/-- The registers that have a software copy. -/
def hasCopy : RegName → Bool
  | .command | .mode | .inputSelect | .countingMode | .secondGate | .loadA | .loadB | .abz
  | .dmaConfig | .interruptEnable => true
  | _ => false

/-- The bits that are written to a register and not kept in its copy. -/
def transientBits : RegName → U32
  | .command => giArmBit ||| giDisarmBit ||| giLoadBit ||| giArmCopyBit
  | _ => 0

/-- The value last written to the register is its copy, up to the transient bits. -/
def Shown (d : NiGpctDevice) (chip : Nat) (r : NiGpctRegister) : Prop :=
  ∃ v, d.written chip r = some v ∧
    v &&& ~~~transientBits r.name = d.regs r &&& ~~~transientBits r.name

/-- What a function may change that works on the counter `c`. -/
structure Touches (F : Footprint) (d : NiGpctDevice) (c : Nat) (d' : NiGpctDevice) : Prop where
  variant : d'.variant = d.variant
  counterIndex : ∀ c', (d'.counters c').counterIndex = (d.counters c').counterIndex
  chipIndex : ∀ c', (d'.counters c').chipIndex = (d.counters c').chipIndex
  period : ¬ F.period → ∀ c', (d'.counters c').clockPeriodPs = (d.counters c').clockPeriodPs
  regs : Within (F.owned (d.counters c).counterIndex) d.regs d'.regs
  otherChips : ∀ chip, chip ≠ (d.counters c).chipIndex → d'.written chip = d.written chip

/-- What it does when it also writes the copies that it changes to the registers. -/
structure Step (F : Footprint) (d : NiGpctDevice) (c : Nat) (d' : NiGpctDevice) : Prop
    extends Touches F d c d' where
  shown : ∀ r, hasCopy r.name →
    (d'.regs r = d.regs r ∧ d'.written (d.counters c).chipIndex r =
      d.written (d.counters c).chipIndex r) ∨ Shown d' (d.counters c).chipIndex r

variable {F G : Footprint} {d d' d'' : NiGpctDevice} {c i : Nat} {name : RegName}
variable {mask values transient : U32}

theorem Touches.refl (F : Footprint) (d : NiGpctDevice) (c : Nat) : Touches F d c d where
  variant := rfl
  counterIndex _ := rfl
  chipIndex _ := rfl
  period _ _ := rfl
  regs := Within.refl _ _
  otherChips _ _ := rfl

theorem Touches.trans (h : Touches F d c d') (h' : Touches F d' c d'') : Touches F d c d'' where
  variant := h'.variant.trans h.variant
  counterIndex c' := (h'.counterIndex c').trans (h.counterIndex c')
  chipIndex c' := (h'.chipIndex c').trans (h.chipIndex c')
  period hp c' := (h'.period hp c').trans (h.period hp c')
  regs := h.regs.trans (h.counterIndex c ▸ h'.regs)
  otherChips chip hc := (h'.otherChips chip (h.chipIndex c ▸ hc)).trans (h.otherChips chip hc)

theorem Touches.mono (h : Touches F d c d') (hb : ∀ n, F.bits n &&& ~~~G.bits n = 0)
    (hp : F.period → G.period) : Touches G d c d' where
  variant := h.variant
  counterIndex := h.counterIndex
  chipIndex := h.chipIndex
  period hn := h.period fun hf => hn (hp hf)
  regs := by
    refine h.regs.mono fun r => ?_
    unfold Footprint.owned
    split
    · exact hb r.name
    · exact BitVec.zero_and
  otherChips := h.otherChips

/-- A field of a register that is not in the footprint is the same. -/
theorem Touches.field (h : Touches F d c d') {f : U32} (hf : f &&& F.bits name = 0) (i : Nat) :
    d'.regs ⟨name, i⟩ &&& f = d.regs ⟨name, i⟩ &&& f := by
  refine h.regs.field ?_
  unfold Footprint.owned
  split
  · exact hf
  · exact BitVec.and_zero

/-- A register that is not in the footprint is the same. -/
theorem Touches.regs_eq (h : Touches F d c d') {r : NiGpctRegister}
    (hr : F.owned (d.counters c).counterIndex r = 0) : d'.regs r = d.regs r := by
  have hw := h.regs r
  rw [hr, show ~~~(0 : U32) = BitVec.allOnes 32 by decide, BitVec.and_allOnes,
    BitVec.and_allOnes] at hw
  exact hw

theorem Step.refl (F : Footprint) (d : NiGpctDevice) (c : Nat) : Step F d c d :=
  ⟨Touches.refl F d c, fun _ _ => .inl ⟨rfl, rfl⟩⟩

theorem Step.trans (h : Step F d c d') (h' : Step F d' c d'') : Step F d c d'' where
  toTouches := h.toTouches.trans h'.toTouches
  shown r hr := by
    have h₂ := h'.shown r hr
    rw [h.chipIndex c] at h₂
    obtain ⟨he, hw⟩ | hs := h₂
    · obtain ⟨he', hw'⟩ | ⟨v, hv, hs⟩ := h.shown r hr
      · exact .inl ⟨he.trans he', hw.trans hw'⟩
      · exact .inr ⟨v, hw.trans hv, by rw [he, hs]⟩
    · exact .inr hs

theorem Step.mono (h : Step F d c d') (hb : ∀ n, F.bits n &&& ~~~G.bits n = 0)
    (hp : F.period → G.period) : Step G d c d' :=
  ⟨h.toTouches.mono hb hp, h.shown⟩

theorem writeRegister_self (d : NiGpctDevice) (c : Nat) (v : U32) (r : NiGpctRegister) :
    (writeRegister d c v r).written (d.counters c).chipIndex r = some v := by
  simp only [writeRegister, Function.update_self]

theorem writeRegister_of_ne (d : NiGpctDevice) (c : Nat) (v : U32) {r r' : NiGpctRegister}
    (h : r' ≠ r) : (writeRegister d c v r).written (d.counters c).chipIndex r' =
      d.written (d.counters c).chipIndex r' := by
  simp only [writeRegister, Function.update_self, Function.update_of_ne h]

theorem writeRegister_otherChip (d : NiGpctDevice) (c : Nat) (v : U32) (r : NiGpctRegister)
    {chip : Nat} (h : chip ≠ (d.counters c).chipIndex) :
    (writeRegister d c v r).written chip = d.written chip :=
  Function.update_of_ne h _ _

theorem niTioSetBits_regs (d : NiGpctDevice) (c : Nat) (r : NiGpctRegister) (mask values : U32) :
    (niTioSetBits d c r mask values).regs = setBits d.regs r mask values := rfl

theorem step_setBitsTransient (F : Footprint) (d : NiGpctDevice) (c : Nat) (name : RegName)
    (values : U32) (hm : mask &&& ~~~F.bits name = 0)
    (ht : transient &&& ~~~transientBits name = 0) :
    Step F d c (niTioSetBitsTransient d c ⟨name, (d.counters c).counterIndex⟩ mask values
      transient) where
  variant := rfl
  counterIndex _ := rfl
  chipIndex _ := rfl
  period _ _ := rfl
  regs := by
    refine Within.setBits _ ?_ values
    unfold Footprint.owned
    rw [if_pos rfl]
    exact hm
  otherChips chip hc := writeRegister_otherChip _ _ _ _ hc
  shown r hr := by
    by_cases he : r = ⟨name, (d.counters c).counterIndex⟩
    · subst he
      refine .inr ⟨_, writeRegister_self _ _ _ _, ?_⟩
      change (setBits d.regs _ mask values _ ||| transient) &&& ~~~transientBits name = _
      rw [BitFlags.and_or_of_disjoint ht]
      rfl
    · exact .inl ⟨setBits_of_ne he, writeRegister_of_ne _ _ _ he⟩

theorem step_setBits (F : Footprint) (d : NiGpctDevice) (c : Nat) (name : RegName)
    (values : U32) (hm : mask &&& ~~~F.bits name = 0) :
    Step F d c (niTioSetBits d c ⟨name, (d.counters c).counterIndex⟩ mask values) :=
  step_setBitsTransient F d c name values hm BitVec.zero_and

theorem step_setRegister (F : Footprint) (d : NiGpctDevice) (c : Nat) (name : RegName)
    (value : U32) (hv : value &&& ~~~F.bits name =
      d.regs ⟨name, (d.counters c).counterIndex⟩ &&& ~~~F.bits name) :
    Step F d c (setRegister d c ⟨name, (d.counters c).counterIndex⟩ value) where
  variant := rfl
  counterIndex _ := rfl
  chipIndex _ := rfl
  period _ _ := rfl
  regs r := by
    by_cases he : r = ⟨name, (d.counters c).counterIndex⟩
    · subst he
      simp only [setRegister, writeRegister, Function.update_self, Footprint.owned, if_true]
      exact hv
    · simp only [setRegister, writeRegister, Function.update_of_ne he]
  otherChips chip hc := writeRegister_otherChip _ _ _ _ hc
  shown r hr := by
    by_cases he : r = ⟨name, (d.counters c).counterIndex⟩
    · subst he
      refine .inr ⟨value, writeRegister_self _ _ _ _, ?_⟩
      simp only [setRegister, writeRegister, Function.update_self]
    · refine .inl ⟨?_, writeRegister_of_ne _ _ _ he⟩
      simp only [setRegister, writeRegister, Function.update_of_ne he]

/-- A register without a copy. -/
theorem step_writeRegister (F : Footprint) (d : NiGpctDevice) (c : Nat) (v : U32)
    {r : NiGpctRegister} (hr : hasCopy r.name = false) : Step F d c (writeRegister d c v r) where
  variant := rfl
  counterIndex _ := rfl
  chipIndex _ := rfl
  period _ _ := rfl
  regs := Within.refl _ _
  otherChips chip hc := writeRegister_otherChip _ _ _ _ hc
  shown r' hr' := by
    refine .inl ⟨rfl, writeRegister_of_ne _ _ _ fun he => ?_⟩
    rw [he, hr] at hr'
    cases hr'

/-- A register is written, and written again with its copy. -/
theorem Step.writeBack {v : U32} {r : NiGpctRegister} (h : Step F (writeRegister d c v r) c d') :
    Step F d c (writeRegister d' c (d'.regs r) r) where
  variant := h.variant
  counterIndex := h.counterIndex
  chipIndex := h.chipIndex
  period := h.period
  regs := h.regs
  otherChips chip hc := by
    have hchip : (d'.counters c).chipIndex = (d.counters c).chipIndex := h.chipIndex c
    rw [writeRegister_otherChip d' c _ r (hchip ▸ hc), h.otherChips chip hc,
      writeRegister_otherChip d c v r hc]
  shown r' hr' := by
    have hchip : (d'.counters c).chipIndex = (d.counters c).chipIndex := h.chipIndex c
    by_cases he : r' = r
    · subst he
      exact .inr ⟨_, hchip ▸ writeRegister_self d' c _ r', rfl⟩
    · have hw : (writeRegister d' c (d'.regs r) r).written (d.counters c).chipIndex r' =
          d'.written (d.counters c).chipIndex r' := hchip ▸ writeRegister_of_ne d' c _ he
      have hw' := writeRegister_of_ne d c v he
      obtain ⟨hregs, hwritten⟩ | ⟨w, hwritten, hs⟩ := h.shown r' hr'
      · exact .inl ⟨hregs, hw.trans (hwritten.trans hw')⟩
      · exact .inr ⟨w, hw.trans hwritten, hs⟩

theorem update_counter {α : Type} (f : NiGpct → α) (d : NiGpctDevice) (c : Nat) {g : NiGpct}
    (h : f g = f (d.counters c)) (c' : Nat) : f (update d.counters c g c') = f (d.counters c') := by
  by_cases hc : c' = c
  · rw [hc, Function.update_self, h]
  · rw [Function.update_of_ne hc]

/-- A change of the record of the counter. -/
theorem step_setCounter (F : Footprint) (d : NiGpctDevice) (c : Nat) {g : NiGpct}
    (hi : g.counterIndex = (d.counters c).counterIndex)
    (hc : g.chipIndex = (d.counters c).chipIndex)
    (hp : ¬ F.period → g.clockPeriodPs = (d.counters c).clockPeriodPs) :
    Step F d c { d with counters := update d.counters c g } where
  variant := rfl
  counterIndex := update_counter _ d c hi
  chipIndex := update_counter _ d c hc
  period h := update_counter _ d c (hp h)
  regs := Within.refl _ _
  otherChips _ _ := rfl
  shown _ _ := .inl ⟨rfl, rfl⟩

theorem giReg_eq_ok {n : Nat} {r : NiGpctRegister} (h : giReg name n i = .ok r) :
    i < n ∧ r = ⟨name, i⟩ := by
  unfold giReg at h
  split at h
  · cases h
    exact ⟨‹_›, rfl⟩
  · cases h

theorem giReg_of_lt {n : Nat} (h : i < n) : giReg name n i = .ok ⟨name, i⟩ := if_pos h

theorem gxxReg_eq_ok {r : NiGpctRegister} (h : gxxReg name i = .ok r) :
    i < 4 ∧ r = ⟨name, i / 2⟩ := by
  unfold gxxReg at h
  split at h
  · cases h
    exact ⟨‹_›, rfl⟩
  · cases h

theorem gxxReg_of_lt (h : i < 4) : gxxReg name i = .ok ⟨name, i / 2⟩ := if_pos h

def everything : Footprint where
  bits _ := ~~~0
  period := True

def syncFootprint (v : NiGpctVariant) : Footprint where
  bits
    | .countingMode => giAlternateSyncBit v
    | _ => 0

def modeFootprint (v : NiGpctVariant) : Footprint where
  bits
    | .mode => modeRegDirectMask ||| giReloadSourceSwitchingBit ||| giGatingModeMask
    | .countingMode =>
      giCountingModeMask ||| giIndexPhaseMask ||| giIndexModeBit ||| giAlternateSyncBit v
    | .command => giUpDownMask
    | .inputSelect => giGateSelectLoadSourceBit ||| giOrGateBit ||| giOutputPolarityBit
    | _ => 0

def armFootprint (v : NiGpctVariant) : Footprint where
  bits
    | .countingMode => giHwArmSelectMask v ||| giHwArmEnableBit
    | _ => 0

def subselectFootprint (v : NiGpctVariant) : Footprint where
  bits
    | .secondGate => if v = .mSeries then giSourceSubselectBit else 0
    | _ => 0

def periodFootprint (v : NiGpctVariant) : Footprint where
  bits
    | .countingMode => giAlternateSyncBit v
    | _ => 0
  period := True

def clockFootprint (v : NiGpctVariant) : Footprint where
  bits
    | .inputSelect => giSourceSelectMask ||| giSourcePolarityBit
    | .countingMode => giPrescaleX2Bit v ||| giPrescaleX8Bit v ||| giAlternateSyncBit v
    | .secondGate => if v = .mSeries then giSourceSubselectBit else 0
    | _ => 0
  period := True

def firstGateFootprint : Footprint where
  bits
    | .mode => giGatePolarityBit ||| giGatingModeMask
    | .inputSelect => giGateSelectMask
    | _ => 0

def secondGateFootprint : Footprint where
  bits
    | .secondGate => giSecondGateModeBit ||| giSecondGateSelectMask ||| giSecondGatePolarityBit
    | _ => 0

def gateFootprint (gateIndex : U32) : Footprint :=
  if gateIndex = 0 then firstGateFootprint else secondGateFootprint

def dmaFootprint : Footprint where
  bits
    | .inputSelect => giReadAcknowledgesIrq ||| giWriteAcknowledgesIrq
    | .dmaConfig => giDmaEnableBit ||| giDmaIntBit ||| giDmaWriteBit
    | _ => 0

/-- The register that enables the interrupt of the gate. -/
def interruptFootprint : Footprint where
  bits
    | .interruptEnable => ~~~0
    | _ => 0

def otherFootprint : Footprint where
  bits
    | .abz => 0x7fff
    | _ => 0

def countFootprint : Footprint where
  bits
    | .command => giSaveTraceBit
    | .loadA | .loadB => ~~~0
    | _ => 0

/-- The fields of the registers that a clock source is spread over. -/
def clockFields (v : NiGpctVariant) : RegName → U32
  | .inputSelect => giSourceSelectMask ||| giSourcePolarityBit
  | .countingMode => giPrescaleX2Bit v ||| giPrescaleX8Bit v
  | .secondGate => giSourceSubselectBit
  | _ => 0

def clockNeutral (v : NiGpctVariant) : Footprint where
  bits n := ~~~clockFields v n

def NeutralFootprint (v : NiGpctVariant) (F : Footprint) : Prop :=
  ¬ F.period ∧ ∀ n, F.bits n &&& clockFields v n = 0

theorem Touches.neutral (h : Touches F d c d') (hF : NeutralFootprint d.variant F) :
    Touches (clockNeutral d.variant) d c d' := by
  refine h.mono (fun n => ?_) fun hp => absurd hp hF.1
  simp only [clockNeutral, BitVec.not_not]
  exact hF.2 n

theorem gate_neutral (v : NiGpctVariant) (gateIndex : U32) :
    NeutralFootprint v (gateFootprint gateIndex) := by
  unfold gateFootprint
  split
  · exact ⟨id, by cases v <;> intro n <;> cases n <;> decide⟩
  · exact ⟨id, by cases v <;> intro n <;> cases n <;> decide⟩

theorem Step.everything (h : Step F d c d') : Step everything d c d' :=
  h.mono (fun n => by simp [NiTioFootprints.everything]) fun _ => trivial

end Comedi.NiTioFootprints
