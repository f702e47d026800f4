import Comedi.Ni660xPfi

namespace Comedi.Ni660xPins

open Instructions GuardedRuns SharedRegs Ni660xPfi

variable {d d' : Dev} {io io' io'' : IoConfig} {c chip ch n : Nat} {v source : U32}

def outputMask (ch : Nat) : U16 := (pfiOutputSelectMask ch).setWidth 16

def filterMask (ch : Nat) : U16 := (pfiInputSelectMask ch).setWidth 16

/-- The output-select field of a channel in a chip, in its place in the register. -/
def outputField (io : IoConfig) (chip ch : Nat) : U16 := io (chip, ch / 2) &&& outputMask ch

def filterField (io : IoConfig) (chip ch : Nat) : U16 := io (chip, ch / 2) &&& filterMask ch

/-- A code in the place of the output-select field. -/
def code (ch : Nat) (outputSelect : U32) : U16 := (pfiOutputSelectBits ch outputSelect).setWidth 16

def filterCode (ch : Nat) (filter : U32) : U16 := (pfiInputSelectBits ch filter).setWidth 16

/-- No pin is driven by two chips. -/
def Apart (nChips : Nat) (io : IoConfig) : Prop :=
  ∀ ch < numPfiChannels, ∀ c < nChips, ∀ c' < nChips,
    outputField io c ch ≠ 0 → outputField io c' ch ≠ 0 → c = c'

/-- The sources that a channel can have. -/
def Allowed (ch : Nat) (source : U32) : Prop :=
  (source = pfiOutputSelectCounter ∧ minCounterPfiChan ≤ ch) ∨
    (source = pfiOutputSelectDo ∧ ch ≤ maxDioPfiChan)

/-- No two chips have ever driven a pin since the attach, an input is not driven, and an output is
driven by the chip of its source, with the code of that source. -/
structure Driven (d : Dev) : Prop where
  apart : ∀ io ∈ d.past, Apart d.nChips io
  current : d.ioConfig ∈ d.past
  input : ∀ ch < numPfiChannels, ¬ isOutput d ch → ∀ c < d.nChips, outputField d.ioConfig c ch = 0
  output : ∀ ch < numPfiChannels, isOutput d ch →
    outputField d.ioConfig (activeChipset d.nChips ch (selected d ch)) ch = code ch (selected d ch)
  allowed : ∀ ch < numPfiChannels, Allowed ch (selected d ch)

/-- The registers differ in the output-select field of one channel only. -/
structure SameBut (ch : Nat) (io io' : IoConfig) : Prop where
  output : ∀ c, ∀ ch' ≠ ch, outputField io' c ch' = outputField io c ch'
  filter : ∀ c ch', filterField io' c ch' = filterField io c ch'

theorem SameBut.trans (h : SameBut ch io io') (h' : SameBut ch io' io'') : SameBut ch io io'' :=
  ⟨fun c ch' hne => (h'.output c ch' hne).trans (h.output c ch' hne),
    fun c ch' => (h'.filter c ch').trans (h.filter c ch')⟩

theorem ioconfigBitshift_cases (ch : Nat) :
    (ch % 2 = 1 ∧ ioconfigBitshift ch = 0) ∨ (ch % 2 = 0 ∧ ioconfigBitshift ch = 8) := by
  unfold ioconfigBitshift
  split
  · left
    omega
  · right
    omega

/-- Channels of one register have their fields in different places. -/
theorem masks_disjoint {ch ch' : Nat} (hne : ch' ≠ ch) (hpair : ch' / 2 = ch / 2) :
    outputMask ch &&& outputMask ch' = 0 ∧ filterMask ch &&& filterMask ch' = 0 := by
  unfold outputMask filterMask pfiOutputSelectMask pfiInputSelectMask
  rcases ioconfigBitshift_cases ch with ⟨h, hs⟩ | ⟨h, hs⟩ <;>
    rcases ioconfigBitshift_cases ch' with ⟨h', hs'⟩ | ⟨h', hs'⟩
  · omega
  · rw [hs, hs']
    decide
  · rw [hs, hs']
    decide
  · omega

theorem output_filter_disjoint (ch ch' : Nat) : outputMask ch &&& filterMask ch' = 0 := by
  unfold outputMask filterMask pfiOutputSelectMask pfiInputSelectMask
  rcases ioconfigBitshift_cases ch with ⟨-, hs⟩ | ⟨-, hs⟩ <;>
    rcases ioconfigBitshift_cases ch' with ⟨-, hs'⟩ | ⟨-, hs'⟩ <;> rw [hs, hs'] <;> decide

theorem code_masked (ch : Nat) (v : U32) : code ch v &&& outputMask ch = code ch v := by
  unfold code outputMask pfiOutputSelectBits pfiOutputSelectMask
  rw [← BitVec.setWidth_and, ← BitVec.shiftLeft_and_distrib, BitVec.and_assoc, BitVec.and_self]

theorem filterCode_masked (ch : Nat) (v : U32) : filterCode ch v &&& filterMask ch = filterCode ch v := by
  unfold filterCode filterMask pfiInputSelectBits pfiInputSelectMask
  rw [← BitVec.setWidth_and, ← BitVec.shiftLeft_and_distrib, BitVec.and_assoc, BitVec.and_self]

theorem code_highZ (ch : Nat) : code ch pfiOutputSelectHighZ = 0 := by
  unfold code pfiOutputSelectBits
  rcases ioconfigBitshift_cases ch with ⟨-, hs⟩ | ⟨-, hs⟩ <;> rw [hs] <;> rfl

/-- A write through 32 bits changes the bits of the mask in a register of 16. -/
theorem setWidth_change (x : U16) (mask bits : U32) :
    (x.setWidth 32 &&& ~~~mask ||| bits).setWidth 16 =
      x &&& ~~~(mask.setWidth 16) ||| bits.setWidth 16 := by
  ext i hi
  have hi' : i < 32 := by omega
  simp [hi']

theorem changeBits_eq (hch : ch < numPfiChannels) (mask bits : U32)
    (hbits : bits.setWidth 16 &&& mask.setWidth 16 = bits.setWidth 16) :
    let io := setBits d.ioConfig (chip, ch / 2) (mask.setWidth 16) (bits.setWidth 16)
    changeBits d chip ch mask bits = .ok { d with ioConfig := io, past := io :: d.past } := by
  have hreg : ioConfigReg ch = .ok (ch / 2) := by
    unfold numPfiChannels at hch
    exact if_neg (by omega)
  have hio : Function.update d.ioConfig (chip, ch / 2)
      ((ni660xReadRegister d chip (ch / 2) &&& ~~~mask ||| bits).setWidth 16) =
      setBits d.ioConfig (chip, ch / 2) (mask.setWidth 16) (bits.setWidth 16) := by
    rw [ni660xReadRegister, setWidth_change, setBits, hbits]
  unfold changeBits
  rw [bind_ok hreg]
  dsimp only [ni660xWriteRegister]
  rw [hio]
  rfl

/-- The output of a channel is selected in one chip. -/
def select (io : IoConfig) (chip ch : Nat) (v : U32) : IoConfig :=
  setBits io (chip, ch / 2) (outputMask ch) (code ch v)

theorem changeBits_output (hch : ch < numPfiChannels) (d : Dev) (chip : Nat) (v : U32) :
    changeBits d chip ch (pfiOutputSelectMask ch) (pfiOutputSelectBits ch v) =
      .ok { d with
        ioConfig := select d.ioConfig chip ch v
        past := select d.ioConfig chip ch v :: d.past } :=
  changeBits_eq hch _ _ (code_masked ch v)

theorem select_field (io : IoConfig) (chip ch : Nat) (v : U32) :
    outputField (select io chip ch v) chip ch = code ch v := by
  rw [outputField, select, setBits_self, and_setBits_of_subset, code_masked]
  exact BitVec.and_not_self _

theorem select_other (io : IoConfig) (hc : c ≠ chip) (ch : Nat) (v : U32) :
    outputField (select io chip ch v) c ch = outputField io c ch := by
  rw [outputField, select, setBits_of_ne (fun h => hc (Prod.ext_iff.mp h).1)]
  rfl

theorem select_sameBut (io : IoConfig) (chip ch : Nat) (v : U32) :
    SameBut ch io (select io chip ch v) := by
  refine ⟨fun c ch' hne => ?_, fun c ch' => ?_⟩
  · unfold outputField select
    by_cases hr : (c, ch' / 2) = (chip, ch / 2)
    · rw [hr, setBits_self]
      exact and_setBits_of_disjoint (masks_disjoint hne (Prod.ext_iff.mp hr).2).1
    · rw [setBits_of_ne hr]
  · unfold filterField select
    by_cases hr : (c, ch' / 2) = (chip, ch / 2)
    · rw [hr, setBits_self]
      exact and_setBits_of_disjoint (output_filter_disjoint ch ch')
    · rw [setBits_of_ne hr]

/-- The output of a channel is selected: one chip has the code, the others leave the pin alone, and
on the way no pin was driven twice. -/
structure Selects (ch : Nat) (v : U32) (d d' : Dev) : Prop where
  chips : d'.nChips = d.nChips
  direction : d'.pfiDirectionBits = d.pfiDirectionBits
  selects : d'.pfiOutputSelects = d.pfiOutputSelects
  same : SameBut ch d.ioConfig d'.ioConfig
  active : outputField d'.ioConfig (activeChipset d.nChips ch v) ch = code ch v
  idle : ∀ c < d.nChips, c ≠ activeChipset d.nChips ch v → outputField d'.ioConfig c ch = 0
  past : ∃ ios, d'.past = ios ++ d.past ∧ d'.ioConfig ∈ ios ∧ ∀ io ∈ ios, SameBut ch d.ioConfig io ∧
    ∀ c < d.nChips, ∀ c' < d.nChips, outputField io c ch ≠ 0 → outputField io c' ch ≠ 0 → c = c'

theorem activeChipset_two (ch : Nat) (v : U32) :
    activeChipset 2 ch v = 0 ∨ activeChipset 2 ch v = 1 := by
  unfold activeChipset
  split
  · exact .inr rfl
  · exact .inl rfl

theorem selectPfiOutput_spec (hn : d.nChips = 1 ∨ d.nChips = 2) (hch : ch < numPfiChannels)
    (v : U32) : ∃ d', ni660xSelectPfiOutput d ch v = .ok d' ∧ Selects ch v d d' := by
  obtain ⟨nChips, ioConfig, past, bits, selects⟩ := d
  rcases hn with hn | hn <;> dsimp only at hn <;> subst hn
  · have hsame : SameBut ch ioConfig (select ioConfig 0 ch v) := select_sameBut ioConfig 0 ch v
    refine ⟨_, changeBits_output hch _ 0 v, rfl, rfl, rfl, hsame, select_field ioConfig 0 ch v,
      fun c hc hne => absurd (Nat.lt_one_iff.mp hc) hne, [_], rfl, List.mem_singleton_self _,
      fun io hio => ⟨?_, fun c hc c' hc' _ _ => ?_⟩⟩
    · rwa [List.mem_singleton.mp hio]
    · exact (Nat.lt_one_iff.mp hc).trans (Nat.lt_one_iff.mp hc').symm
  · generalize hactive : activeChipset 2 ch v = active
    have hidle : idleChipset 2 ch v = 1 - active := by
      rw [← hactive]
      exact if_pos (by decide)
    have hne : 1 - active ≠ active := by omega
    have hother (c : Nat) (hc : c < 2) (h : c ≠ active) : c = 1 - active := by
      have := activeChipset_two ch v
      omega
    let io₁ := select ioConfig (1 - active) ch pfiOutputSelectHighZ
    let io₂ := select io₁ active ch v
    have hz : outputField io₁ (1 - active) ch = 0 :=
      (select_field ..).trans (code_highZ ch)
    have hz₂ : outputField io₂ (1 - active) ch = 0 := (select_other io₁ hne ch v).trans hz
    have hsame₁ : SameBut ch ioConfig io₁ := select_sameBut ..
    have hsame₂ : SameBut ch ioConfig io₂ := hsame₁.trans (select_sameBut ..)
    -- in both contents of the registers the other chip is the only one that may drive the pin
    have honce (io : IoConfig) (h : outputField io (1 - active) ch = 0) (c : Nat) (hc : c < 2)
        (hf : outputField io c ch ≠ 0) : c = active := by
      by_contra hca
      rw [hother c hc hca] at hf
      exact hf h
    refine ⟨⟨2, io₂, io₂ :: io₁ :: past, bits, selects⟩, ?_, rfl, rfl, rfl, hsame₂, ?_,
      fun c hc h => ?_, [io₂, io₁], rfl, List.mem_cons_self, fun io hio => ?_⟩
    · unfold ni660xSelectPfiOutput
      dsimp only
      rw [hactive, hidle, if_pos hne]
      rw [bind_ok (changeBits_output hch _ _ _)]
      exact changeBits_output hch _ _ _
    · dsimp only
      rw [hactive]
      exact select_field ..
    · dsimp only at hc h
      rw [hactive] at h
      rw [hother c hc h]
      exact hz₂
    · rcases List.mem_cons.mp hio with rfl | hio
      · exact ⟨hsame₂, fun c hc c' hc' hf hf' =>
          (honce _ hz₂ c hc hf).trans (honce _ hz₂ c' hc' hf').symm⟩
      · rw [List.mem_singleton.mp hio]
        exact ⟨hsame₁, fun c hc c' hc' hf hf' =>
          (honce _ hz c hc hf).trans (honce _ hz c' hc' hf').symm⟩

theorem Selects.apart (h : Selects ch v d d') (hpast : ∀ io ∈ d.past, Apart d.nChips io)
    (hcur : d.ioConfig ∈ d.past) : ∀ io ∈ d'.past, Apart d'.nChips io := by
  obtain ⟨ios, hios, -, hnew⟩ := h.past
  intro io hio
  rw [h.chips]
  rw [hios] at hio
  rcases List.mem_append.mp hio with hio | hio
  · intro ch' hch' c hc c' hc' hf hf'
    by_cases hch : ch' = ch
    · subst hch
      exact (hnew io hio).2 c hc c' hc' hf hf'
    · rw [(hnew io hio).1.output _ _ hch] at hf hf'
      exact hpast _ hcur ch' hch' c hc c' hc' hf hf'
  · exact hpast io hio

theorem Selects.current (h : Selects ch v d d') : d'.ioConfig ∈ d'.past := by
  obtain ⟨ios, hios, hmem, -⟩ := h.past
  rw [hios]
  exact List.mem_append_left _ hmem

/-- A channel to which the high impedance is selected is not driven. -/
theorem Selects.highZ (h : Selects ch pfiOutputSelectHighZ d d') (hc : c < d.nChips) :
    outputField d'.ioConfig c ch = 0 := by
  by_cases hca : c = activeChipset d.nChips ch pfiOutputSelectHighZ
  · rw [hca, h.active, code_highZ]
  · exact h.idle c hc hca

theorem isOutput_iff (d : Dev) (hch : ch < numPfiChannels) :
    isOutput d ch ↔ d.pfiDirectionBits.getLsbD ch = true := by
  unfold numPfiChannels at hch
  have hbit : chanBit ch = BitVec.twoPow 64 ch := rfl
  have hne : BitVec.twoPow 64 ch ≠ 0 := by
    rw [Ne, ← BitVec.toNat_inj, BitVec.toNat_twoPow_of_lt (by omega)]
    exact (Nat.two_pow_pos ch).ne'
  rw [isOutput, hbit, BitVec.and_twoPow]
  cases d.pfiDirectionBits.getLsbD ch with
  | true => exact ⟨fun _ => rfl, fun _ => hne⟩
  | false => exact ⟨fun h => absurd rfl h, fun h => by cases h⟩

theorem chanBit_getLsbD {ch' : Nat} (hch' : ch' < numPfiChannels) :
    (chanBit ch).getLsbD ch' = decide (ch = ch') := by
  unfold numPfiChannels at hch'
  have hbit : chanBit ch = BitVec.twoPow 64 ch := rfl
  rw [hbit, BitVec.getLsbD_twoPow]
  simp only [Bool.and_eq_right_iff_imp, decide_eq_true_eq]
  omega

/-- Two devices differ in the direction and the source of one channel only. -/
structure SameElse (ch : Nat) (d d' : Dev) : Prop where
  chips : d'.nChips = d.nChips
  io : d'.ioConfig = d.ioConfig
  past : d'.past = d.past
  direction : ∀ ch' < numPfiChannels, ch' ≠ ch → (isOutput d' ch' ↔ isOutput d ch')
  selected : ∀ ch' ≠ ch, selected d' ch' = selected d ch'

/-- What an instruction on channel `ch` leaves as it was. Only one kind of instruction changes the
filter of the channel itself. -/
structure Frame (ch : Nat) (filters : Prop) (d d' : Dev) : Prop where
  chips : d'.nChips = d.nChips
  output : ∀ c, ∀ ch' ≠ ch, outputField d'.ioConfig c ch' = outputField d.ioConfig c ch'
  filter : ∀ c ch', filters → ch' ≠ ch → filterField d'.ioConfig c ch' = filterField d.ioConfig c ch'
  noFilter : ∀ c ch', ¬ filters → filterField d'.ioConfig c ch' = filterField d.ioConfig c ch'
  direction : ∀ ch' < numPfiChannels, ch' ≠ ch → (isOutput d' ch' ↔ isOutput d ch')
  selected : ∀ ch' ≠ ch, selected d' ch' = selected d ch'

theorem Selects.isOutput (h : Selects ch v d d') (ch' : Nat) : isOutput d' ch' ↔ isOutput d ch' := by
  rw [Ni660xPfi.isOutput, h.direction, Ni660xPfi.isOutput]

theorem Selects.selected (h : Selects ch v d d') (ch' : Nat) : selected d' ch' = selected d ch' := by
  rw [Ni660xPfi.selected, h.selects, Ni660xPfi.selected]

section Change

variable {d₁ : Dev}

theorem SameElse.frame (h : SameElse ch d d₁) (filters : Prop) : Frame ch filters d d₁ := by
  refine ⟨h.chips, fun c ch' _ => ?_, fun c ch' _ _ => ?_, fun c ch' _ => ?_, h.direction, h.selected⟩
  all_goals rw [h.io]

theorem SameElse.frame_select (h : SameElse ch d d₁) (hs : Selects ch v d₁ d') (filters : Prop) :
    Frame ch filters d d' := by
  have hfilter (c ch' : Nat) : filterField d'.ioConfig c ch' = filterField d.ioConfig c ch' := by
    rw [hs.same.filter c ch', h.io]
  refine ⟨hs.chips.trans h.chips, fun c ch' hne => ?_, fun c ch' _ _ => hfilter c ch',
    fun c ch' _ => hfilter c ch', fun ch' hch' hne => ?_, fun ch' hne => ?_⟩
  · rw [hs.same.output c ch' hne, h.io]
  · rw [hs.isOutput, h.direction ch' hch' hne]
  · rw [hs.selected, h.selected ch' hne]

theorem Frame.refl (ch : Nat) (filters : Prop) (d : Dev) : Frame ch filters d d :=
  ⟨rfl, fun _ _ _ => rfl, fun _ _ _ _ => rfl, fun _ _ _ => rfl, fun _ _ _ => Iff.rfl, fun _ _ => rfl⟩

/-- After a change of one channel its output is selected as its direction and its source say. -/
theorem Driven.select (hd : Driven d) (h : SameElse ch d d₁) (hs : Selects ch v d₁ d')
    (hallowed : Allowed ch (Ni660xPfi.selected d₁ ch))
    (hv : (isOutput d₁ ch ∧ v = Ni660xPfi.selected d₁ ch) ∨
      (¬ isOutput d₁ ch ∧ v = pfiOutputSelectHighZ)) : Driven d' := by
  have hchips := hs.chips.trans h.chips
  refine ⟨?_, hs.current, fun ch' hch' hin c hc => ?_, fun ch' hch' hout => ?_, fun ch' hch' => ?_⟩
  · refine hs.apart ?_ ?_
    · rw [h.past, h.chips]
      exact hd.apart
    · rw [h.past, h.io]
      exact hd.current
  · rw [hs.isOutput] at hin
    by_cases hne : ch' = ch
    · subst hne
      rcases hv with ⟨hout, -⟩ | ⟨-, rfl⟩
      · exact absurd hout hin
      · exact hs.highZ (hs.chips ▸ hc)
    · rw [h.direction ch' hch' hne] at hin
      rw [hs.same.output c ch' hne, h.io]
      exact hd.input ch' hch' hin c (hchips ▸ hc)
  · rw [hs.isOutput] at hout
    rw [hs.selected, hs.chips]
    by_cases hne : ch' = ch
    · subst hne
      rcases hv with ⟨-, rfl⟩ | ⟨hin, -⟩
      · exact hs.active
      · exact absurd hout hin
    · rw [h.direction ch' hch' hne] at hout
      rw [hs.same.output _ ch' hne, h.io, h.selected ch' hne, h.chips]
      exact hd.output ch' hch' hout
  · rw [hs.selected]
    by_cases hne : ch' = ch
    · rw [hne]
      exact hallowed
    · rw [h.selected ch' hne]
      exact hd.allowed ch' hch'

/-- The source of an input may change without a change of the registers. -/
theorem Driven.stay (hd : Driven d) (h : SameElse ch d d₁) (hin : ¬ isOutput d₁ ch)
    (hin' : ¬ isOutput d ch) (hallowed : Allowed ch (Ni660xPfi.selected d₁ ch)) : Driven d₁ := by
  have hdir (ch' : Nat) (hch' : ch' < numPfiChannels) : isOutput d₁ ch' ↔ isOutput d ch' := by
    by_cases hne : ch' = ch
    · rw [hne]
      exact ⟨fun h => absurd h hin, fun h => absurd h hin'⟩
    · exact h.direction ch' hch' hne
  refine ⟨?_, ?_, fun ch' hch' hi c hc => ?_, fun ch' hch' ho => ?_, fun ch' hch' => ?_⟩
  · rw [h.past, h.chips]
    exact hd.apart
  · rw [h.past, h.io]
    exact hd.current
  · rw [h.io]
    exact hd.input ch' hch' (fun ho => hi ((hdir ch' hch').mpr ho)) c (h.chips ▸ hc)
  · have hne : ch' ≠ ch := fun he => hin (he ▸ ho)
    rw [h.io, h.selected ch' hne, h.chips]
    exact hd.output ch' hch' ((hdir ch' hch').mp ho)
  · by_cases hne : ch' = ch
    · rw [hne]
      exact hallowed
    · rw [h.selected ch' hne]
      exact hd.allowed ch' hch'

end Change

theorem setOutput_sameElse (d : Dev) (hch : ch < numPfiChannels) :
    SameElse ch d (setOutput d ch) ∧ isOutput (setOutput d ch) ch ∧
      selected (setOutput d ch) ch = selected d ch := by
  refine ⟨⟨rfl, rfl, rfl, fun ch' hch' hne => ?_, fun ch' _ => rfl⟩, ?_, rfl⟩
  · rw [isOutput_iff _ hch', isOutput_iff _ hch', setOutput, BitVec.getLsbD_or, chanBit_getLsbD hch']
    simp [hne.symm]
  · rw [isOutput_iff _ hch, setOutput, BitVec.getLsbD_or, chanBit_getLsbD hch]
    simp

theorem setInput_sameElse (d : Dev) (hch : ch < numPfiChannels) :
    SameElse ch d (setInput d ch) ∧ ¬ isOutput (setInput d ch) ch ∧
      selected (setInput d ch) ch = selected d ch := by
  refine ⟨⟨rfl, rfl, rfl, fun ch' hch' hne => ?_, fun ch' _ => rfl⟩, ?_, rfl⟩
  · have hlt : ch' < 64 := by
      unfold numPfiChannels at hch'
      omega
    rw [isOutput_iff _ hch', isOutput_iff _ hch', setInput, BitVec.getLsbD_and, BitVec.getLsbD_not,
      chanBit_getLsbD hch']
    simp [hne.symm, hlt]
  · rw [isOutput_iff _ hch, setInput, BitVec.getLsbD_and, BitVec.getLsbD_not, chanBit_getLsbD hch]
    simp

theorem setSelect_sameElse (d : Dev) (ch : Nat) (source : U32) :
    SameElse ch d (setSelect d ch source) := by
  refine ⟨rfl, rfl, rfl, fun ch' _ _ => Iff.rfl, fun ch' hne => ?_⟩
  unfold selected setSelect
  dsimp only
  rw [Function.update_of_ne hne]

/-- The code after the last one is let through as well. -/
theorem allowed_of_not_refused (h : ¬ refused ch source) (h3 : source ≠ numPfiOutputSelects) :
    Allowed ch source ∧ (source.setWidth 16).setWidth 32 = source := by
  unfold refused minCounterPfiChan maxDioPfiChan at h
  unfold Allowed minCounterPfiChan maxDioPfiChan
  obtain ⟨hle, hz, hcounter, hdo⟩ := not_or.mp h |>.imp_right not_or.mp |>.imp_right
    (And.imp_right not_or.mp)
  have hlt : source < numPfiOutputSelects := by
    rw [BitVec.lt_def] at hle ⊢
    have := mt BitVec.eq_of_toNat_eq h3
    omega
  have hcases : source = pfiOutputSelectCounter ∨ source = pfiOutputSelectDo := by
    have hlt' : source.toNat < 3 := hlt
    have hz' : source.toNat ≠ 0 := fun h => hz (BitVec.eq_of_toNat_eq h)
    have hn : source.toNat = 1 ∨ source.toNat = 2 := by omega
    exact hn.imp BitVec.eq_of_toNat_eq BitVec.eq_of_toNat_eq
  rcases hcases with rfl | rfl
  · exact ⟨.inl ⟨rfl, Nat.le_of_not_lt fun hlt => hcounter ⟨hlt, rfl⟩⟩, rfl⟩
  · refine ⟨.inr ⟨rfl, ?_⟩, rfl⟩
    by_contra hgt
    exact hdo ⟨by omega, by omega, rfl⟩

theorem setSelect_selected (d : Dev) (ch : Nat) (source : U32) :
    selected (setSelect d ch source) ch = (source.setWidth 16).setWidth 32 := by
  unfold selected setSelect
  dsimp only
  rw [Function.update_self]

theorem setPfiRouting_spec (hn : d.nChips = 1 ∨ d.nChips = 2) (hch : ch < numPfiChannels)
    (source : U32) (filters : Prop) :
    ∃ ret d', ni660xSetPfiRouting d ch source = .ok (ret, d') ∧ Frame ch filters d d' ∧
      (Driven d → source ≠ numPfiOutputSelects → Driven d') := by
  unfold ni660xSetPfiRouting
  split
  · exact ⟨_, d, rfl, .refl ch filters d, fun hd _ => hd⟩
  · next hr =>
    rw [if_neg (by omega)]
    have hse := setSelect_sameElse d ch source
    have hsel := setSelect_selected d ch source
    have hout : isOutput (setSelect d ch source) ch ↔ isOutput d ch := Iff.rfl
    generalize setSelect d ch source = d₁ at *
    have hallowed (h3 : source ≠ numPfiOutputSelects) : Allowed ch (selected d₁ ch) := by
      obtain ⟨hallowed, hw⟩ := allowed_of_not_refused hr h3
      rwa [hsel, hw]
    dsimp only
    split
    · next ho =>
      obtain ⟨d', he, hs⟩ := selectPfiOutput_spec (hse.chips ▸ hn) hch (selected d₁ ch)
      rw [bind_ok he]
      exact ⟨_, d', rfl, hse.frame_select hs filters,
        fun hd h3 => hd.select hse hs (hallowed h3) (.inl ⟨ho, rfl⟩)⟩
    · next hi =>
      exact ⟨_, d₁, rfl, hse.frame filters,
        fun hd h3 => hd.stay hse hi (mt hout.mpr hi) (hallowed h3)⟩

theorem configFilter_eq (hch : ch < numPfiChannels) (d : Dev) (filter : U32) :
    let io := setBits d.ioConfig (0, ch / 2) (filterMask ch) (filterCode ch filter)
    ni660xConfigFilter d ch filter = .ok { d with ioConfig := io, past := io :: d.past } :=
  changeBits_eq hch _ _ (filterCode_masked ch filter)

theorem filter_output (io : IoConfig) (ch : Nat) (filter : U32) (c ch' : Nat) :
    outputField (setBits io (0, ch / 2) (filterMask ch) (filterCode ch filter)) c ch' =
      outputField io c ch' := by
  unfold outputField
  by_cases hr : (c, ch' / 2) = (0, ch / 2)
  · rw [hr, setBits_self, and_setBits_of_disjoint]
    rw [BitVec.and_comm]
    exact output_filter_disjoint ch' ch
  · rw [setBits_of_ne hr]

theorem filter_filter (io : IoConfig) (filter : U32) (c : Nat) {ch ch' : Nat} (hne : ch' ≠ ch) :
    filterField (setBits io (0, ch / 2) (filterMask ch) (filterCode ch filter)) c ch' =
      filterField io c ch' := by
  unfold filterField
  by_cases hr : (c, ch' / 2) = (0, ch / 2)
  · rw [hr, setBits_self]
    exact and_setBits_of_disjoint (masks_disjoint hne (Prod.ext_iff.mp hr).2).2
  · rw [setBits_of_ne hr]

theorem Driven.filter (hd : Driven d) (ch : Nat) (filter : U32) :
    let io := setBits d.ioConfig (0, ch / 2) (filterMask ch) (filterCode ch filter)
    Driven { d with ioConfig := io, past := io :: d.past } := by
  intro io
  have hio (c ch' : Nat) : outputField io c ch' = outputField d.ioConfig c ch' :=
    filter_output d.ioConfig ch filter c ch'
  refine ⟨fun x hx => ?_, List.mem_cons_self, fun ch' hch' hi c hc => ?_, fun ch' hch' ho => ?_,
    hd.allowed⟩
  · rcases List.mem_cons.mp hx with rfl | hx
    · intro ch' hch' c hc c' hc' hf hf'
      rw [hio] at hf hf'
      exact hd.apart _ hd.current ch' hch' c hc c' hc' hf hf'
    · exact hd.apart x hx
  · exact (hio c ch').trans (hd.input ch' hch' hi c hc)
  · exact (hio _ ch').trans (hd.output ch' hch' ho)

/-- The instruction sets the source that is none. -/
def setsNone (i : DioInsn) : Prop :=
  i.data0 = insnConfigSetRouting ∧ i.data1 = numPfiOutputSelects

/-- What one instruction does: it keeps to its channel, and pins stay driven as they should unless
it sets the source that is none. -/
theorem insnStep_spec {i : DioInsn} (hn : d.nChips = 1 ∨ d.nChips = 2)
    (hch : i.chan < numPfiChannels) :
    ∃ d', insnStep d i = .ok d' ∧ Frame i.chan (i.data0 = insnConfigFilter) d d' ∧
      (Driven d → ¬ setsNone i → Driven d') := by
  obtain ⟨ch, data0, data1⟩ := i
  dsimp only at hch
  unfold insnStep ni660xDioInsnConfig
  dsimp only
  split
  · obtain ⟨hse, hout, hsel⟩ := setOutput_sameElse d hch
    generalize setOutput d ch = d₁ at *
    obtain ⟨d', he, hs⟩ := selectPfiOutput_spec (hse.chips ▸ hn) hch (selected d₁ ch)
    rw [bind_ok he]
    exact ⟨d', rfl, hse.frame_select hs _,
      fun hd _ => hd.select hse hs (hsel ▸ hd.allowed ch hch) (.inl ⟨hout, rfl⟩)⟩
  split
  · obtain ⟨hse, hin, hsel⟩ := setInput_sameElse d hch
    generalize setInput d ch = d₁ at *
    obtain ⟨d', he, hs⟩ := selectPfiOutput_spec (hse.chips ▸ hn) hch pfiOutputSelectHighZ
    rw [bind_ok he]
    exact ⟨d', rfl, hse.frame_select hs _,
      fun hd _ => hd.select hse hs (hsel ▸ hd.allowed ch hch) (.inr ⟨hin, rfl⟩)⟩
  split
  · exact ⟨d, rfl, .refl ch _ d, fun hd _ => hd⟩
  split
  · next hr =>
    obtain ⟨ret, d', he, hf, hd'⟩ := setPfiRouting_spec hn hch data1 (data0 = insnConfigFilter)
    rw [bind_ok he]
    exact ⟨d', rfl, hf, fun hd hi => hd' hd fun h => hi ⟨hr, h⟩⟩
  split
  · have he : ni660xGetPfiRouting d ch = .ok (selected d ch) := if_neg (by omega)
    rw [bind_ok he]
    exact ⟨d, rfl, .refl ch _ d, fun hd _ => hd⟩
  split
  · next hfilter =>
    rw [bind_ok (configFilter_eq hch d data1)]
    exact ⟨_, rfl, ⟨rfl, fun c ch' _ => filter_output d.ioConfig ch data1 c ch',
      fun c ch' _ hne => filter_filter d.ioConfig data1 c hne, fun _ _ h => absurd hfilter h,
      fun _ _ _ => Iff.rfl, fun _ _ => rfl⟩, fun hd _ => hd.filter ch data1⟩
  · exact ⟨d, rfl, .refl ch _ d, fun hd _ => hd⟩

/-- A register write of zero, as `init_tio_chip` does it. -/
structure Clears (d d' : Dev) : Prop where
  chips : d'.nChips = d.nChips
  direction : d'.pfiDirectionBits = d.pfiDirectionBits
  zero : ∀ r, d.ioConfig r = 0 → d'.ioConfig r = 0

theorem Clears.refl (d : Dev) : Clears d d := ⟨rfl, rfl, fun _ h => h⟩

theorem Clears.trans {d'' : Dev} (h : Clears d d') (h' : Clears d' d'') : Clears d d'' :=
  ⟨h'.chips.trans h.chips, h'.direction.trans h.direction, fun r hr => h'.zero r (h.zero r hr)⟩

theorem clearIoConfig_spec (d : Dev) (chip : Nat) (hch : ch < numPfiChannels) :
    ∃ d', clearIoConfig chip d ch = .ok d' ∧ Clears d d' ∧ d'.ioConfig (chip, ch / 2) = 0 := by
  have hreg : ioConfigReg ch = .ok (ch / 2) := by
    unfold numPfiChannels at hch
    exact if_neg (by omega)
  refine ⟨_, bind_ok hreg _, ⟨rfl, rfl, fun r hr => ?_⟩, Function.update_self ..⟩
  by_cases h : r = (chip, ch / 2)
  · rw [h]
    exact Function.update_self ..
  · exact (Function.update_of_ne h ..).trans hr

def Cleared (chip : Nat) (d : Dev) : Prop := ∀ ch < numPfiChannels, d.ioConfig (chip, ch / 2) = 0

theorem Clears.cleared (h : Clears d d') (hc : Cleared chip d) : Cleared chip d' :=
  fun ch hch => h.zero _ (hc ch hch)

theorem initTioChip_spec (d : Dev) (chip : Nat) :
    ∃ d', initTioChip d chip = .ok d' ∧ Clears d d' ∧ Cleared chip d' := by
  have hstep (st : Dev) (hst : Clears d st) (ch : Nat) (hch : ch ∈ List.range numPfiChannels) :
      ∃ st', clearIoConfig chip st ch = .ok st' ∧ Clears d st' ∧ st'.ioConfig (chip, ch / 2) = 0 ∧
        ∀ j, st.ioConfig (chip, j / 2) = 0 → st'.ioConfig (chip, j / 2) = 0 := by
    obtain ⟨st', he, hc, hz⟩ := clearIoConfig_spec st chip (List.mem_range.mp hch)
    exact ⟨st', he, hst.trans hc, hz, fun j hj => hc.zero _ hj⟩
  obtain ⟨d', he, hc, hz, -⟩ := run_establishes (Clears d) hstep (Clears.refl d)
  exact ⟨d', he, hc, fun ch hch => hz ch (List.mem_range.mpr hch)⟩

theorem initTioChips_spec (d : Dev) :
    ∃ d', run initTioChip d (List.range d.nChips) = .ok d' ∧ Clears d d' ∧
      ∀ chip < d.nChips, Cleared chip d' := by
  have hstep (st : Dev) (hst : Clears d st) (chip : Nat) (_ : chip ∈ List.range d.nChips) :
      ∃ st', initTioChip st chip = .ok st' ∧ Clears d st' ∧ Cleared chip st' ∧
        ∀ j, Cleared j st → Cleared j st' := by
    obtain ⟨st', he, hc, hz⟩ := initTioChip_spec st chip
    exact ⟨st', he, hst.trans hc, hz, fun j => hc.cleared⟩
  obtain ⟨d', he, hc, hz, -⟩ := run_establishes (Clears d) hstep (Clears.refl d)
  exact ⟨d', he, hc, fun chip hchip => hz chip (List.mem_range.mpr hchip)⟩

/-- During the setup every channel is an input that no chip drives. -/
structure Idle (n : Nat) (d : Dev) : Prop where
  chips : d.nChips = n
  direction : d.pfiDirectionBits = 0
  idle : ∀ ch < numPfiChannels, ∀ c < n, outputField d.ioConfig c ch = 0

theorem Idle.input (h : Idle n d) (ch : Nat) : ¬ isOutput d ch := by
  rw [isOutput, h.direction]
  exact fun hne => hne BitVec.zero_and

theorem Idle.current_apart (h : Idle n d) : Apart d.nChips d.ioConfig :=
  fun ch hch c hc _ _ hf _ => absurd (h.idle ch hch c (h.chips ▸ hc)) hf

theorem attachSource_allowed (ch : Nat) :
    ¬ refused ch (attachSource ch) ∧ attachSource ch ≠ numPfiOutputSelects := by
  unfold attachSource refused minCounterPfiChan
  split
  · next h =>
    refine ⟨?_, by decide⟩
    simp [h, numPfiOutputSelects, pfiOutputSelectDo, pfiOutputSelectHighZ, pfiOutputSelectCounter]
  · next h =>
    refine ⟨?_, by decide⟩
    simp [h, numPfiOutputSelects, pfiOutputSelectDo, pfiOutputSelectHighZ, pfiOutputSelectCounter]

theorem initPfi_spec (hn : n = 1 ∨ n = 2) (h : Idle n d) (hch : ch < numPfiChannels) :
    ∃ d', initPfi d ch = .ok d' ∧ Idle n d' ∧ Allowed ch (selected d' ch) ∧
      ∀ j, Allowed j (selected d j) → Allowed j (selected d' j) := by
  obtain ⟨hr, h3⟩ := attachSource_allowed ch
  have hse := setSelect_sameElse d ch (attachSource ch)
  have hsel := setSelect_selected d ch (attachSource ch)
  have hset : ni660xSetPfiRouting d ch (attachSource ch) =
      .ok (0, setSelect d ch (attachSource ch)) := by
    have hin : ¬ isOutput (setSelect d ch (attachSource ch)) ch := h.input ch
    unfold ni660xSetPfiRouting
    rw [if_neg hr, if_neg (by omega), if_neg hin]
    rfl
  have hdir : (setSelect d ch (attachSource ch)).pfiDirectionBits = d.pfiDirectionBits := rfl
  generalize setSelect d ch (attachSource ch) = d₁ at hse hsel hset hdir
  obtain ⟨d', he, hs⟩ :=
    selectPfiOutput_spec (hse.chips.trans h.chips ▸ hn) hch pfiOutputSelectHighZ
  obtain ⟨hallowed, hw⟩ := allowed_of_not_refused hr h3
  have hallowed' : Allowed ch (selected d' ch) := by
    rwa [hs.selected, hsel, hw]
  refine ⟨d', ?_, ⟨hs.chips.trans (hse.chips.trans h.chips), ?_, fun ch' hch' c hc => ?_⟩, hallowed',
    fun j hj => ?_⟩
  · unfold initPfi
    rw [bind_ok hset]
    exact he
  · rw [hs.direction, hdir, h.direction]
  · by_cases hne : ch' = ch
    · subst hne
      exact hs.highZ (hse.chips.trans h.chips ▸ hc)
    · rw [hs.same.output c ch' hne, hse.io]
      exact h.idle ch' hch' c hc
  · by_cases hne : j = ch
    · subst hne
      exact hallowed'
    · rwa [hs.selected, hse.selected j hne]

/-- After the attach every channel is an input. -/
theorem attach_spec (hn : n = 1 ∨ n = 2) (io : IoConfig) :
    ∃ d, ni660xAttach n io = .ok d ∧ d.nChips = n ∧ Driven d ∧ ∀ ch, ¬ isOutput d ch := by
  obtain ⟨d₁, he₁, hc, hz⟩ := initTioChips_spec { nChips := n, ioConfig := io }
  have hidle : Idle n d₁ := by
    refine ⟨hc.chips, hc.direction, fun ch hch c hcn => ?_⟩
    rw [outputField, hz c hcn ch hch]
    exact BitVec.zero_and
  have hstep (st : Dev) (hst : Idle n st) (ch : Nat) (hch : ch ∈ List.range numPfiChannels) :=
    initPfi_spec hn hst (List.mem_range.mp hch)
  obtain ⟨d₂, he₂, hi, hallowed, -⟩ := run_establishes (Idle n) hstep hidle
  refine ⟨{ d₂ with past := [d₂.ioConfig] }, ?_, hi.chips, ⟨fun x hx => ?_,
    List.mem_singleton_self _, fun ch hch _ c hcn => hi.idle ch hch c (hi.chips ▸ hcn),
    fun ch _ ho => absurd ho (hi.input ch), fun ch hch => hallowed ch (List.mem_range.mpr hch)⟩,
    hi.input⟩
  · unfold ni660xAttach
    rw [bind_ok he₁, bind_ok he₂]
    rfl
  · rw [List.mem_singleton.mp hx]
    exact hi.current_apart

/-- From the attach on, as long as no instruction sets the source that is none, every pin is driven
by the chip of its source alone, and every instruction keeps to its channel. -/
theorem pins_driven (hn : n = 1 ∨ n = 2) (io : IoConfig) {is : List DioInsn}
    (hchan : ∀ i ∈ is, i.chan < numPfiChannels) (hi : ∀ i ∈ is, ¬ setsNone i) :
    (∃ d₀ d, ni660xAttach n io = .ok d₀ ∧ run insnStep d₀ is = .ok d ∧ Driven d) ∧
      ∀ d : Dev, d.nChips = n → ∀ i ∈ is, ∃ d', insnStep d i = .ok d' ∧
        Frame i.chan (i.data0 = insnConfigFilter) d d' := by
  obtain ⟨d₀, he, hchips, hd, -⟩ := attach_spec hn io
  have hfit : AllFit insnStep (fun _ i => i.chan < numPfiChannels ∧ ¬ setsNone i) d₀ is :=
    .of_forall (fun i hmem _ => ⟨hchan i hmem, hi i hmem⟩) d₀
  obtain ⟨d, hrun, -, hd'⟩ := run_total (fun d => d.nChips = n ∧ Driven d) (fun d i hinv hi => by
    obtain ⟨d', he', hf, hd'⟩ := insnStep_spec (hinv.1 ▸ hn) hi.1
    exact ⟨d', he', hf.chips.trans hinv.1, hd' hinv.2 hi.2⟩) ⟨hchips, hd⟩ hfit
  refine ⟨⟨d₀, d, he, hrun, hd'⟩, fun d hdn i hmem => ?_⟩
  obtain ⟨d', he', hf, -⟩ := insnStep_spec (hdn ▸ hn) (hchan i hmem)
  exact ⟨d', he', hf⟩

/-- Channel 10 becomes an output of its counter, then of the digital lines, with a filter in
between, and is an input again. -/
def switched : List DioInsn :=
  [⟨10, insnConfigDioOutput, 0⟩, ⟨10, insnConfigFilter, 5⟩, ⟨10, insnConfigSetRouting, 2⟩,
    ⟨11, insnConfigDioOutput, 0⟩, ⟨10, insnConfigDioInput, 0⟩]

theorem pins_driven_switched :
    (∃ d₀ d, ni660xAttach 2 (fun _ => 0xffff) = .ok d₀ ∧ run insnStep d₀ switched = .ok d ∧
      Driven d) ∧
      ∀ d : Dev, d.nChips = 2 → ∀ i ∈ switched, ∃ d', insnStep d i = .ok d' ∧
        Frame i.chan (i.data0 = insnConfigFilter) d d' :=
  pins_driven (.inr rfl) _ (by simp [switched, numPfiChannels])
    (by simp [switched, setsNone, insnConfigDioOutput, insnConfigFilter, insnConfigSetRouting,
      insnConfigDioInput, numPfiOutputSelects])

/-- The source after the last one is kept for an input. -/
theorem insnStep_setThree (hin : ¬ isOutput d 10) :
    insnStep d ⟨10, insnConfigSetRouting, 3⟩ = .ok (setSelect d 10 3) := by
  have hset : ni660xSetPfiRouting d 10 3 = .ok (0, setSelect d 10 3) := by
    have hin' : ¬ isOutput (setSelect d 10 3) 10 := hin
    unfold ni660xSetPfiRouting
    rw [if_neg (by decide), if_neg (by decide), if_neg hin']
    rfl
  change (ni660xSetPfiRouting d 10 3 >>= fun x => .ok (x.1, 3, x.2)) >>= _ = _
  rw [hset]
  rfl

theorem insnStep_output (hn : d.nChips = 1 ∨ d.nChips = 2) (hch : ch < numPfiChannels) :
    ∃ d', insnStep d ⟨ch, insnConfigDioOutput, 0⟩ = .ok d' ∧ isOutput d' ch ∧
      selected d' ch = selected d ch ∧
      outputField d'.ioConfig (activeChipset d.nChips ch (selected d ch)) ch =
        code ch (selected d ch) := by
  have hout := (setOutput_sameElse d hch).2.1
  have hn' : (setOutput d ch).nChips = 1 ∨ (setOutput d ch).nChips = 2 := hn
  obtain ⟨d', he, hs⟩ := selectPfiOutput_spec hn' hch (selected (setOutput d ch) ch)
  refine ⟨d', ?_, (hs.isOutput ch).mpr hout, hs.selected ch, hs.active⟩
  change (ni660xSelectPfiOutput (setOutput d ch) ch (selected (setOutput d ch) ch) >>=
    fun x => .ok (0, 0, x)) >>= _ = _
  rw [he]
  rfl

/-- Source 3 is not refused, and an output then has the code 3. -/
theorem code_three : ∃ d₀ d, ni660xAttach 2 (fun _ => 0) = .ok d₀ ∧
    run insnStep d₀ [⟨10, insnConfigSetRouting, 3⟩, ⟨10, insnConfigDioOutput, 0⟩] = .ok d ∧
      isOutput d 10 ∧ outputField d.ioConfig 0 10 = 0x300 ∧
      outputField d.ioConfig 0 10 ≠ code 10 pfiOutputSelectCounter ∧
      outputField d.ioConfig 0 10 ≠ code 10 pfiOutputSelectDo ∧ ¬ Driven d := by
  obtain ⟨d₀, he, hn, -, hin⟩ := attach_spec (.inr rfl) (fun _ => 0)
  have hsel : selected (setSelect d₀ 10 3) 10 = 3 := setSelect_selected d₀ 10 3
  have hn' : (setSelect d₀ 10 3).nChips = 2 := hn
  have hch : 10 < numPfiChannels := by decide
  obtain ⟨d, hd, hout, hs, hf⟩ := insnStep_output (.inr hn') hch
  rw [hsel, hn'] at hf
  rw [hsel] at hs
  have hf' : outputField d.ioConfig 0 10 = 0x300 := hf
  refine ⟨d₀, d, he, ?_, hout, hf', ?_, ?_, fun h => ?_⟩
  · rw [run_cons_ok (insnStep_setThree (hin 10)), run_cons_ok hd]
    rfl
  · rw [hf']
    decide
  · rw [hf']
    decide
  · have ha := h.allowed 10 (by decide)
    rw [hs] at ha
    rcases ha with ⟨h3, -⟩ | ⟨h3, -⟩
    · exact absurd h3 (by decide)
    · exact absurd h3 (by decide)

end Comedi.Ni660xPins
