import Comedi.Pcidas64

namespace Comedi.Pcidas64Samples

open Pcidas64 GuardedRuns
open RtTimer (trigCount)

/-- `stop_arg * chanlist_len`, computed exactly. -/
def wanted (cmd : Cmd) : Nat := cmd.stopArg.toNat * cmd.chanlistLen.toNat

def Accounted (cmd : Cmd) (st : Ai) : Prop := st.taken + st.aiCount.toNat = wanted cmd

def Crosses (r : FifoReading) : Prop := r.readSegment ≠ r.writeSegment

/-- The write index is behind the read index in the same segment. -/
def Behind (r : FifoReading) : Prop := ¬ Crosses r ∧ r.writeIndex < r.readIndex

instance (r : FifoReading) : Decidable (Crosses r) := by unfold Crosses; infer_instance
instance (r : FifoReading) : Decidable (Behind r) := by unfold Behind; infer_instance

/-- From `st` on, every reading with the write index behind the read index leaves the samples
and the count alone. -/
def Refuses (dev : Das64) (cmd : Cmd) (written : U32) : Ai → List FifoReading → Prop
  | _, [] => True
  | st, r :: rs =>
    let (st', more) := drainReading dev cmd written st r
    (Behind r → st'.taken = st.taken ∧ st'.aiCount = st.aiCount) ∧
      (more → Refuses dev cmd written st' rs)

def DrainsFifo16 (dev : Das64) (cmd : Cmd) (st : Ai) (i : AiInterrupt) : Prop :=
  drainsFifo dev cmd i ∧ st.aiCmdRunning ∧ dev.layout ≠ .layout4020

/-- One interrupt keeps the account, raises the completion exactly when it takes the last
sample, and takes nothing where the pointers are out of order. -/
structure Exact (dev : Das64) (cmd : Cmd) (st : Ai) (i : AiInterrupt) (st' : Ai) : Prop where
  accounted : Accounted cmd st'
  completes : st'.completions =
    st.completions + if st.taken < wanted cmd ∧ st'.taken = wanted cmd then 1 else 0
  refuses : DrainsFifo16 dev cmd (handleDma dev cmd st i) i →
    Refuses dev cmd i.written (handleDma dev cmd st i) i.readings

/-- With `c` samples wanted, the reading is one that the loop can use. -/
def Usable (dev : Das64) (c : Nat) (r : FifoReading) : Prop :=
  if Crosses r then r.readIndex ≤ dev.aiFifoSegmentLength ∨ c < 2 ^ 31
  else r.readIndex ≤ r.writeIndex

instance (dev : Das64) (c : Nat) (r : FifoReading) : Decidable (Usable dev c r) := by
  unfold Usable
  infer_instance

def ReadingsFit (dev : Das64) : Nat → List FifoReading → Prop
  | _, [] => True
  | c, r :: rs =>
    c = 0 ∨
      Usable dev c r ∧ (Crosses r → ReadingsFit dev (c - (numSamples dev r).toNat) rs)

/-- The number of buffers that the transfer has left behind. -/
def fullBuffers (dev : Das64) (addr : U32) : Nat → Nat → Nat
  | 0, _ => 0
  | n + 1, index =>
    if isFull dev addr index then
      fullBuffers dev addr n ((index + 1) % aiDmaRingCount dev.layout) + 1
    else 0

/-- What is still wanted when the fifo is drained. -/
def leftByDma (dev : Das64) (st : Ai) (i : AiInterrupt) : Nat :=
  if i.plxStatus &&& icsDma1A ≠ 0 ∧ i.dma1Status &&& plxDmaEnBit ≠ 0 then
    st.aiCount.toNat -
      fullBuffers dev i.nextTransferAddr (aiDmaRingCount dev.layout) st.aiDmaIndex *
        (dmaTransferSize dev).toNat
  else st.aiCount.toNat

/-- The command is not complete yet, and the fifo readings taken are usable. -/
def Fits (dev : Das64) (cmd : Cmd) (st : Ai) (i : AiInterrupt) : Prop :=
  st.aiCount ≠ 0 ∧
    (DrainsFifo16 dev cmd st i → ReadingsFit dev (leftByDma dev st i) i.readings)

variable {dev : Das64} {cmd : Cmd} {written : U32} {st st' st₁ st₂ : Ai} {i : AiInterrupt}
  {r : FifoReading} {m n : Nat}

/-- Up to `n` samples are taken, as far as that many are wanted. -/
structure Draws (n : Nat) (st st' : Ai) : Prop where
  taken : st'.taken = st.taken + min st.aiCount.toNat n
  left : st'.aiCount.toNat = st.aiCount.toNat - n
  completions : st'.completions = st.completions
  aiCmdRunning : st'.aiCmdRunning = st.aiCmdRunning

theorem Draws.refl (st : Ai) : Draws 0 st st := ⟨by simp, by simp, rfl, rfl⟩

theorem Draws.trans (h₁ : Draws m st st₁) (h₂ : Draws n st₁ st₂) : Draws (m + n) st st₂ := by
  have hl := h₁.left
  constructor
  · rw [h₂.taken, h₁.taken, hl]
    omega
  · rw [h₂.left, hl]
    omega
  · rw [h₂.completions, h₁.completions]
  · rw [h₂.aiCmdRunning, h₁.aiCmdRunning]

theorem Draws.accounted (h : Draws n st st') (hst : Accounted cmd st) : Accounted cmd st' := by
  unfold Accounted at *
  rw [h.taken, h.left]
  omega

theorem spent (c n : U32) : (if n > c then c else n).toNat = min c.toNat n.toNat := by
  split
  · next h =>
    have : c.toNat < n.toNat := h
    omega
  · next h =>
    have : ¬ c.toNat < n.toNat := h
    omega

theorem left (c n : U32) : (c - if n > c then c else n).toNat = c.toNat - n.toNat := by
  have hs := spent c n
  rw [BitVec.toNat_sub_of_le (by rw [BitVec.le_def, hs]; omega), hs]
  omega

theorem neg_iff (x : U32) : x.slt 0 = true ↔ 2 ^ 31 ≤ x.toNat := by
  rw [BitVec.slt_iff_toInt_lt, BitVec.toInt_eq_toNat_cond]
  have := x.isLt
  split <;> simp <;> omega

theorem increments_le {x : U32} (h : x.toNat ≤ 0x8000) :
    ((x + incrementSize / 2) / incrementSize * incrementSize).toNat ≤ 0x8000 := by
  have hx : (x + incrementSize / 2).toNat = x.toNat + 0x80 := by
    rw [BitVec.toNat_add, Nat.mod_eq_of_lt] <;> simp [incrementSize] <;> omega
  have hd : ((x + incrementSize / 2) / incrementSize).toNat = (x.toNat + 0x80) / 0x100 := by
    rw [BitVec.toNat_udiv, hx]
    rfl
  have hi : incrementSize.toNat = 0x100 := rfl
  rw [BitVec.toNat_mul, hd, hi]
  omega

theorem setAiFifoSegmentLength_le (l : Layout) (n : U32) :
    (setAiFifoSegmentLength (aiFifo l) n).toNat ≤ 0x8000 := by
  have hmax : (aiFifo l).maxSegmentLength.toNat ≤ 0x8000 := by cases l <;> decide
  refine increments_le ?_
  split_ifs with h₁ h₂ h₃
  · exact hmax
  · decide
  · exact hmax
  · have : ¬ (aiFifo l).maxSegmentLength.toNat < n.toNat := h₃
    omega

theorem segmentLength_le (dev : Das64) : dev.aiFifoSegmentLength.toNat ≤ 0x8000 := by
  obtain ⟨n, hn⟩ := dev.segment
  rw [hn]
  exact setAiFifoSegmentLength_le dev.layout n

theorem index_lt (x : BitVec 16) : ((x &&& 0x7fff).setWidth 32 : U32).toNat < 0x8000 := by
  have h : (x &&& 0x7fff).toNat ≤ 0x7fff := by
    rw [BitVec.toNat_and]
    exact Nat.and_le_right
  rw [BitVec.toNat_setWidth, Nat.mod_eq_of_lt (by omega)]
  omega

theorem numSamples_same (h : ¬ Crosses r) (hle : r.readIndex ≤ r.writeIndex) :
    (numSamples dev r).toNat = r.writeIndex.toNat - r.readIndex.toNat ∧
      (numSamples dev r).toNat < 0x8000 := by
  unfold numSamples
  rw [if_neg (c := r.readSegment ≠ r.writeSegment) h, BitVec.toNat_sub_of_le hle]
  have := index_lt r.writePntr
  refine ⟨rfl, ?_⟩
  unfold FifoReading.writeIndex
  omega

theorem numSamples_behind (dev : Das64) (h : ¬ Crosses r) (hlt : r.writeIndex < r.readIndex) :
    2 ^ 31 < (numSamples dev r).toNat := by
  unfold numSamples
  rw [if_neg (c := r.readSegment ≠ r.writeSegment) h, BitVec.toNat_sub]
  have hr := index_lt r.readPntr
  have hw : r.writeIndex.toNat < r.readIndex.toNat := hlt
  unfold FifoReading.readIndex at *
  omega

theorem numSamples_crosses (h : Crosses r) (hle : r.readIndex ≤ dev.aiFifoSegmentLength) :
    (numSamples dev r).toNat ≤ 0x8000 := by
  unfold numSamples
  rw [if_pos (c := r.readSegment ≠ r.writeSegment) h, BitVec.toNat_sub_of_le hle]
  have := segmentLength_le dev
  omega

theorem numSamples_beyond (h : Crosses r) (hlt : dev.aiFifoSegmentLength < r.readIndex) :
    2 ^ 31 < (numSamples dev r).toNat := by
  unfold numSamples
  rw [if_pos (c := r.readSegment ≠ r.writeSegment) h, BitVec.toNat_sub]
  have hr := index_lt r.readPntr
  have hw : dev.aiFifoSegmentLength.toNat < r.readIndex.toNat := hlt
  unfold FifoReading.readIndex at *
  omega

theorem drainReading_done (hcmd : cmd.stopSrc = trigCount) (h : st.aiCount = 0) :
    drainReading dev cmd written st r = (st, false) := by
  unfold drainReading
  rw [if_pos ⟨hcmd, h⟩]

/-- The number of samples is clipped as an unsigned number; what is left of it is taken unless
it is negative as a signed one. -/
theorem drainReading_draws (written : U32) (hcmd : cmd.stopSrc = trigCount) (h : st.aiCount ≠ 0)
    (hlt : min st.aiCount.toNat (numSamples dev r).toNat < 2 ^ 31) :
    ∃ st', drainReading dev cmd written st r = (st', decide (Crosses r)) ∧
      Draws (numSamples dev r).toNat st st' := by
  unfold drainReading
  rw [if_neg (fun hc => h hc.2)]
  simp only [hcmd, true_and, if_true]
  have hs := spent st.aiCount (numSamples dev r)
  have hneg : ¬ (if numSamples dev r > st.aiCount then st.aiCount
      else numSamples dev r).slt 0 = true := by
    rw [neg_iff, hs]
    omega
  rw [if_neg hneg]
  refine ⟨_, rfl, ?_, left _ _, rfl, rfl⟩
  show st.taken + _ = _
  rw [hs]

/-- A clipped number that is negative is still subtracted from the count. -/
theorem drainReading_leaks (written : U32) (hcmd : cmd.stopSrc = trigCount) (h : st.aiCount ≠ 0)
    (hge : 2 ^ 31 ≤ min st.aiCount.toNat (numSamples dev r).toNat) :
    ∃ st', drainReading dev cmd written st r = (st', false) ∧ st'.taken = st.taken ∧
      st'.aiCount.toNat = st.aiCount.toNat - (numSamples dev r).toNat := by
  unfold drainReading
  rw [if_neg (fun hc => h hc.2)]
  simp only [hcmd, true_and, if_true]
  have hs := spent st.aiCount (numSamples dev r)
  have hneg : (if numSamples dev r > st.aiCount then st.aiCount
      else numSamples dev r).slt 0 = true := by
    rw [neg_iff, hs]
    exact hge
  rw [if_pos hneg]
  exact ⟨_, rfl, rfl, left _ _⟩

theorem Usable.drawn_lt {c : Nat} (h : Usable dev c r) :
    min c (numSamples dev r).toNat < 2 ^ 31 := by
  unfold Usable at h
  split at h
  · next hc =>
    obtain hle | hlt := h
    · have := numSamples_crosses hc hle
      omega
    · omega
  · next hc =>
    have hlt : (numSamples dev r).toNat < 0x8000 := (numSamples_same hc h).2
    omega

theorem Usable.not_behind {c : Nat} (h : Usable dev c r) : ¬ Behind r := by
  rintro ⟨hc, hlt⟩
  unfold Usable at h
  rw [if_neg hc] at h
  exact absurd hlt (BitVec.not_lt.mpr h)

theorem refuses_zero (hcmd : cmd.stopSrc = trigCount) (h : st.aiCount = 0)
    (rs : List FifoReading) : Refuses dev cmd written st rs := by
  cases rs with
  | nil => trivial
  | cons r rs =>
    unfold Refuses
    rw [drainReading_done hcmd h]
    exact ⟨fun _ => ⟨rfl, rfl⟩, fun h => nomatch h⟩

theorem drain16_zero (hcmd : cmd.stopSrc = trigCount) (h : st.aiCount = 0)
    {rs : List FifoReading} (hok : pioDrainAiFifo16 dev cmd written st rs = .ok st') :
    st' = st := by
  cases rs with
  | nil => cases hok
  | cons r rs =>
    rw [pioDrainAiFifo16, drainReading_done hcmd h] at hok
    cases hok
    rfl

theorem refuses_of_fit (hcmd : cmd.stopSrc = trigCount) {rs : List FifoReading}
    (h : ReadingsFit dev st.aiCount.toNat rs) : Refuses dev cmd written st rs := by
  induction rs generalizing st with
  | nil => trivial
  | cons r rs ih =>
    by_cases hz : st.aiCount = 0
    · exact refuses_zero hcmd hz _
    · obtain hc | ⟨hu, hrest⟩ := h
      · exact absurd (BitVec.eq_of_toNat_eq hc) hz
      · obtain ⟨st₁, he, hd⟩ := drainReading_draws written hcmd hz hu.drawn_lt
        unfold Refuses
        rw [he]
        refine ⟨fun hb => absurd hb hu.not_behind, fun hm => ih ?_⟩
        rw [hd.left]
        exact hrest (of_decide_eq_true hm)

theorem drain16_draws (hcmd : cmd.stopSrc = trigCount) {rs : List FifoReading}
    (h : ReadingsFit dev st.aiCount.toNat rs)
    (hok : pioDrainAiFifo16 dev cmd written st rs = .ok st') : ∃ n, Draws n st st' := by
  induction rs generalizing st with
  | nil => cases hok
  | cons r rs ih =>
    by_cases hz : st.aiCount = 0
    · rw [drain16_zero hcmd hz hok]
      exact ⟨0, .refl st⟩
    · obtain hc | ⟨hu, hrest⟩ := h
      · exact absurd (BitVec.eq_of_toNat_eq hc) hz
      · obtain ⟨st₁, he, hd⟩ := drainReading_draws written hcmd hz hu.drawn_lt
        rw [pioDrainAiFifo16, he] at hok
        by_cases hx : Crosses r
        · simp only [hx, decide_true] at hok
          obtain ⟨n, hn⟩ := ih (by rw [hd.left]; exact hrest hx) hok
          exact ⟨_, hd.trans hn⟩
        · simp only [hx, decide_false] at hok
          cases hok
          exact ⟨_, hd⟩

theorem drainWords_le {w : BitVec 16} {max : Nat} {codes : List (BitVec 16)} {k : Nat}
    (hk : k ≤ max) (hok : drainWords w max k codes = .ok n) : n ≤ max := by
  induction codes generalizing k with
  | nil => cases hok
  | cons c codes ih =>
    unfold drainWords at hok
    split at hok
    · next hc =>
      refine ih ?_ hok
      split <;> omega
    · cases hok
      exact hk

theorem drain32_draws (hcmd : cmd.stopSrc = trigCount)
    (hok : pioDrainAiFifo32 cmd st i = .ok st') : ∃ n, Draws n st st' := by
  unfold pioDrainAiFifo32 at hok
  simp only [hcmd, true_and] at hok
  obtain ⟨n, hn, hret⟩ := bind_eq_ok hok
  cases hret
  have hle := drainWords_le (Nat.zero_le _) hn
  have hmax := spent st.aiCount 100000
  have hlt := st.aiCount.isLt
  refine ⟨n, ?_, ?_, rfl, rfl⟩
  · show st.taken + n = _
    omega
  · show (st.aiCount - BitVec.ofNat 32 n).toNat = _
    have hof : (BitVec.ofNat 32 n).toNat = n := by
      rw [BitVec.toNat_ofNat, Nat.mod_eq_of_lt (by omega)]
    rw [BitVec.toNat_sub_of_le (by rw [BitVec.le_def, hof]; omega), hof]

theorem drainBuffer_draws (hcmd : cmd.stopSrc = trigCount) :
    Draws (dmaTransferSize dev).toNat st (drainBuffer dev cmd written st) := by
  unfold drainBuffer
  simp only [hcmd, true_and, if_true]
  refine ⟨?_, left _ _, rfl, rfl⟩
  show st.taken + _ = _
  rw [spent]

theorem drainBuffer_index :
    (drainBuffer dev cmd written st).aiDmaIndex =
      (st.aiDmaIndex + 1) % aiDmaRingCount dev.layout := by
  unfold drainBuffer
  split <;> rfl

theorem drainDmaBuffers_draws (hcmd : cmd.stopSrc = trigCount) (k : Nat) :
    Draws (fullBuffers dev i.nextTransferAddr k st.aiDmaIndex * (dmaTransferSize dev).toNat) st
      (drainDmaBuffers dev cmd i k st) := by
  induction k generalizing st with
  | zero =>
    rw [fullBuffers, Nat.zero_mul]
    exact .refl st
  | succ k ih =>
    unfold drainDmaBuffers fullBuffers
    split
    · rw [Nat.succ_mul, Nat.add_comm]
      have h := @ih (drainBuffer dev cmd i.written st)
      rw [drainBuffer_index] at h
      exact (drainBuffer_draws hcmd).trans h
    · rw [Nat.zero_mul]
      exact .refl st

theorem handleDma_draws (hcmd : cmd.stopSrc = trigCount) (dev : Das64) (st : Ai)
    (i : AiInterrupt) :
    (∃ n, Draws n st (handleDma dev cmd st i)) ∧
      (handleDma dev cmd st i).aiCount.toNat = leftByDma dev st i := by
  unfold handleDma leftByDma
  extract_lets s₁
  have hs : Draws 0 st s₁ := by
    unfold s₁
    split
    · exact ⟨by simp [Ai.raise], by simp [Ai.raise], rfl, rfl⟩
    · exact .refl st
  have hi : s₁.aiDmaIndex = st.aiDmaIndex := by
    unfold s₁
    split <;> rfl
  split
  · have hd : Draws _ s₁ (drainDmaBuffers dev cmd i (aiDmaRingCount dev.layout) s₁) :=
      drainDmaBuffers_draws hcmd _
    have h := hs.trans hd
    rw [hi] at h
    exact ⟨⟨_, h⟩, by rw [h.left, Nat.zero_add]⟩
  · exact ⟨⟨_, hs⟩, by rw [hs.left, Nat.sub_zero]⟩

theorem comediEvent_keeps (st : Ai) :
    (comediEvent st).taken = st.taken ∧ (comediEvent st).aiCount = st.aiCount ∧
      (comediEvent st).completions = st.completions := by
  unfold comediEvent
  split <;> exact ⟨rfl, rfl, rfl⟩

theorem cfcHandleEvents_keeps (st : Ai) :
    (cfcHandleEvents st).taken = st.taken ∧ (cfcHandleEvents st).aiCount = st.aiCount ∧
      (cfcHandleEvents st).completions = st.completions := by
  unfold cfcHandleEvents
  split
  · exact ⟨rfl, rfl, rfl⟩
  · split
    · exact comediEvent_keeps (aiCancel st)
    · exact comediEvent_keeps st

/-- An interrupt that returns, in terms of the state in which the fifo has been drained. -/
theorem handleAiInterrupt_cases (hcmd : cmd.stopSrc = trigCount)
    (hok : handleAiInterrupt dev cmd st i = .ok st') :
    ∃ s, drainFifo dev cmd (handleDma dev cmd st i) i = .ok s ∧
      st'.taken = s.taken ∧ st'.aiCount = s.aiCount ∧
      st'.completions = s.completions + if s.aiCount = 0 then 1 else 0 := by
  unfold handleAiInterrupt at hok
  obtain ⟨s, hs, hret⟩ := bind_eq_ok hok
  refine ⟨s, hs, ?_⟩
  cases hret
  obtain ⟨ht, hc, hm⟩ := cfcHandleEvents_keeps (if haveAll cmd s i then s.complete else s)
  have hall : haveAll cmd s i = true ↔ s.aiCount = 0 := by
    have hext : trigCount ≠ NiTioCmd.trigExt := by decide
    simp [haveAll, hcmd, hext, BitVec.le_zero_iff]
  rw [ht, hc, hm]
  by_cases hz : s.aiCount = 0
  · rw [if_pos (hall.mpr hz), if_pos hz]
    exact ⟨rfl, rfl, rfl⟩
  · rw [if_neg (fun h => hz (hall.mp h)), if_neg hz]
    exact ⟨rfl, rfl, rfl⟩

theorem readingsFit_of_exact (hcmd : cmd.stopSrc = trigCount) {rs : List FifoReading}
    (hst : Accounted cmd st) (hok : pioDrainAiFifo16 dev cmd written st rs = .ok st')
    (hst' : Accounted cmd st') (h : Refuses dev cmd written st rs) :
    ReadingsFit dev st.aiCount.toNat rs := by
  induction rs generalizing st with
  | nil => trivial
  | cons r rs ih =>
    by_cases hz : st.aiCount = 0
    · exact .inl (by rw [hz]; rfl)
    · have hpos : 0 < st.aiCount.toNat := by
        have : st.aiCount.toNat ≠ 0 := fun hc => hz (BitVec.eq_of_toNat_eq hc)
        omega
      unfold Refuses at h
      by_cases hlt : min st.aiCount.toNat (numSamples dev r).toNat < 2 ^ 31
      · obtain ⟨st₁, he, hd⟩ := drainReading_draws written hcmd hz hlt
        rw [he] at h
        refine .inr ⟨?_, fun hx => ?_⟩
        · unfold Usable
          split
          · next hx =>
            by_cases hle : r.readIndex ≤ dev.aiFifoSegmentLength
            · exact .inl hle
            · have := numSamples_beyond hx (BitVec.not_le.mp hle)
              exact .inr (by omega)
          · next hx =>
            by_contra hle
            have hb := numSamples_behind dev hx (BitVec.not_le.mp hle)
            have ht := (h.1 ⟨hx, BitVec.not_le.mp hle⟩).1
            rw [hd.taken] at ht
            omega
        · rw [pioDrainAiFifo16, he] at hok
          simp only [hx, decide_true] at hok h
          rw [← hd.left]
          exact ih (hd.accounted hst) hok (h.2 trivial)
      · obtain ⟨st₁, he, ht, hl⟩ := drainReading_leaks written hcmd hz (not_lt.mp hlt)
        rw [pioDrainAiFifo16, he] at hok
        cases hok
        unfold Accounted at hst hst'
        omega

theorem zero_of_wanted (hst : Accounted cmd st) :
    st.aiCount = 0 ↔ st.taken = wanted cmd := by
  unfold Accounted at hst
  constructor
  · intro h
    rw [h] at hst
    exact hst
  · intro h
    refine BitVec.eq_of_toNat_eq ?_
    show st.aiCount.toNat = 0
    omega

theorem Draws.zero (h : Draws n st st') (hz : st.aiCount = 0) : st'.aiCount = 0 := by
  refine BitVec.eq_of_toNat_eq ?_
  rw [h.left, hz]
  simp

/-- The state in which the fifo has been drained, if its readings fit. -/
theorem drained_draws (hcmd : cmd.stopSrc = trigCount) {s₀ s : Ai}
    (hfit : DrainsFifo16 dev cmd s₀ i → ReadingsFit dev s₀.aiCount.toNat i.readings)
    (h : drainFifo dev cmd s₀ i = .ok s) : ∃ n, Draws n s₀ s := by
  unfold drainFifo at h
  split at h
  · next hd =>
    unfold pioDrainAiFifo at h
    split at h
    · exact drain32_draws hcmd h
    · next hl => exact drain16_draws hcmd (hfit ⟨hd.1, hd.2, hl⟩) h
  · cases h
    exact ⟨0, .refl s₀⟩

theorem drainsFifo16_handleDma (hcmd : cmd.stopSrc = trigCount) (dev : Das64) (st : Ai)
    (i : AiInterrupt) :
    DrainsFifo16 dev cmd (handleDma dev cmd st i) i ↔ DrainsFifo16 dev cmd st i := by
  obtain ⟨⟨n, hn⟩, -⟩ := handleDma_draws hcmd dev st i
  unfold DrainsFifo16
  rw [hn.aiCmdRunning]

/-- The interrupt is exact if and only if it fits. -/
theorem exact_iff (hcmd : cmd.stopSrc = trigCount) (hst : Accounted cmd st)
    (hok : handleAiInterrupt dev cmd st i = .ok st') :
    Exact dev cmd st i st' ↔ Fits dev cmd st i := by
  obtain ⟨s, hs, ht, hc, hm⟩ := handleAiInterrupt_cases hcmd hok
  obtain ⟨⟨k, hk⟩, hleft⟩ := handleDma_draws hcmd dev st i
  have hacc := hk.accounted hst
  have hiff := drainsFifo16_handleDma hcmd dev st i
  constructor
  · intro h
    have hfit : DrainsFifo16 dev cmd (handleDma dev cmd st i) i →
        ReadingsFit dev (handleDma dev cmd st i).aiCount.toNat i.readings := by
      intro hd
      have h16 := hs
      rw [drainFifo, if_pos ⟨hd.1, hd.2.1⟩, pioDrainAiFifo, if_neg hd.2.2] at h16
      have hs' : Accounted cmd s := by
        have := h.accounted
        unfold Accounted at *
        rwa [ht, hc] at this
      exact readingsFit_of_exact hcmd hacc h16 hs' (h.refuses hd)
    refine ⟨fun hz => ?_, fun hd => ?_⟩
    · obtain ⟨n, hn⟩ := drained_draws hcmd hfit hs
      have hsz : s.aiCount = 0 := hn.zero (hk.zero hz)
      have hcomp := h.completes
      rw [hm, if_pos hsz, hn.completions, hk.completions, if_neg] at hcomp
      · omega
      · rintro ⟨hlt, -⟩
        have := (zero_of_wanted hst).mp hz
        omega
    · rw [← hleft]
      exact hfit (hiff.mpr hd)
  · rintro ⟨hnz, hfit⟩
    rw [← hleft, ← hiff] at hfit
    obtain ⟨n, hn⟩ := drained_draws hcmd hfit hs
    have hsacc := hn.accounted hacc
    have hacc' : Accounted cmd st' := by
      unfold Accounted at *
      rw [ht, hc]
      exact hsacc
    refine ⟨hacc', ?_, fun hd => refuses_of_fit hcmd (hfit hd)⟩
    have hlt : st.taken < wanted cmd := by
      have hne : st.taken ≠ wanted cmd := fun he => hnz ((zero_of_wanted hst).mpr he)
      unfold Accounted at hst
      omega
    rw [hm, hn.completions, hk.completions]
    congr 1
    rw [← hc]
    simp only [hlt, true_and, zero_of_wanted hacc']

theorem crosses_of_more (h : (drainReading dev cmd written st r).2 = true) : Crosses r := by
  unfold drainReading at h
  extract_lets _ _ _ at h
  split at h
  · cases h
  · split at h
    · cases h
    · exact of_decide_eq_true h

/-- The 16 bit fifo is drained as soon as both pointers are in one segment. -/
theorem drain16_returns {rs : List FifoReading} (h : ∃ r ∈ rs, ¬ Crosses r) :
    Returns (pioDrainAiFifo16 dev cmd written st rs) := by
  induction rs generalizing st with
  | nil =>
    obtain ⟨r, hr, -⟩ := h
    cases hr
  | cons r rs ih =>
    unfold pioDrainAiFifo16
    split
    · next hd =>
      have hr : Crosses r := crosses_of_more (congrArg Prod.snd hd)
      obtain ⟨r', hr', hx⟩ := h
      refine ih ⟨r', (List.mem_cons.mp hr').resolve_left ?_, hx⟩
      rintro rfl
      exact hx hr
    · exact returns_ok _

/-- A round of the loop over the 32 bit fifo takes a sample at least. -/
theorem drainWords_returns {w : BitVec 16} {max k : Nat} {codes : List (BitVec 16)}
    (hk : k ≤ max) (h : max < k + codes.length) : Returns (drainWords w max k codes) := by
  induction codes generalizing k with
  | nil =>
    rw [List.length_nil] at h
    omega
  | cons c codes ih =>
    rw [List.length_cons] at h
    unfold drainWords
    split
    · next hc =>
      apply ih
      · split <;> omega
      · split <;> omega
    · exact returns_ok _

theorem accounted_aiCmd (h : Accepted cmd) (dev : Das64) (old : Ai) :
    Accounted cmd (aiCmd dev cmd old) ↔ wanted cmd < 2 ^ 32 := by
  have hc : (aiCmd dev cmd old).aiCount = cmd.stopArg * cmd.chanlistLen := by
    unfold aiCmd setupSampleCounters
    rw [if_pos h.1]
  have ht : (aiCmd dev cmd old).taken = 0 := rfl
  unfold Accounted
  rw [hc, ht, BitVec.toNat_mul, Nat.zero_add]
  unfold wanted
  constructor
  · intro h
    rw [← h]
    exact Nat.mod_lt _ (by decide)
  · exact Nat.mod_eq_of_lt

/-- Every state that the run reaches has the samples accounted for, and every interrupt of it
that returns is exact. -/
def ExactRun (dev : Das64) (cmd : Cmd) (st : Ai) (is : List AiInterrupt) : Prop :=
  Accounted cmd st ∧
    AllFit (handleAiInterrupt dev cmd)
      (fun st i => ∀ st', handleAiInterrupt dev cmd st i = .ok st' → Exact dev cmd st i st') st is

theorem exactRun_iff (hcmd : cmd.stopSrc = trigCount) (is : List AiInterrupt)
    (hst : Accounted cmd st) :
    (AllFit (handleAiInterrupt dev cmd) (Fits dev cmd) st is → ExactRun dev cmd st is) ∧
      (Returns (run (handleAiInterrupt dev cmd) st is) → ExactRun dev cmd st is →
        AllFit (handleAiInterrupt dev cmd) (Fits dev cmd) st is) := by
  induction is generalizing st with
  | nil => exact ⟨fun _ => ⟨hst, trivial⟩, fun _ _ => trivial⟩
  | cons i is ih =>
    constructor
    · intro h
      refine ⟨hst, fun st' hok => (exact_iff hcmd hst hok).mpr h.1, fun st' hok => ?_⟩
      have hacc := ((exact_iff hcmd hst hok).mpr h.1).accounted
      exact ((ih hacc).1 (h.2 st' hok)).2
    · rintro ⟨last, hlast⟩ h
      cases hok : handleAiInterrupt dev cmd st i with
      | error e =>
        rw [run, hok] at hlast
        cases hlast
      | ok st' =>
        rw [run_cons_ok hok] at hlast
        have he := h.2.1 st' hok
        refine .cons ((exact_iff hcmd hst hok).mp he) hok ?_
        exact (ih he.accounted).2 ⟨last, hlast⟩ ⟨he.accounted, h.2.2 st' hok⟩

/-- A command that ends after a number of scans takes exactly the samples it asks for, and is
complete in exactly the interrupt that takes the last one, if and only if the product of scans
and channels does not overflow, no interrupt comes after the last sample, and no reading of the
fifo pointers is out of order while samples are wanted. -/
theorem samples_accounted (dev : Das64) (cmd : Cmd) (old : Ai) (is : List AiInterrupt)
    (h : Accepted cmd) :
    (wanted cmd < 2 ^ 32 ∧
        AllFit (handleAiInterrupt dev cmd) (Fits dev cmd) (aiCmd dev cmd old) is →
      ExactRun dev cmd (aiCmd dev cmd old) is) ∧
    (Returns (run (handleAiInterrupt dev cmd) (aiCmd dev cmd old) is) →
      ExactRun dev cmd (aiCmd dev cmd old) is →
      wanted cmd < 2 ^ 32 ∧
        AllFit (handleAiInterrupt dev cmd) (Fits dev cmd) (aiCmd dev cmd old) is) := by
  constructor
  · rintro ⟨hN, hfit⟩
    exact (exactRun_iff h.1 is ((accounted_aiCmd h dev old).mpr hN)).1 hfit
  · intro hret hex
    exact ⟨(accounted_aiCmd h dev old).mp hex.1, (exactRun_iff h.1 is hex.1).2 hret hex⟩

/-- A board with the fifo segments that attach sets. -/
def das6402 : Das64 where
  layout := .layout64xx
  aiFifoSegmentLength := setAiFifoSegmentLength aiFifo64xx 0x800
  aiBufferBusAddr k := 0x100000 + .ofNat 64 (k * 0x1000)
  segment := ⟨0x800, rfl⟩

def idle : Ai := ⟨0, 0, false, 0, false, 0, 0⟩

def tenSamples : Cmd := { stopSrc := trigCount, stopArg := 5, chanlistLen := 2 }

/-- The analog input is done, and the fifo pointers show one reading. -/
def doneInterrupt (readPntr writePntr : BitVec 16) : AiInterrupt :=
  ⟨adcDoneBit, 0, 0, 0x100000, [⟨readPntr, writePntr, 0⟩], 0, [], comediCbBlock⟩

theorem samples_accounted_ten :
    ExactRun das6402 tenSamples (aiCmd das6402 tenSamples idle)
      [doneInterrupt 3 7, doneInterrupt 7 20] := by
  refine (samples_accounted das6402 tenSamples idle _ (by decide)).1 ⟨by decide, ?_⟩
  have hfirst : handleAiInterrupt das6402 tenSamples (aiCmd das6402 tenSamples idle)
      (doneInterrupt 3 7) = .ok ⟨6, 0, true, 0, true, 4, 0⟩ := rfl
  refine .cons ⟨by decide, fun _ => .inr ⟨by decide, fun h => absurd h (by decide)⟩⟩ hfirst ?_
  exact ⟨⟨by decide, fun _ => .inr ⟨by decide, fun h => absurd h (by decide)⟩⟩,
    fun _ _ => trivial⟩

/-- With the write index behind the read index, everything that is still wanted is read from the
fifo. A product of `2 ^ 32` asks for nothing. After the last sample every interrupt is another
completion. -/
theorem behind_takes_all :
    let i := doneInterrupt 7 3
    let start := aiCmd das6402 tenSamples idle
    let huge : Cmd := { tenSamples with stopArg := 0x80000000 }
    Accepted tenSamples ∧ Behind ⟨7, 3, 0⟩ ∧
      (∃ st', handleAiInterrupt das6402 tenSamples start i = .ok st' ∧ st'.taken = 10 ∧
        ∃ st₂, handleAiInterrupt das6402 tenSamples st' i = .ok st₂ ∧ st₂.completions = 2) ∧
      ¬ ExactRun das6402 tenSamples start [i] ∧
      Accepted huge ∧ ¬ Accounted huge (aiCmd das6402 huge idle) := by
  intro i start huge
  have hfirst : handleAiInterrupt das6402 tenSamples start i =
      .ok ⟨0, 0, false, 0, false, 10, 1⟩ := by decide
  have hsecond : handleAiInterrupt das6402 tenSamples ⟨0, 0, false, 0, false, 10, 1⟩ i =
      .ok ⟨0, 0, false, comediCbEoa, false, 10, 2⟩ := by decide
  have hbehind : Behind ⟨7, 3, 0⟩ := by decide
  refine ⟨by decide, hbehind, ⟨_, hfirst, rfl, _, hsecond, rfl⟩, ?_, by decide, ?_⟩
  · intro h
    have hd : DrainsFifo16 das6402 tenSamples (handleDma das6402 tenSamples start i) i :=
      ⟨by decide, by decide, by decide⟩
    have hr := ((h.2.1 _ hfirst).refuses hd).1 hbehind
    exact absurd hr.1 (by decide)
  · unfold Accounted
    decide

end Comedi.Pcidas64Samples
