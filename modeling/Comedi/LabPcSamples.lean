import Comedi.GuardedRuns
import Comedi.LabPc

namespace Comedi.LabPcSamples

open GuardedRuns LabPc SampleSink
open RtTimer (trigCount trigTimer)

/-- `stop_arg * chanlist_len`, computed exactly. -/
def wanted (cmd : Cmd) : Nat := cmd.stopArg.toNat * cmd.chanlistLen.toNat

/-- The acquisition after an interrupt, and the number of samples before it. -/
structure Seen where
  before : Nat := 0
  x : Acq

def step (board : LabpcBoard) (cmd : Cmd) (st : Seen) (r : Reading) : Result Seen :=
  .ok ⟨st.x.sink.out.length, interrupt board cmd st.x r⟩

/-- There are never more samples than are wanted, the acquisition completes with the last one,
each DMA transfer contributes what it received, and none is enabled with a count of 0 or one
that is larger than the buffer. -/
structure Exact (cmd : Cmd) (st : Seen) : Prop where
  most : counts cmd → st.x.sink.out.length ≤ wanted cmd
  complete : counts cmd → (Completes st.x.sink.events ↔
    st.before < wanted cmd ∧ st.x.sink.out.length = wanted cmd)
  transfers : ∀ t ∈ st.x.transfers, t.contributed = t.received
  armed : ∀ n ∈ st.x.armed, 0 < n ∧ n ≤ dmaBufferSize

/-- How many samples the FIFO gives before the status says that there is none. -/
def offered (f : FifoRun) (i : Nat) : Nat → Nat
  | 0 => 0
  | left + 1 => if f.status i &&& dataAvailBit = 0 then 0 else offered f (i + 1) left + 1

section Conditions

variable (board : LabpcBoard) (cmd : Cmd)

/-- The half-words that the 8237 still has to do are none, and they are at most what it was
programmed with. -/
def WholeWords (p : Private) (d : DmaBlock) : Prop :=
  d.residue ≤ p.programmed ∧ d.residue.toNat % 2 = 0

/-- The number of words in a transfer of the size that was first chosen. -/
def maxPoints (p : Private) : Nat := p.dmaTransferSize.toNat / 2

def blockLen (p : Private) (d : DmaBlock) : Nat := maxPoints p - d.residue.toNat / 2

/-- The transfer leaves samples to be wanted, it was not shortened for the last ones, and the
buffer has space. -/
def DmaFits (x : Acq) (d : DmaBlock) (free : Nat) : Prop :=
  WholeWords x.p d ∧ blockLen x.p d ≤ free ∧
    (counts cmd → maxPoints x.p ≤ x.p.count.toNat ∧ blockLen x.p d < x.p.count.toNat)

/-- There is space for the samples; if they are the last ones, there is no overflow and they are
not as many as the loop counts; if none is wanted, there is an overflow. -/
def FifoFits (count free : Nat) (f : FifoRun) : Prop :=
  let n := min count (offered f 0 timeout)
  n ≤ free ∧ (n = count → (f.status n &&& overflowBit = 0 ↔ 0 < count) ∧ count ≠ timeout)

def served (p : Private) : Prop :=
  p.status1 &&& dmatcBit ≠ 0 ∨ board.layout1200 = true ∧ p.status2 &&& a1TcBit ≠ 0

instance (p : Private) : Decidable (served board p) := by unfold served; infer_instance

/-- The second time that the 8237 is drained, after the external stop trigger. -/
def DregsFit (x : Acq) (p : Private) (r : Reading) : Prop :=
  let free := r.free - if served board p then blockLen x.p (r.dma 0) else 0
  WholeWords x.p (r.dma 1) ∧ blockLen x.p (r.dma 1) ≤ free

/-- What an interrupt has to meet for the acquisition to stay exact. -/
def Fits (st : Seen) (r : Reading) : Prop :=
  let p := readStatus board st.x.p r
  ¬ foreign p → p.status1 &&& overrunBit = 0 →
    if p.currentTransfer = .isaDma then
      (served board p → DmaFits cmd st.x (r.dma 0) r.free) ∧
        (cmd.stopSrc = trigExt → p.status2 &&& a1TcBit ≠ 0 → p.status1 &&& overflowBit = 0 →
          DregsFit board st.x p r)
    else counts cmd → FifoFits st.x.p.count.toNat r.free (r.fifo 0)

end Conditions

variable {board : LabpcBoard} {cmd : Cmd} {x x' : Acq} {p q : Private} {d : DmaBlock} {f : FifoRun}
  {r : Reading} {n i : Nat}

/-- The 8237 was programmed with what is wanted, but not with more than the first transfer had. -/
structure DmaInv (cmd : Cmd) (p : Private) : Prop where
  even : p.dmaTransferSize.toNat = 2 * maxPoints p
  pos : 0 < maxPoints p
  le : maxPoints p ≤ 0x7f80
  programmed : p.programmed.toNat =
    2 * if counts cmd then min (maxPoints p) p.count.toNat else maxPoints p
  count : counts cmd → 0 < p.count.toNat

/-- The count says how many samples are missing. -/
structure Inv (cmd : Cmd) (x : Acq) : Prop where
  total : counts cmd → x.sink.out.length + x.p.count.toNat = wanted cmd
  small : counts cmd → x.p.count.toNat < 2 ^ 32
  dma : x.p.currentTransfer = .isaDma → DmaInv cmd x.p
  transfers : ∀ t ∈ x.transfers, t.contributed = t.received
  armed : ∀ n ∈ x.armed, 0 < n ∧ n ≤ dmaBufferSize

theorem half_toNat (n : U32) : (n / sampleSize).toNat = n.toNat / 2 := BitVec.toNat_udiv

theorem points_toNat (h : d.residue.toNat ≤ 2 * maxPoints p) :
    (p.dmaTransferSize / sampleSize - d.residue / sampleSize).toNat = blockLen p d := by
  have hle : d.residue / sampleSize ≤ p.dmaTransferSize / sampleSize := by
    rw [BitVec.le_def, half_toNat, half_toNat]
    exact (Nat.div_le_of_le_mul h)
  rw [BitVec.toNat_sub_of_le hle, half_toNat, half_toNat]
  rfl

theorem DmaInv.residue_le (h : DmaInv cmd p) (hw : WholeWords p d) :
    d.residue.toNat ≤ 2 * maxPoints p := by
  have hle : d.residue.toNat ≤ p.programmed.toNat := hw.1
  rw [h.programmed] at hle
  split at hle
  · omega
  · exact hle

/-- The words that the transfer received are those that the driver takes, if it was not shortened. -/
theorem DmaInv.received_eq (h : DmaInv cmd p) (hw : WholeWords p d)
    (hc : counts cmd → maxPoints p ≤ p.count.toNat) :
    received p d = dmaWords d (blockLen p d) := by
  have hprog : p.programmed.toNat = 2 * maxPoints p := by
    rw [h.programmed]
    split
    · next hcounts => rw [Nat.min_eq_left (hc hcounts)]
    · rfl
  have hle : d.residue ≤ p.programmed := hw.1
  have heven := hw.2
  unfold received blockLen
  rw [half_toNat, BitVec.toNat_sub_of_le hle, hprog]
  congr 1
  omega

theorem dmaWords_length (d : DmaBlock) (n : Nat) : (dmaWords d n).length = n := by
  unfold dmaWords
  rw [List.length_map, List.length_range]

/-- What a drained transfer leaves, as numbers. -/
structure Drained (cmd : Cmd) (x : Acq) (d : DmaBlock) (x' : Acq) : Prop where
  adds : Adds (dmaWords d (blockLen x.p d)) x.sink x'.sink
  count : counts cmd → x'.p.count.toNat + blockLen x.p d = x.p.count.toNat
  size : x'.p.dmaTransferSize = x.p.dmaTransferSize
  xfer : x'.p.currentTransfer = x.p.currentTransfer
  status1 : x'.p.status1 = x.p.status1
  status2 : x'.p.status2 = x.p.status2
  programmed : x'.p.programmed.toNat =
    2 * if counts cmd then min (maxPoints x.p) x'.p.count.toNat else maxPoints x.p
  transfers : x'.transfers = x.transfers ++
    [⟨dmaWords d (blockLen x.p d), dmaWords d (blockLen x.p d)⟩]
  armed : x'.armed = x.armed

theorem raise_adds {s : Sink U16} {l : List U16} {s' : Sink U16} (h : Adds l s s') :
    Adds l s (raise s' comediCbBlock) :=
  ⟨h.out, h.free, (block_and_endBits _).trans h.events⟩

theorem drainDma_counts (hc : counts cmd) (h : DmaInv cmd x.p) (hsmall : x.p.count.toNat < 2 ^ 32)
    (hfit : DmaFits cmd x d x.sink.free) : Drained cmd x d (drainDma cmd x d) := by
  obtain ⟨hw, hfree, hcount⟩ := hfit
  obtain ⟨hmax, hlt⟩ := hcount hc
  have hpoints := points_toNat (h.residue_le hw)
  have hrec := h.received_eq hw fun _ => hmax
  have hle := h.le
  have hwide : ((x.p.dmaTransferSize / sampleSize - d.residue / sampleSize).setWidth 64).toNat =
      blockLen x.p d := by
    rw [BitVec.toNat_setWidth, hpoints]
    exact Nat.mod_eq_of_lt (by unfold blockLen; omega)
  have hclip : ¬ (x.p.count <
      (x.p.dmaTransferSize / sampleSize - d.residue / sampleSize).setWidth 64 ∧ counts cmd) := by
    rw [BitVec.lt_def, hwide]
    omega
  have hmore : (x.p.dmaTransferSize / sampleSize - d.residue / sampleSize).setWidth 64 <
      x.p.count := by
    rw [BitVec.lt_def, hwide]
    exact hlt
  have hsub : (x.p.count -
      (x.p.dmaTransferSize / sampleSize - d.residue / sampleSize).setWidth 64).toNat =
      x.p.count.toNat - blockLen x.p d := by
    rw [BitVec.toNat_sub_of_le (BitVec.le_of_lt hmore), hwide]
  have hadds : Adds (dmaWords d (blockLen x.p d)) x.sink
      (putAll x.sink (dmaWords d (blockLen x.p d))) :=
    putAll_adds (by rw [dmaWords_length]; exact hfree)
  unfold drainDma
  extract_lets p maxPts residue numPoints₁ numPoints rest leftover samples sink count
  have hnum : numPoints = numPoints₁ := if_neg hclip
  have hsamples : samples = dmaWords d (blockLen x.p d) := by
    change dmaWords d numPoints.toNat = _
    rw [hnum]
    exact congrArg (dmaWords d) hpoints
  have hcountEq : count.toNat = x.p.count.toNat - blockLen x.p d := by
    change (if counts cmd then _ else _ : BitVec 64).toNat = _
    rw [if_pos hc, hnum]
    exact hsub
  have hleft : leftover.toNat = min (maxPoints x.p) (x.p.count.toNat - blockLen x.p d) := by
    have hrest : rest.toNat = x.p.count.toNat - blockLen x.p d := by
      change ((x.p.count - numPoints.setWidth 64).setWidth 32).toNat = _
      rw [BitVec.toNat_setWidth, hnum, hsub]
      exact Nat.mod_eq_of_lt (by omega)
    have hmaxPts : maxPts.toNat = maxPoints x.p := half_toNat _
    change (if ¬ counts cmd then maxPts else if numPoints.setWidth 64 < p.count then
      if maxPts < rest then maxPts else rest else 0).toNat = _
    rw [if_neg (not_not.mpr hc), hnum, if_pos hmore]
    split
    · next h =>
      rw [BitVec.lt_def] at h
      omega
    · next h =>
      rw [BitVec.lt_def] at h
      omega
  refine ⟨?_, ?_, rfl, rfl, rfl, rfl, ?_, ?_, rfl⟩
  · change Adds _ x.sink (raise (putAll x.sink samples) comediCbBlock)
    rw [hsamples]
    exact raise_adds hadds
  · intro _
    change count.toNat + _ = _
    omega
  · change (leftover * sampleSize).toNat = _
    rw [BitVec.toNat_mul, hleft, if_pos hc]
    change _ = 2 * min _ count.toNat
    rw [hcountEq]
    change _ * 2 % 2 ^ 32 = _
    omega
  · change x.transfers ++ [⟨received x.p d, (putAll x.sink samples).out.drop _⟩] = _
    rw [hrec, hsamples, hadds.out, List.drop_left]

theorem drainDma_endless (hc : ¬ counts cmd) (h : DmaInv cmd x.p)
    (hfit : DmaFits cmd x d x.sink.free) : Drained cmd x d (drainDma cmd x d) := by
  obtain ⟨hw, hfree, -⟩ := hfit
  have hpoints := points_toNat (h.residue_le hw)
  have hrec := h.received_eq hw fun hcounts => absurd hcounts hc
  have hle := h.le
  have hadds : Adds (dmaWords d (blockLen x.p d)) x.sink
      (putAll x.sink (dmaWords d (blockLen x.p d))) :=
    putAll_adds (by rw [dmaWords_length]; exact hfree)
  unfold drainDma
  extract_lets p maxPts residue numPoints₁ numPoints rest leftover samples sink count
  have hnum : numPoints = numPoints₁ := if_neg fun h => hc h.2
  have hsamples : samples = dmaWords d (blockLen x.p d) := by
    change dmaWords d numPoints.toNat = _
    rw [hnum]
    exact congrArg (dmaWords d) hpoints
  have hleft : leftover = x.p.dmaTransferSize / sampleSize := if_pos hc
  refine ⟨?_, fun hcounts => absurd hcounts hc, rfl, rfl, rfl, rfl, ?_, ?_, rfl⟩
  · change Adds _ x.sink (raise (putAll x.sink samples) comediCbBlock)
    rw [hsamples]
    exact raise_adds hadds
  · change (leftover * sampleSize).toNat = _
    rw [BitVec.toNat_mul, hleft, if_neg hc, half_toNat]
    change maxPoints x.p * 2 % 2 ^ 32 = _
    omega
  · change x.transfers ++ [⟨received x.p d, (putAll x.sink samples).out.drop _⟩] = _
    rw [hrec, hsamples, hadds.out, List.drop_left]

theorem drainDma_drained (hi : Inv cmd x) (hx : x.p.currentTransfer = .isaDma)
    (hfit : DmaFits cmd x d x.sink.free) : Drained cmd x d (drainDma cmd x d) := by
  by_cases hc : counts cmd
  · exact drainDma_counts hc (hi.dma hx) (hi.small hc) hfit
  · exact drainDma_endless hc (hi.dma hx) hfit

theorem Drained.dmaInv (h : Drained cmd x d x') (hi : DmaInv cmd x.p)
    (hfit : counts cmd → blockLen x.p d < x.p.count.toNat) : DmaInv cmd x'.p := by
  have hmax : maxPoints x'.p = maxPoints x.p := by
    unfold maxPoints
    rw [h.size]
  refine ⟨?_, hmax ▸ hi.pos, hmax ▸ hi.le, ?_, fun hc => ?_⟩
  · rw [hmax, h.size, hi.even]
  · rw [hmax, h.programmed]
  · have := h.count hc
    have := hfit hc
    omega

theorem Drained.inv (h : Drained cmd x d x') (hi : Inv cmd x)
    (hx : x.p.currentTransfer = .isaDma)
    (hfit : counts cmd → blockLen x.p d < x.p.count.toNat) : Inv cmd x' := by
  refine ⟨fun hc => ?_, fun hc => ?_, fun _ => h.dmaInv (hi.dma hx) hfit, ?_, h.armed ▸ hi.armed⟩
  · have := hi.total hc
    have := h.count hc
    rw [h.adds.out, List.length_append, dmaWords_length]
    omega
  · have := hi.small hc
    have := h.count hc
    omega
  · intro t ht
    rw [h.transfers] at ht
    rcases List.mem_append.mp ht with ht | ht
    · exact hi.transfers t ht
    · rw [List.mem_singleton.mp ht]

/-- What the 8237 is programmed with is not empty and not larger than the buffer. -/
theorem DmaInv.enable (h : DmaInv cmd p) : 0 < p.programmed ∧ p.programmed ≤ dmaBufferSize := by
  have hprog := h.programmed
  have hpos := h.pos
  have hle := h.le
  have hbuf : dmaBufferSize.toNat = 2 * 0x7f80 := rfl
  rw [BitVec.lt_def, BitVec.le_def, hbuf, hprog]
  change 0 < _ ∧ _
  split
  · next hc =>
    have := h.count hc
    omega
  · omega

theorem Inv.enableDma (hi : Inv cmd x) (hx : x.p.currentTransfer = .isaDma) :
    Inv cmd (enableDma x) := by
  refine ⟨hi.total, hi.small, hi.dma, hi.transfers, fun n hn => ?_⟩
  rcases List.mem_append.mp hn with hn | hn
  · exact hi.armed n hn
  · rw [List.mem_singleton.mp hn]
    exact (hi.dma hx).enable

/-- What the loop that drains the FIFO leaves alone. -/
structure Frame (x x' : Acq) : Prop where
  size : x'.p.dmaTransferSize = x.p.dmaTransferSize
  programmed : x'.p.programmed = x.p.programmed
  xfer : x'.p.currentTransfer = x.p.currentTransfer
  status2 : x'.p.status2 = x.p.status2
  transfers : x'.transfers = x.transfers
  armed : x'.armed = x.armed

theorem Frame.refl (x : Acq) : Frame x x := ⟨rfl, rfl, rfl, rfl, rfl, rfl⟩

theorem Frame.trans {x'' : Acq} (h : Frame x x') (h' : Frame x' x'') : Frame x x'' :=
  ⟨h'.size.trans h.size, h'.programmed.trans h.programmed, h'.xfer.trans h.xfer,
    h'.status2.trans h.status2, h'.transfers.trans h.transfers, h'.armed.trans h.armed⟩

/-- One sample of the FIFO. -/
def takeSample (cmd : Cmd) (f : FifoRun) (i : Nat) (x : Acq) : Acq :=
  { x with
    p := { x.p with
      count := if counts cmd then x.p.count - 1 else x.p.count
      status1 := f.status (i + 1) }
    sink := put x.sink (f.sample i) }

theorem drainLoop_succ (cmd : Cmd) (f : FifoRun) (left i : Nat) (x : Acq) :
    drainLoop cmd f (left + 1) i x =
      if x.p.status1 &&& dataAvailBit = 0 then x
      else if counts cmd ∧ x.p.count = 0 then x
      else drainLoop cmd f left (i + 1) (takeSample cmd f i x) := rfl

theorem takeSample_frame (cmd : Cmd) (f : FifoRun) (i : Nat) (x : Acq) :
    Frame x (takeSample cmd f i x) := ⟨rfl, rfl, rfl, rfl, rfl, rfl⟩

theorem drainLoop_frame (cmd : Cmd) (f : FifoRun) (left i : Nat) (x : Acq) :
    Frame x (drainLoop cmd f left i x) := by
  induction left generalizing i x with
  | zero => exact ⟨rfl, rfl, rfl, rfl, rfl, rfl⟩
  | succ left ih =>
    rw [drainLoop_succ]
    split
    · exact Frame.refl x
    split
    · exact Frame.refl x
    · exact (takeSample_frame cmd f i x).trans (ih (i + 1) _)

theorem drainFifo_frame (cmd : Cmd) (x : Acq) (f : FifoRun) : Frame x (drainFifo cmd x f) := by
  have h : Frame x { x with p := { x.p with status1 := f.status 0 } } :=
    ⟨rfl, rfl, rfl, rfl, rfl, rfl⟩
  exact h.trans (drainLoop_frame cmd f timeout 0 _)

/-- The loop takes `n` samples and counts them. Only when it has come to its end it fails. -/
structure Takes (n left i : Nat) (f : FifoRun) (x x' : Acq) : Prop where
  out : x'.sink.out.length = x.sink.out.length + n
  count : x'.p.count.toNat + n = x.p.count.toNat
  status1 : x'.p.status1 = f.status (i + n)
  events : n < left → x'.sink.events &&& endBits = x.sink.events &&& endBits
  failed : n = left → x'.sink.events &&& comediCbError = comediCbError

theorem Takes.none (hs : x.p.status1 = f.status i) (left : Nat) :
    Takes 0 (left + 1) i f x x :=
  ⟨rfl, rfl, hs, fun _ => rfl, nofun⟩

theorem takeSample_count (hc : counts cmd) (h0 : x.p.count ≠ 0) :
    (takeSample cmd f i x).p.count.toNat + 1 = x.p.count.toNat := by
  have hpos : 0 < x.p.count.toNat := Nat.pos_of_ne_zero fun h => h0 (BitVec.eq_of_toNat_eq h)
  change (if counts cmd then x.p.count - 1 else x.p.count).toNat + 1 = _
  rw [if_pos hc, BitVec.toNat_sub_of_le (show 1 ≤ x.p.count from BitVec.le_def.mpr hpos)]
  exact Nat.sub_add_cancel hpos

theorem Takes.succ {left : Nat} (hs : 0 < x.sink.free) (hc : counts cmd) (h0 : x.p.count ≠ 0)
    (h : Takes n left (i + 1) f (takeSample cmd f i x) x') : Takes (n + 1) (left + 1) i f x x' := by
  have hput : Adds [f.sample i] x.sink (put x.sink (f.sample i)) := put_adds hs _
  have hcount : (takeSample cmd f i x).p.count.toNat + 1 = x.p.count.toNat :=
    takeSample_count hc h0
  refine ⟨?_, ?_, ?_, fun hn => ?_, fun hn => h.failed (Nat.succ.inj hn)⟩
  · rw [h.out]
    change (put x.sink (f.sample i)).out.length + n = _
    rw [hput.out, List.length_append, List.length_singleton]
    omega
  · have := h.count
    omega
  · rw [h.status1]
    congr 1
    omega
  · exact (h.events (Nat.lt_of_succ_lt_succ hn)).trans hput.events

theorem drainLoop_takes (hc : counts cmd) {left : Nat} (hs : x.p.status1 = f.status i)
    (hfree : min x.p.count.toNat (offered f i left) ≤ x.sink.free) :
    Takes (min x.p.count.toNat (offered f i left)) left i f x (drainLoop cmd f left i x) := by
  induction left generalizing i x with
  | zero =>
    have h0 : min x.p.count.toNat (offered f i 0) = 0 := Nat.min_zero _
    rw [h0]
    exact ⟨rfl, rfl, hs, fun h => absurd h (Nat.not_lt_zero _), fun _ => raise_error rfl _⟩
  | succ left ih =>
    rw [drainLoop_succ]
    rw [offered, ← hs] at hfree ⊢
    split
    · next hempty =>
      rw [Nat.min_zero]
      exact Takes.none hs left
    · next havail =>
      rw [if_neg havail] at hfree
      split
      · next hdone =>
        have h0 : x.p.count.toNat = 0 := congrArg BitVec.toNat hdone.2
        rw [h0, Nat.zero_min]
        exact Takes.none hs left
      · next hmore =>
        have h0 : x.p.count ≠ 0 := fun h => hmore ⟨hc, h⟩
        have hcount : (takeSample cmd f i x).p.count.toNat + 1 = x.p.count.toNat :=
          takeSample_count hc h0
        have hspace : 0 < x.sink.free := by omega
        have hput : (takeSample cmd f i x).sink.free + 1 = x.sink.free :=
          (put_adds hspace (f.sample i)).free
        have h : Takes _ left (i + 1) f (takeSample cmd f i x) _ := ih rfl (by omega)
        have hmin : min x.p.count.toNat (offered f (i + 1) left + 1) =
            min (takeSample cmd f i x).p.count.toNat (offered f (i + 1) left) + 1 := by omega
        rw [hmin]
        exact h.succ hspace hc h0

theorem Inv.of_frame (hi : Inv cmd x) (hc : ¬ counts cmd) (h : Frame x x') : Inv cmd x' := by
  have hmax : maxPoints x'.p = maxPoints x.p := by
    unfold maxPoints
    rw [h.size]
  refine ⟨fun hcounts => absurd hcounts hc, fun hcounts => absurd hcounts hc, fun hx => ?_,
    h.transfers ▸ hi.transfers, h.armed ▸ hi.armed⟩
  have hdma := hi.dma (h.xfer ▸ hx)
  refine ⟨?_, hmax ▸ hdma.pos, hmax ▸ hdma.le, ?_, fun hcounts => absurd hcounts hc⟩
  · rw [hmax, h.size, hdma.even]
  · rw [hmax, h.programmed, hdma.programmed, if_neg hc, if_neg hc]

theorem Inv.raise (hi : Inv cmd x) (events : U32) :
    Inv cmd { x with sink := raise x.sink events } :=
  ⟨hi.total, hi.small, hi.dma, hi.transfers, hi.armed⟩

/-- The acquisition completes in this interrupt exactly if its last sample is written in it. -/
def Complete (cmd : Cmd) (before : Nat) (x : Acq) : Prop :=
  counts cmd → (Completes x.sink.events ↔ before < wanted cmd ∧ x.sink.out.length = wanted cmd)

theorem Complete.of_not (h : ¬ Completes x.sink.events)
    (h' : counts cmd → x.sink.out.length ≠ wanted cmd ∨ wanted cmd ≤ i) : Complete cmd i x := by
  intro hc
  refine iff_of_false h fun hd => ?_
  rcases h' hc with hne | hle
  · exact hne hd.2
  · exact Nat.not_lt.mpr hle hd.1

theorem finish_counts (hc : counts cmd) (x : Acq) (r : Reading) :
    finish cmd x r =
      if x.p.count = 0 then { x with sink := SampleSink.raise x.sink comediCbEoa } else x := by
  have hext : cmd.stopSrc ≠ trigExt := by
    rw [show cmd.stopSrc = trigCount from hc]
    decide
  unfold finish
  simp only [hext, false_and, if_false, hc, true_and]

/-- In DMA mode samples stay wanted, so the acquisition goes on. -/
theorem finish_dma (hc : counts cmd) (hi : Inv cmd x) (hx : x.p.currentTransfer = .isaDma)
    (r : Reading) : finish cmd x r = x := by
  have hpos := (hi.dma hx).count hc
  rw [finish_counts hc, if_neg fun h => ?_]
  rw [h] at hpos
  exact absurd hpos (by decide)

theorem finish_endless (hc : ¬ counts cmd) (hi : Inv cmd x)
    (hfit : x.p.currentTransfer = .isaDma → cmd.stopSrc = trigExt → x.p.status2 &&& a1TcBit ≠ 0 →
      WholeWords x.p (r.dma 1) ∧ blockLen x.p (r.dma 1) ≤ x.sink.free) :
    Inv cmd (finish cmd x r) := by
  unfold finish
  rw [if_neg fun h => hc h.1]
  split
  · next hstop =>
    apply Inv.raise
    unfold drainDregs
    dsimp only
    split
    · next hx =>
      have hf := hfit hx hstop.1 hstop.2
      have hd : Drained cmd x (r.dma 1) _ :=
        drainDma_drained hi hx ⟨hf.1, hf.2, fun hcounts => absurd hcounts hc⟩
      have hi' := hd.inv hi hx fun hcounts => absurd hcounts hc
      exact hi'.of_frame hc (drainFifo_frame ..)
    · exact hi.of_frame hc (drainFifo_frame ..)
  · exact hi

/-- The state in which an interrupt starts. -/
def entered (board : LabpcBoard) (x : Acq) (r : Reading) : Acq :=
  { x with p := readStatus board x.p r, sink := { x.sink with events := 0, free := r.free } }

theorem interrupt_eq (board : LabpcBoard) (cmd : Cmd) (x : Acq) (r : Reading) :
    interrupt board cmd x r =
      let y := entered board x r
      if foreign y.p then y
      else if y.p.status1 &&& overrunBit ≠ 0 then
        { y with sink := SampleSink.raise y.sink (comediCbError ||| comediCbEoa) }
      else
        let z := fetch board cmd y r
        if z.p.status1 &&& overflowBit ≠ 0 then
          { z with sink := SampleSink.raise z.sink (comediCbError ||| comediCbEoa) }
        else finish cmd z r := rfl

theorem Inv.entered (hi : Inv cmd x) (board : LabpcBoard) (r : Reading) :
    Inv cmd (entered board x r) :=
  ⟨hi.total, hi.small, fun hx => ⟨(hi.dma hx).even, (hi.dma hx).pos, (hi.dma hx).le,
    (hi.dma hx).programmed, (hi.dma hx).count⟩, hi.transfers, hi.armed⟩

/-- What the DMA part of an interrupt leaves for the rest of it. -/
structure Served (cmd : Cmd) (free : Nat) (x x' : Acq) : Prop where
  inv : Inv cmd x'
  xfer : x'.p.currentTransfer = .isaDma
  status1 : x'.p.status1 = x.p.status1
  status2 : x'.p.status2 = x.p.status2
  size : x'.p.dmaTransferSize = x.p.dmaTransferSize
  free : x'.sink.free = free
  events : x'.sink.events &&& endBits = x.sink.events &&& endBits

theorem fetch_served (board : LabpcBoard) (hx : x.p.currentTransfer = .isaDma)
    (hs : served board x.p) (r : Reading) :
    fetch board cmd x r = handleIsaDma cmd x (r.dma 0) := by
  unfold fetch
  rw [if_pos hx]
  exact if_pos hs

theorem fetch_not_served (board : LabpcBoard) (hx : x.p.currentTransfer = .isaDma)
    (hs : ¬ served board x.p) (r : Reading) : fetch board cmd x r = x := by
  unfold fetch
  rw [if_pos hx]
  exact if_neg hs

theorem fetch_dma (hi : Inv cmd x) (hx : x.p.currentTransfer = .isaDma)
    (hfit : served board x.p → DmaFits cmd x (r.dma 0) x.sink.free) :
    Served cmd (x.sink.free - if served board x.p then blockLen x.p (r.dma 0) else 0) x
      (fetch board cmd x r) := by
  by_cases hs : served board x.p
  · have hd : Drained cmd x (r.dma 0) _ := drainDma_drained hi hx (hfit hs)
    have hi' := hd.inv hi hx fun hc => ((hfit hs).2.2 hc).2
    have hx' := hd.xfer.trans hx
    have hfree := hd.adds.free
    rw [dmaWords_length] at hfree
    rw [if_pos hs, fetch_served board hx hs]
    refine ⟨hi'.enableDma hx', hx', hd.status1, hd.status2, hd.size, ?_, hd.adds.events⟩
    change (drainDma cmd x (r.dma 0)).sink.free = _
    omega
  · rw [if_neg hs, fetch_not_served board hx hs]
    exact ⟨hi, hx, rfl, rfl, rfl, rfl, rfl⟩

theorem Inv.length_ne (hi : Inv cmd x) (hx : x.p.currentTransfer = .isaDma) (hc : counts cmd) :
    x.sink.out.length ≠ wanted cmd := by
  have := hi.total hc
  have := (hi.dma hx).count hc
  omega

/-- What was not shortened before the first of two drains is not before the second. -/
theorem Served.wholeWords {free : Nat} (h : Served cmd free x x') (hi : Inv cmd x)
    (hx : x.p.currentTransfer = .isaDma) (hc : ¬ counts cmd) (hw : WholeWords x.p d) :
    WholeWords x'.p d := by
  have hprog := (h.inv.dma h.xfer).programmed
  have hle : d.residue.toNat ≤ x.p.programmed.toNat := hw.1
  rw [(hi.dma hx).programmed, if_neg hc] at hle
  rw [if_neg hc, maxPoints, h.size] at hprog
  refine ⟨?_, hw.2⟩
  rw [BitVec.le_def, hprog]
  exact hle

theorem interrupt_dma (hi : Inv cmd x) (hx : x.p.currentTransfer = .isaDma)
    (hfit : (served board x.p → DmaFits cmd x (r.dma 0) x.sink.free) ∧
      (cmd.stopSrc = trigExt → x.p.status2 &&& a1TcBit ≠ 0 → x.p.status1 &&& overflowBit = 0 →
        WholeWords x.p (r.dma 1) ∧ blockLen x.p (r.dma 1) ≤
          x.sink.free - if served board x.p then blockLen x.p (r.dma 0) else 0))
    (hev : x.sink.events = 0) :
    let z := fetch board cmd x r
    let x' := if z.p.status1 &&& overflowBit ≠ 0 then
        { z with sink := SampleSink.raise z.sink (comediCbError ||| comediCbEoa) }
      else finish cmd z r
    Inv cmd x' ∧ Complete cmd i x' := by
  have hz := fetch_dma (r := r) hi hx hfit.1
  revert hz
  generalize fetch board cmd x r = z
  intro hz
  dsimp only
  split
  · refine ⟨hz.inv.raise _, .of_not ?_ fun hc => .inl (hz.inv.length_ne hz.xfer hc)⟩
    exact not_completes_error (raise_error rfl _)
  · next hovf =>
    rw [not_not, hz.status1] at hovf
    by_cases hc : counts cmd
    · rw [finish_dma hc hz.inv hz.xfer]
      refine ⟨hz.inv, .of_not ?_ fun hc => .inl (hz.inv.length_ne hz.xfer hc)⟩
      unfold Completes
      rw [hz.events, hev]
      decide
    · refine ⟨finish_endless hc hz.inv fun _ hext hstop => ?_, fun hcounts => absurd hcounts hc⟩
      rw [hz.status2] at hstop
      obtain ⟨hw, hfree⟩ := hfit.2 hext hstop hovf
      refine ⟨hz.wholeWords hi hx hc hw, ?_⟩
      rw [hz.free, blockLen, maxPoints, hz.size]
      exact hfree

theorem offered_le (f : FifoRun) (i left : Nat) : offered f i left ≤ left := by
  induction left generalizing i with
  | zero => exact Nat.le_refl 0
  | succ left ih =>
    rw [offered]
    split
    · exact Nat.zero_le _
    · exact Nat.succ_le_succ (ih (i + 1))

theorem Takes.inv (ht : Takes n timeout 0 f x x') (hi : Inv cmd x) (hf : Frame x x')
    (hx : x.p.currentTransfer ≠ .isaDma) : Inv cmd x' := by
  refine ⟨fun hc => ?_, fun hc => ?_, fun h => absurd (hf.xfer.symm.trans h) hx,
    hf.transfers ▸ hi.transfers, hf.armed ▸ hi.armed⟩
  · have := hi.total hc
    have := ht.out
    have := ht.count
    omega
  · have := hi.small hc
    have := ht.count
    omega

/-- While samples are wanted the acquisition does not complete. -/
theorem Takes.not_completes (ht : Takes n timeout 0 f x x') (hn : n ≤ timeout)
    (hev : x.sink.events = 0) : ¬ Completes x'.sink.events := by
  rcases Nat.lt_or_eq_of_le hn with hlt | heq
  · unfold Completes
    rw [ht.events hlt, hev]
    decide
  · exact not_completes_error (ht.failed heq)

/-- The end of an interrupt that took `n` samples from the FIFO for a command that counts. -/
theorem Takes.complete (hc : counts cmd) (ht : Takes n timeout 0 f x x') (hi : Inv cmd x)
    (hf : Frame x x') (hx : x.p.currentTransfer ≠ .isaDma) (hev : x.sink.events = 0)
    (hn : n ≤ timeout)
    (hlast : n = x.p.count.toNat →
      (f.status n &&& overflowBit = 0 ↔ 0 < x.p.count.toNat) ∧ x.p.count.toNat ≠ timeout) :
    let z := if x'.p.status1 &&& overflowBit ≠ 0 then
        { x' with sink := SampleSink.raise x'.sink (comediCbError ||| comediCbEoa) }
      else finish cmd x' r
    Inv cmd z ∧ Complete cmd x.sink.out.length z := by
  have hi' := ht.inv hi hf hx
  have htotal := hi.total hc
  have hout := ht.out
  have hcount := ht.count
  have hstatus := ht.status1
  rw [Nat.zero_add] at hstatus
  dsimp only
  split
  · next hovf =>
    rw [hstatus] at hovf
    refine ⟨hi'.raise _, .of_not (not_completes_error (raise_error rfl _)) fun _ => ?_⟩
    change x'.sink.out.length ≠ wanted cmd ∨ _
    by_cases hall : n = x.p.count.toNat
    · have h0 := mt (hlast hall).1.mpr hovf
      omega
    · omega
  · next hovf =>
    rw [not_not, hstatus] at hovf
    rw [finish_counts hc]
    split
    · next hdone =>
      have hall : n = x.p.count.toNat := by
        rw [hdone] at hcount
        exact (Nat.zero_add n).symm.trans hcount
      obtain ⟨hwant, htime⟩ := hlast hall
      have hpos := hwant.mp hovf
      have hlt : n < timeout := lt_of_le_of_ne hn (hall ▸ htime)
      refine ⟨hi'.raise _, fun _ => iff_of_true ?_ ?_⟩
      · apply raise_eoa
        rw [ht.events hlt, hev]
        rfl
      · change _ ∧ x'.sink.out.length = _
        omega
    · next hmore =>
      have hne : x'.p.count.toNat ≠ 0 := fun h => hmore (BitVec.eq_of_toNat_eq h)
      refine ⟨hi', .of_not (ht.not_completes hn hev) fun _ => ?_⟩
      omega

/-- The samples of the FIFO are taken and counted, and the acquisition completes with the last
one that is wanted. -/
theorem interrupt_fifo (hi : Inv cmd x) (hx : x.p.currentTransfer ≠ .isaDma)
    (hfit : counts cmd → FifoFits x.p.count.toNat x.sink.free (r.fifo 0))
    (hev : x.sink.events = 0) :
    let z := fetch board cmd x r
    let x' := if z.p.status1 &&& overflowBit ≠ 0 then
        { z with sink := SampleSink.raise z.sink (comediCbError ||| comediCbEoa) }
      else finish cmd z r
    Inv cmd x' ∧ Complete cmd x.sink.out.length x' := by
  have hz : fetch board cmd x r = drainFifo cmd x (r.fifo 0) := if_neg hx
  rw [hz]
  have hframe := drainFifo_frame cmd x (r.fifo 0)
  by_cases hc : counts cmd
  · obtain ⟨hfree, hlast⟩ := hfit hc
    let y : Acq := { x with p := { x.p with status1 := (r.fifo 0).status 0 } }
    have ht : Takes _ timeout 0 (r.fifo 0) y _ := drainLoop_takes (x := y) hc rfl hfree
    have hy : Inv cmd y :=
      ⟨hi.total, hi.small, fun h => absurd h hx, hi.transfers, hi.armed⟩
    have h := ht.complete (r := r) hc hy (drainLoop_frame cmd (r.fifo 0) timeout 0 y) hx hev
      (le_trans (Nat.min_le_right _ _) (offered_le ..)) hlast
    exact h
  · have hi' := hi.of_frame hc hframe
    refine ⟨?_, fun hcounts => absurd hcounts hc⟩
    split
    · exact hi'.raise _
    · exact finish_endless hc hi' fun h => absurd (hframe.xfer.symm.trans h) hx

theorem interrupt_inv (hi : Inv cmd x) (hfit : Fits board cmd ⟨n, x⟩ r) :
    Inv cmd (interrupt board cmd x r) ∧
      Complete cmd x.sink.out.length (interrupt board cmd x r) := by
  have hy : Inv cmd (entered board x r) := hi.entered board r
  rw [interrupt_eq]
  dsimp only
  split
  · refine ⟨hy, .of_not (show ¬ Completes 0 by decide) fun _ => ?_⟩
    change x.sink.out.length ≠ _ ∨ _ ≤ x.sink.out.length
    omega
  next hforeign =>
  split
  · refine ⟨hy.raise _, .of_not (not_completes_error (raise_error rfl _)) fun _ => ?_⟩
    change x.sink.out.length ≠ _ ∨ _ ≤ x.sink.out.length
    omega
  next hover =>
  have hfit := hfit hforeign (not_not.mp hover)
  split at hfit
  · next hx => exact interrupt_dma (x := entered board x r) hy hx hfit rfl
  · next hx => exact interrupt_fifo (x := entered board x r) hy hx hfit rfl

theorem suggestTransferSize_returns (ha : AiAccepted board cmd) :
    ∃ size, suggestTransferSize cmd = .ok size ∧ size.toNat % 2 = 0 ∧ 2 ≤ size.toNat ∧
      size.toNat ≤ 0xff00 := by
  have hclip (freq : U32) (hfreq : freq.toNat / 3 * 2 < 2 ^ 32) :
      let size := freq / 3 * sampleSize
      let size := if dmaBufferSize < size then dmaBufferSize - dmaBufferSize % sampleSize
        else if size < sampleSize then sampleSize else size
      size.toNat % 2 = 0 ∧ 2 ≤ size.toNat ∧ size.toNat ≤ 0xff00 := by
    have hsize : (freq / 3 * sampleSize).toNat = freq.toNat / 3 * 2 := by
      rw [BitVec.toNat_mul, BitVec.toNat_udiv]
      exact Nat.mod_eq_of_lt hfreq
    dsimp only
    split
    · decide
    · next hle =>
      rw [BitVec.lt_def, hsize, show dmaBufferSize.toNat = 0xff00 from rfl] at hle
      split
      · decide
      · next hlt =>
        rw [BitVec.lt_def, hsize, show sampleSize.toNat = 2 from rfl] at hlt
        rw [hsize]
        omega
  have hbound (freq : U32) : freq.toNat / 3 * 2 < 2 ^ 32 := by
    have := freq.isLt
    omega
  unfold suggestTransferSize
  split
  · next htimer =>
    have h0 : cmd.convertArg ≠ 0 := by
      intro h0
      have hle := ha.convertArg htimer
      have hpos := board.aiSpeed_pos
      rw [h0, BitVec.le_def] at hle
      rw [BitVec.lt_def] at hpos
      exact absurd (lt_of_lt_of_le hpos hle) (Nat.lt_irrefl _)
    rw [if_neg h0]
    exact ⟨_, rfl, hclip _ (hbound _)⟩
  · exact ⟨_, rfl, hclip _ (hbound _)⟩

theorem wanted_pos (ha : AiAccepted board cmd) (hc : counts cmd) : 0 < wanted cmd :=
  Nat.mul_pos (Nat.pos_of_ne_zero fun h => ha.stopArg hc (BitVec.eq_of_toNat_eq h))
    (Nat.pos_of_ne_zero fun h => ha.chanlistLen_pos (BitVec.eq_of_toNat_eq h))

/-- The first transfer is not empty, and not larger than what is wanted. -/
theorem firstSize {count : BitVec 64} {size : U32} (hsmall : counts cmd → count.toNat < 2 ^ 32)
    (hpos : counts cmd → 0 < count.toNat) (heven : size.toNat % 2 = 0) (hlow : 2 ≤ size.toNat)
    (hhigh : size.toNat ≤ 0xff00) :
    let first := if counts cmd ∧ count * 2 < size.setWidth 64 then (count * 2).setWidth 32 else size
    first.toNat % 2 = 0 ∧ 2 ≤ first.toNat ∧ first.toNat ≤ 0xff00 ∧
      (counts cmd → first.toNat / 2 ≤ count.toNat) := by
  have hwide : (size.setWidth 64).toNat = size.toNat := by
    rw [BitVec.toNat_setWidth]
    omega
  have htwice (hc : counts cmd) : (count * 2).toNat = count.toNat * 2 := by
    have h : (count * 2).toNat = count.toNat * 2 % 2 ^ 64 := BitVec.toNat_mul count 2
    have := hsmall hc
    omega
  dsimp only
  split
  · next h =>
    have hlt := h.2
    have := hpos h.1
    rw [BitVec.lt_def, hwide, htwice h.1] at hlt
    have hfirst : ((count * 2).setWidth 32).toNat = count.toNat * 2 := by
      rw [BitVec.toNat_setWidth, htwice h.1]
      omega
    rw [hfirst]
    omega
  · next h =>
    refine ⟨heven, hlow, hhigh, fun hc => ?_⟩
    have hle : ¬ count * 2 < size.setWidth 64 := fun hlt => h ⟨hc, hlt⟩
    rw [BitVec.lt_def, hwide, htwice hc] at hle
    omega

theorem aiCmd_inv (ha : AiAccepted board cmd) (p : Private)
    (hn : counts cmd → wanted cmd < 2 ^ 32) :
    ∃ x, aiCmd board p cmd = .ok x ∧ Inv cmd x ∧ x.sink = {} := by
  have hcount : counts cmd → (if counts cmd then (cmd.stopArg * cmd.chanlistLen).setWidth 64
      else p.count).toNat = wanted cmd := by
    intro hc
    have hlt := hn hc
    rw [if_pos hc, BitVec.toNat_setWidth, BitVec.toNat_mul]
    unfold wanted at hlt ⊢
    omega
  unfold aiCmd
  extract_lets count xfer q
  change counts cmd → count.toNat = _ at hcount
  split
  · obtain ⟨size, hsize, heven, hlow, hhigh⟩ := suggestTransferSize_returns ha
    rw [hsize]
    have hpos (hc : counts cmd) : 0 < count.toNat := by
      rw [hcount hc]
      exact wanted_pos ha hc
    have hsmall (hc : counts cmd) : count.toNat < 2 ^ 32 := by
      rw [hcount hc]
      exact hn hc
    have hfirst := firstSize hsmall hpos heven hlow hhigh
    refine ⟨_, rfl, ?_, rfl⟩
    revert hfirst
    dsimp only
    generalize (if counts cmd ∧ count * 2 < size.setWidth 64 then (count * 2).setWidth 32
      else size) = first
    rintro ⟨heven, hlow, hhigh, hle⟩
    have htwice : first.toNat = 2 * (first.toNat / 2) :=
      (Nat.mul_div_cancel' (Nat.dvd_of_mod_eq_zero heven)).symm
    refine Inv.enableDma ⟨fun hc => ?_, hsmall, fun _ => ⟨htwice, ?_, ?_, ?_, hpos⟩, nofun, nofun⟩
      ‹_›
    · exact (Nat.zero_add _).trans (hcount hc)
    · exact Nat.div_pos hlow (by decide)
    · exact Nat.div_le_of_le_mul hhigh
    · change first.toNat = 2 * if counts cmd then min (first.toNat / 2) count.toNat else
        first.toNat / 2
      split
      · next hc =>
        rw [Nat.min_eq_left (hle hc)]
        exact htwice
      · exact htwice
  · next hx =>
    refine ⟨_, rfl, ⟨fun hc => ?_, fun hc => ?_, fun h => absurd h hx, nofun, nofun⟩, rfl⟩
    · exact (Nat.zero_add _).trans (hcount hc)
    · change count.toNat < _
      rw [hcount hc]
      exact hn hc

theorem Exact.of_inv {st : Seen} (hi : Inv cmd st.x) (hc : Complete cmd st.before st.x) :
    Exact cmd st :=
  ⟨fun h => Nat.le.intro (hi.total h), hc, hi.transfers, hi.armed⟩

/-- In an acquisition whose interrupts all fit, the samples, the end and the DMA transfers are
as the command says. -/
theorem samples_delivered (ha : AiAccepted board cmd) (p : Private)
    (hn : counts cmd → wanted cmd < 2 ^ 32) :
    ∃ x, aiCmd board p cmd = .ok x ∧ ∀ rs, AllFit (step board cmd) (Fits board cmd) ⟨0, x⟩ rs →
      ∃ st, run (step board cmd) ⟨0, x⟩ rs = .ok st ∧ Exact cmd st := by
  obtain ⟨x, hx, hi, hsink⟩ := aiCmd_inv ha p hn
  have hstart : Complete cmd 0 x := by
    refine .of_not ?_ fun hc => .inl ?_
    · rw [hsink]
      decide
    · rw [hsink]
      exact Nat.ne_of_lt (wanted_pos ha hc)
  refine ⟨x, hx, fun rs hfit => ?_⟩
  obtain ⟨st, hst, hi', hc'⟩ := run_total
    (fun st : Seen => Inv cmd st.x ∧ Complete cmd st.before st.x)
    (fun st r hst hr => ⟨_, rfl, interrupt_inv hst.1 hr⟩) ⟨hi, hstart⟩ hfit
  exact ⟨st, hst, .of_inv hi' hc'⟩

/-- One channel, and as many samples as `stopArg` says. -/
def someSamples (stopArg : U32) : Cmd where
  startSrc := RtTimer.trigNow
  scanBeginSrc := RtTimer.trigFollow
  convertSrc := trigTimer
  convertArg := 100000
  scanEndSrc := trigCount
  scanEndArg := 1
  stopSrc := trigCount
  stopArg := stopArg
  chanlist := .kernel [0]
  chanlistLen := 1

def pci1200 : LabpcBoard := ⟨true, false, false, 10000, by decide⟩
def labPcPlus : LabpcBoard := ⟨false, true, true, 12000, by decide⟩

/-- The FIFO gives `n` samples, or a DMA transfer is complete. -/
def fifoReading (n : Nat) : Reading where
  status1 := dataAvailBit
  status2 := 0
  dma _ := ⟨0, fun _ => 0⟩
  fifo _ := ⟨fun i => if i < n then dataAvailBit else 0, fun i => .ofNat 8 i, fun _ => 0⟩
  free := 4096

def dmaReading : Reading := { fifoReading 0 with status1 := dmatcBit }

theorem someSamples_accepted (board : LabpcBoard) (h : board.aiSpeed ≤ 100000) {n : U32}
    (hn : n ≠ 0) : AiAccepted board (someSamples n) where
  stopSrc := .inl rfl
  chanlistLen_pos := show (1 : U32) ≠ 0 by decide
  chanlistLen_le := show (1 : U32) ≤ lenChanlist by decide
  convertArg _ := h
  stopArg _ := hn

/-- Three samples that come in two interrupts. -/
theorem samples_delivered_fifo :
    ∃ x, aiCmd pci1200 {} (someSamples 3) = .ok x ∧
      ∃ st, run (step pci1200 (someSamples 3)) ⟨0, x⟩ [fifoReading 2, fifoReading 5] = .ok st ∧
        Exact (someSamples 3) st ∧ Completes st.x.sink.events ∧ st.x.sink.out = [0, 1, 0] := by
  have ha : AiAccepted pci1200 (someSamples 3) := someSamples_accepted _ (by decide) (by decide)
  obtain ⟨x, hx, h⟩ := samples_delivered ha {} fun _ => by decide
  cases hx
  obtain ⟨st, hst, hexact⟩ := h [fifoReading 2, fifoReading 5]
    (.cons (fun _ _ _ => ⟨by decide, by decide⟩) rfl
      (.cons (fun _ _ _ => ⟨by decide, by decide⟩) rfl trivial))
  cases hst
  exact ⟨_, rfl, _, rfl, hexact, by decide, by decide⟩

/-- When the last DMA transfer has been drained, the 8237 is enabled with a count of 0. -/
theorem empty_dma_armed :
    AiAccepted labPcPlus (someSamples 1) ∧
    ∃ x st, aiCmd labPcPlus {} (someSamples 1) = .ok x ∧
      run (step labPcPlus (someSamples 1)) ⟨0, x⟩ [dmaReading] = .ok st ∧
      st.x.sink.out = [0] ∧ Completes st.x.sink.events ∧ st.x.armed = [2, 0] ∧
      ¬ Exact (someSamples 1) st := by
  refine ⟨someSamples_accepted _ (by decide) (by decide), _, _, rfl, rfl, by decide, by decide,
    by decide, fun h => ?_⟩
  exact absurd (h.armed 0 (by decide)).1 (by decide)

end Comedi.LabPcSamples
