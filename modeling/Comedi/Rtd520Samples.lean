import Comedi.GuardedRuns
import Comedi.Rtd520

namespace Comedi.Rtd520Samples

open GuardedRuns Rtd520 SampleSink
open RtTimer (trigCount trigNone trigTimer)

/-- `stop_arg * chanlist_len`, computed exactly. -/
def wanted (cmd : Cmd) : Nat := cmd.stopArg.toNat * cmd.chanlistLen.toNat

/-- The polarity of the entry that the `k`-th sample of the acquisition belongs to. -/
def polarity (board : RtdBoard) (cmd : Cmd) (k : Nat) : Bool :=
  isBipolar board ((entries cmd).getD (k % cmd.chanlistLen.toNat) 0)

/-- The value of a sample depends only on its word and on the polarity of its entry. -/
def Converted (board : RtdBoard) (cmd : Cmd) (out : List (U16 × U16)) : Prop :=
  ∀ k d v, out[k]? = some (d, v) → v = convert (polarity board cmd k) d

/-- The acquisition after a step, the number of samples before it, and whether it had ended. -/
structure Seen where
  before : Nat := 0
  endedBefore : Bool := false
  x : Acq

def step (board : RtdBoard) (cmd : Cmd) (st : Seen) (s : Step) : Result Seen :=
  .ok ⟨st.x.sink.out.length, st.x.ended, perform board cmd st.x s⟩

/-- The samples are the first words from the board, converted alike. There are never more than are
wanted, the acquisition completes with the last one, and there are no more after its end. -/
structure Exact (board : RtdBoard) (cmd : Cmd) (st : Seen) : Prop where
  converted : Converted board cmd st.x.sink.out
  first : st.x.sink.out.map Prod.fst <+: st.x.read
  most : counts cmd → st.x.sink.out.length ≤ wanted cmd
  complete : counts cmd → st.endedBefore = false → Completes st.x.sink.events →
    st.x.sink.out.length = wanted cmd
  last : counts cmd → st.before < wanted cmd → st.x.sink.out.length = wanted cmd →
    Completes st.x.sink.events
  stops : st.endedBefore = true → st.x.sink.out.length = st.before

section Conditions

variable (board : RtdBoard) (cmd : Cmd)

/-- How many of `n` samples the remaining count lets through. -/
def taken (count : Int) (n : Nat) : Nat := if 0 ≤ count then min n count.toNat else n

/-- The number of words that `rtd_interrupt` reads from the FIFO. -/
def fifoWords (p : Private) (r : Reading) : Nat :=
  if r.status &&& irqmAdcAboutCnt = 0 then 0
  else if r.fifoStatus &&& fsAdcHempty = 0 then (board.fifoLen / 2).toNat
  else if 0 < p.transCount.toInt ∧ r.fifoStatus &&& fsAdcNotEmpty ≠ 0 then p.transCount.toNat
  else 0

/-- For `n` samples from the FIFO, the polarity at `async->cur_chan` is that of their entries. -/
def FifoAlike (chan k n : Nat) : Prop :=
  ∀ i < n, polarity board cmd chan = polarity board cmd (k + i)

/-- The same for a DMA block, along which `async->cur_chan` moves. -/
def DmaAlike (chan k n : Nat) : Prop :=
  ∀ i < n, polarity board cmd (chan + i) = polarity board cmd (k + i)

instance (chan k n : Nat) : Decidable (FifoAlike board cmd chan k n) :=
  inferInstanceAs (Decidable (∀ i < n, _))

instance (chan k n : Nat) : Decidable (DmaAlike board cmd chan k n) :=
  inferInstanceAs (Decidable (∀ i < n, _))

def dmaServed (p : Private) (r : Reading) : Prop :=
  board.useDma ∧ p.dma0Active ∧ r.plxStatus &&& icsDma0A ≠ 0

instance (p : Private) (r : Reading) : Decidable (dmaServed board p r) := by
  unfold dmaServed
  infer_instance

/-- Where a sample is put, the entry that `async->cur_chan` stands at has the polarity of the one
that the sample belongs to. -/
def Fits (st : Seen) : Step → Prop
  | .interrupt r =>
    let p := st.x.p
    let chan := p.curChan.toNat
    let k := st.x.sink.out.length
    r.fifoStatus &&& fsAdcNotFull ≠ 0 →
      if dmaServed board p r then
        let n := taken p.aiCount (board.fifoLen / 2).toNat
        n ≤ r.free → DmaAlike board cmd chan k n ∧
          FifoAlike board cmd (chan + n) (k + n)
            (min (r.free - n) (taken (p.aiCount - n) (fifoWords board p r)))
      else FifoAlike board cmd chan k (min r.free (taken p.aiCount (fifoWords board p r)))
  | .cancel => True

end Conditions

variable {board : RtdBoard} {cmd : Cmd} {x x' : Acq} {p p' : Private} {r : Reading} {n : Nat}
  {e : Bool} {ds : List U16} {out l : List (U16 × U16)}

theorem Converted.append (h : Converted board cmd out)
    (hl : ∀ i d v, l[i]? = some (d, v) → v = convert (polarity board cmd (out.length + i)) d) :
    Converted board cmd (out ++ l) := by
  intro k d v hk
  rcases Nat.lt_or_ge k out.length with hlt | hge
  · rw [List.getElem?_append_left hlt] at hk
    exact h k d v hk
  · rw [List.getElem?_append_right hge] at hk
    have := hl _ d v hk
    rwa [Nat.add_sub_cancel' hge] at this

/-- What holds of the samples at every point of an interrupt. -/
structure Kept (board : RtdBoard) (cmd : Cmd) (x : Acq) : Prop where
  converted : Converted board cmd x.sink.out
  first : x.sink.out.map Prod.fst <+: x.read
  most : counts cmd → x.sink.out.length ≤ wanted cmd
  bipolar : x.p.chanBipolar = (entries cmd).map (isBipolar board)
  chan : x.p.curChan.toNat < cmd.chanlistLen.toNat

/-- While the acquisition goes on no word is lost, and the count says how many are missing. -/
structure Inv (board : RtdBoard) (cmd : Cmd) (x : Acq) : Prop extends Kept board cmd x where
  all : x.p.aiCount ≠ 0 → x.sink.out.map Prod.fst = x.read
  total : counts cmd → x.ended = false → x.sink.out.length + x.p.aiCount = wanted cmd
  nonneg : counts cmd → 0 ≤ x.p.aiCount
  stopped : x.ended = true → x.p.aiCount = 0

theorem polarity_mod_add (board : RtdBoard) (cmd : Cmd) (k i : Nat) :
    polarity board cmd (k % cmd.chanlistLen.toNat + i) = polarity board cmd (k + i) := by
  unfold polarity
  rw [Nat.mod_add_mod]

/-- `chanBipolar` at an entry of the list. -/
theorem testBipolar_eq (ha : AiAccepted cmd)
    (hp : p.chanBipolar = (entries cmd).map (isBipolar board)) {chan : Nat}
    (hc : chan < cmd.chanlistLen.toNat) : testBipolar p chan = polarity board cmd chan := by
  have hlt : chan < (entries cmd).length := by
    rw [ha.chanlist]
    exact hc
  unfold testBipolar polarity
  rw [hp, Nat.mod_eq_of_lt hc]
  simp [List.getD_eq_getElem?_getD, hlt]

theorem taken_le (count : Int) (n : Nat) : taken count n ≤ n := by
  unfold taken
  split
  · exact Nat.min_le_left _ _
  · exact Nat.le_refl _

theorem taken_zero (n : Nat) : taken 0 n = 0 := Nat.min_zero n

theorem taken_succ {count : Int} (h : count ≠ 0) (n : Nat) :
    taken count (n + 1) = taken (countDown count) n + 1 := by
  unfold taken countDown
  by_cases hpos : 0 < count
  · rw [if_pos hpos, if_pos (by omega), if_pos (by omega)]
    omega
  · rw [if_neg hpos, if_neg (by omega), if_neg (by omega)]

/-- The state within an interrupt, before the acquisition completes or fails. -/
structure Going (board : RtdBoard) (cmd : Cmd) (n : Nat) (e : Bool) (x : Acq) : Prop where
  inv : Inv board cmd x
  ended : x.ended = e
  stops : e = true → x.sink.out.length = n
  events : x.sink.events &&& endBits = 0

theorem Going.running (h : Going board cmd n e x) (hne : x.p.aiCount ≠ 0) : e = false := by
  cases e
  · rfl
  · exact absurd (h.inv.stopped h.ended) hne

/-- What a transfer leaves that has added `l` for the words `ds`. -/
structure Moved (x : Acq) (l : List (U16 × U16)) (ds : List U16) (x' : Acq) : Prop where
  adds : Adds l x.sink x'.sink
  read : x'.read = x.read ++ ds
  words : l.map Prod.fst <+: ds
  all : x'.p.aiCount ≠ 0 → l.length = ds.length
  count : 0 ≤ x.p.aiCount → x'.p.aiCount + l.length = x.p.aiCount ∧ 0 ≤ x'.p.aiCount
  endless : x.p.aiCount < 0 → x'.p.aiCount = x.p.aiCount
  ended : x'.ended = x.ended

theorem Going.moved (h : Going board cmd n e x) (hne : x.p.aiCount ≠ 0) (hm : Moved x l ds x')
    (hl : ∀ i d v, l[i]? = some (d, v) →
      v = convert (polarity board cmd (x.sink.out.length + i)) d)
    (hb : x'.p.chanBipolar = x.p.chanBipolar)
    (hc : x'.p.curChan.toNat < cmd.chanlistLen.toNat) : Going board cmd n e x' := by
  have hrun := h.running hne
  have htotal (hcount : counts cmd) : x'.sink.out.length + x'.p.aiCount = wanted cmd := by
    have := h.inv.total hcount (h.ended.trans hrun)
    have := hm.count (h.inv.nonneg hcount)
    rw [hm.adds.out, List.length_append]
    omega
  have hnonneg (hcount : counts cmd) := (hm.count (h.inv.nonneg hcount)).2
  refine ⟨⟨⟨?_, ?_, fun hcount => ?_, hb.trans h.inv.bipolar, hc⟩, fun hall => ?_,
    fun hcount _ => htotal hcount, hnonneg, fun hend => ?_⟩, hm.ended.trans h.ended, fun he => ?_,
    hm.adds.events.trans h.events⟩
  · rw [hm.adds.out]
    exact h.inv.converted.append hl
  · rw [hm.adds.out, hm.read, List.map_append, h.inv.all hne]
    exact (List.prefix_append_right_inj _).mpr hm.words
  · have := htotal hcount
    have := hnonneg hcount
    omega
  · rw [hm.adds.out, hm.read, List.map_append, h.inv.all hne]
    congr 1
    exact hm.words.eq_of_length ((List.length_map _).trans (hm.all hall))
  · rw [hm.ended, h.ended, hrun] at hend
    exact absurd hend Bool.false_ne_true
  · rw [hrun] at he
    exact absurd he Bool.false_ne_true

/-- The outcome of a transfer that started with `n` samples. -/
structure Transferred (board : RtdBoard) (cmd : Cmd) (n : Nat) (e : Bool) (res : Bool × Acq) :
    Prop where
  kept : Kept board cmd res.2
  stops : e = true → res.2.sink.out.length = n
  going : res.1 = true → Going board cmd n e res.2
  failed : res.1 = false → counts cmd → n < wanted cmd → res.2.sink.out.length ≠ wanted cmd

theorem Going.transferred (h : Going board cmd n e x) : Transferred board cmd n e (true, x) :=
  ⟨h.inv.toKept, h.stops, fun _ => h, nofun⟩

theorem Going.missing (h : Going board cmd n e x) (hne : x.p.aiCount ≠ 0) (hc : counts cmd) :
    x.sink.out.length ≠ wanted cmd := by
  have := h.inv.total hc (h.ended.trans (h.running hne))
  omega

/-- A word that is discarded, because nothing is wanted any more. -/
theorem Going.discard (h : Going board cmd n e x) (h0 : x.p.aiCount = 0) (d : U16) :
    Going board cmd n e { x with read := x.read ++ [d] } :=
  { inv := {
      converted := h.inv.converted
      first := h.inv.first.trans (List.prefix_append _ _)
      most := h.inv.most
      bipolar := h.inv.bipolar
      chan := h.inv.chan
      all := fun hne => absurd h0 hne
      total := h.inv.total
      nonneg := h.inv.nonneg
      stopped := h.inv.stopped }
    ended := h.ended
    stops := h.stops
    events := h.events }

/-- The words from the FIFO are converted for the entry that `async->cur_chan` stands at. -/
theorem aiReadN_transferred (ha : AiAccepted cmd) (h : Going board cmd n e x)
    (hfit : FifoAlike board cmd x.p.curChan.toNat x.sink.out.length
      (min x.sink.free (taken x.p.aiCount ds.length))) :
    Transferred board cmd n e (aiReadN x ds) := by
  induction ds generalizing x with
  | nil => exact h.transferred
  | cons d ds ih =>
    rw [aiReadN]
    split
    · next h0 =>
      refine ih (h.discard h0 d) ?_
      change FifoAlike board cmd _ _ (min _ (taken x.p.aiCount ds.length))
      rw [h0, taken_zero, Nat.min_zero]
      exact nofun
    next hne =>
    split
    · have hkept : Kept board cmd { x with read := x.read ++ [d] } :=
        ⟨h.inv.converted, h.inv.first.trans (List.prefix_append _ _), h.inv.most, h.inv.bipolar,
          h.inv.chan⟩
      exact ⟨⟨hkept.converted, hkept.first, hkept.most, hkept.bipolar, hkept.chan⟩, h.stops, nofun,
        fun _ hc _ => h.missing hne hc⟩
    · next hfree =>
      rw [List.length_cons, taken_succ hne] at hfit
      have hadds := put_adds (Nat.pos_of_ne_zero hfree)
        (d, convert (testBipolar x.p x.p.curChan.toNat) d)
      have hone := hadds.free
      have hlen : (put x.sink (d, convert (testBipolar x.p x.p.curChan.toNat) d)).out.length =
          x.sink.out.length + 1 := by
        rw [hadds.out, List.length_append, List.length_singleton]
      rw [List.length_singleton] at hone
      refine ih (h.moved hne ⟨hadds, rfl, List.prefix_refl _, fun _ => rfl, ?_, ?_, rfl⟩ ?_ rfl
        h.inv.chan) ?_
      · intro hle
        change countDown _ + 1 = _ ∧ 0 ≤ countDown _
        unfold countDown
        split <;> omega
      · intro hlt
        exact if_neg (by omega)
      · intro i d' v hi
        rw [List.getElem?_singleton] at hi
        split at hi
        · next h0 =>
          cases hi
          subst h0
          rw [testBipolar_eq ha h.inv.bipolar h.inv.chan, hfit 0 (by omega)]
        · cases hi
      · intro i hi
        change polarity board cmd x.p.curChan.toNat = polarity board cmd (List.length _ + i)
        have hlt : i < min (put x.sink _).free (taken (countDown x.p.aiCount) ds.length) := hi
        rw [hlen, hfit (i + 1) (by omega)]
        congr 1
        omega

/-- What the first loop of `ai_process_dma` makes of the words of a block. -/
structure Block (board : RtdBoard) (cmd : Cmd) (p : Private) (ds : List U16)
    (res : Private × List (U16 × U16)) : Prop where
  words : res.2.map Prod.fst <+: ds
  length : res.2.length = taken p.aiCount ds.length
  converted : ∀ i d v, res.2[i]? = some (d, v) →
    v = convert (polarity board cmd (p.curChan.toNat + i)) d
  all : res.1.aiCount ≠ 0 → res.2.length = ds.length
  count : 0 ≤ p.aiCount → res.1.aiCount + res.2.length = p.aiCount ∧ 0 ≤ res.1.aiCount
  endless : p.aiCount < 0 → res.1.aiCount = p.aiCount
  bipolar : res.1.chanBipolar = p.chanBipolar
  transCount : res.1.transCount = p.transCount
  chan : res.1.curChan.toNat = (p.curChan.toNat + res.2.length) % cmd.chanlistLen.toNat

/-- `cur_chan` moves along the list, and back to its start. -/
theorem nextChan_toNat (ha : AiAccepted cmd) {chan : U32}
    (hc : chan.toNat < cmd.chanlistLen.toNat) :
    (if cmd.chanlistLen ≤ chan + 1 then 0 else chan + 1).toNat =
      (chan.toNat + 1) % cmd.chanlistLen.toNat := by
  have hmax : cmd.chanlistLen.toNat ≤ 128 := ha.chanlistLen_le
  have hnext : (chan + 1).toNat = chan.toNat + 1 := by
    rw [BitVec.toNat_add]
    exact Nat.mod_eq_of_lt (by change chan.toNat + 1 < _; omega)
  split
  · next hle =>
    rw [BitVec.le_def, hnext] at hle
    have heq : chan.toNat + 1 = cmd.chanlistLen.toNat := Nat.le_antisymm hc hle
    rw [heq, Nat.mod_self]
    rfl
  · next hle =>
    rw [BitVec.le_def, hnext] at hle
    rw [hnext, Nat.mod_eq_of_lt (Nat.lt_of_not_le hle)]

theorem countDown_nonneg {count : Int} (hne : count ≠ 0) (h : 0 ≤ count) :
    countDown count + 1 = count ∧ 0 ≤ countDown count := by
  unfold countDown
  split <;> omega

theorem countDown_neg {count : Int} (h : count < 0) : countDown count = count :=
  if_neg (Int.not_lt.mpr (Int.le_of_lt h))

/-- `cur_chan` and the count after one sample of a block. -/
def advance (cmd : Cmd) (p : Private) : Private :=
  { p with
    curChan := if cmd.chanlistLen ≤ p.curChan + 1 then 0 else p.curChan + 1
    aiCount := countDown p.aiCount }

theorem convertBlock_cons (d : U16) :
    convertBlock cmd p (d :: ds) =
      let sample := convert (testBipolar p p.curChan.toNat) d
      if (advance cmd p).aiCount = 0 then (advance cmd p, [(d, sample)])
      else
        let res := convertBlock cmd (advance cmd p) ds
        (res.1, (d, sample) :: res.2) := rfl

theorem convertBlock_block (ha : AiAccepted cmd) (hne : p.aiCount ≠ 0)
    (hb : p.chanBipolar = (entries cmd).map (isBipolar board))
    (hc : p.curChan.toNat < cmd.chanlistLen.toNat) :
    Block board cmd p ds (convertBlock cmd p ds) := by
  induction ds generalizing p with
  | nil =>
    refine ⟨List.prefix_refl _, ?_, nofun, fun _ => rfl, fun h => ⟨Int.add_zero _, h⟩, fun _ => rfl,
      rfl, rfl, (Nat.mod_eq_of_lt hc).symm⟩
    exact (Nat.le_zero.mp (taken_le p.aiCount 0)).symm
  | cons d ds ih =>
    have hchan := nextChan_toNat ha hc
    have hval : convert (testBipolar p p.curChan.toNat) d =
        convert (polarity board cmd (p.curChan.toNat + 0)) d := by
      rw [Nat.add_zero, ← testBipolar_eq ha hb hc]
    rw [convertBlock_cons]
    dsimp only
    split
    · next h0 =>
      have h0 : countDown p.aiCount = 0 := h0
      refine ⟨List.prefix_append [d] ds, ?_, ?_, fun h => absurd h0 h, fun h => ?_, fun h => ?_,
        rfl, rfl, hchan⟩
      · rw [List.length_cons (a := d), taken_succ hne, h0, taken_zero]
        rfl
      · intro i d' v hi
        rw [List.getElem?_singleton] at hi
        split at hi
        · next hi0 =>
          cases hi
          rw [hi0]
          exact hval
        · cases hi
      · exact countDown_nonneg hne h
      · exact countDown_neg h
    · next h0 =>
      have hpos : 0 < cmd.chanlistLen.toNat := Nat.lt_of_le_of_lt (Nat.zero_le _) hc
      have hlt : (advance cmd p).curChan.toNat < cmd.chanlistLen.toNat := by
        rw [advance, hchan]
        exact Nat.mod_lt _ hpos
      have hq := ih (p := advance cmd p) h0 hb hlt
      have hqchan : (advance cmd p).curChan.toNat = _ := hchan
      revert hq
      generalize convertBlock cmd (advance cmd p) ds = res
      intro hq
      refine ⟨?_, ?_, ?_, fun h => ?_, fun h => ?_, fun h => ?_, hq.bipolar, hq.transCount, ?_⟩
      · exact (List.prefix_cons_inj d).mpr hq.words
      · rw [List.length_cons, List.length_cons, hq.length, taken_succ hne]
        rfl
      · intro i d' v hi
        cases i with
        | zero =>
          cases hi
          exact hval
        | succ i =>
          rw [hq.converted i d' v hi, hqchan, polarity_mod_add, Nat.add_assoc, Nat.add_comm 1 i]
      · rw [List.length_cons, hq.all h]
        rfl
      · have h₁ := countDown_nonneg hne h
        have h₂ := hq.count h₁.2
        have h₃ : (advance cmd p).aiCount = countDown p.aiCount := rfl
        change res.1.aiCount + (res.2.length + 1 : Nat) = _ ∧ 0 ≤ res.1.aiCount
        omega
      · have h₁ := countDown_neg h
        exact (hq.endless (by change countDown _ < 0; omega)).trans h₁
      · rw [hq.chan, hqchan, Nat.mod_add_mod, List.length_cons]
        congr 1
        omega

theorem halfFifo_length (board : RtdBoard) (words : Nat → U16) :
    (halfFifo board words).length = (board.fifoLen / 2).toNat := by
  unfold halfFifo
  rw [List.length_map, List.length_range]

/-- The acquisition after a DMA block that there is space for. -/
structure DmaDone (board : RtdBoard) (cmd : Cmd) (n : Nat) (e : Bool) (x x' : Acq) : Prop where
  going : Going board cmd n e x'
  fits : taken x.p.aiCount (board.fifoLen / 2).toNat ≤ x.sink.free
  transCount : x'.p.transCount = x.p.transCount
  length : x'.sink.out.length =
    x.sink.out.length + taken x.p.aiCount (board.fifoLen / 2).toNat
  free : x'.sink.free = x.sink.free - taken x.p.aiCount (board.fifoLen / 2).toNat
  chan : x'.p.curChan.toNat =
    (x.p.curChan.toNat + taken x.p.aiCount (board.fifoLen / 2).toNat) % cmd.chanlistLen.toNat
  count : ∀ i, taken x'.p.aiCount i =
    taken (x.p.aiCount - taken x.p.aiCount (board.fifoLen / 2).toNat) i

theorem aiProcessDma_transferred (ha : AiAccepted cmd) (h : Going board cmd n e x)
    (hmissing : counts cmd → n < wanted cmd → x.sink.out.length ≠ wanted cmd)
    (hfit : taken x.p.aiCount (board.fifoLen / 2).toNat ≤ x.sink.free →
      DmaAlike board cmd x.p.curChan.toNat x.sink.out.length
        (taken x.p.aiCount (board.fifoLen / 2).toNat)) :
    Transferred board cmd n e (aiProcessDma board cmd x r) ∧
      ((aiProcessDma board cmd x r).1 = true →
        DmaDone board cmd n e x (aiProcessDma board cmd x r).2) := by
  unfold aiProcessDma
  split
  · next h0 =>
    have hz := taken_zero (board.fifoLen / 2).toNat
    refine ⟨h.transferred, fun _ => ⟨h, ?_, rfl, ?_, ?_, ?_, fun i => ?_⟩⟩
    · rw [h0, hz]
      exact Nat.zero_le _
    · rw [h0, hz, Nat.add_zero]
    · rw [h0, hz, Nat.sub_zero]
    · rw [h0, hz, Nat.add_zero, Nat.mod_eq_of_lt h.inv.chan]
    · rw [h0, hz]
      rfl
  next hne =>
  have hblock : Block board cmd x.p (halfFifo board r.dma) _ :=
    convertBlock_block ha hne h.inv.bipolar h.inv.chan
  have hlen := hblock.length
  rw [halfFifo_length] at hlen
  have hlt : (convertBlock cmd x.p (halfFifo board r.dma)).1.curChan.toNat <
      cmd.chanlistLen.toNat := by
    rw [hblock.chan]
    exact Nat.mod_lt _ (Nat.lt_of_le_of_lt (Nat.zero_le _) h.inv.chan)
  revert hblock hlen hlt
  generalize convertBlock cmd x.p (halfFifo board r.dma) = res
  intro hblock hlen hlt
  dsimp only
  split
  · refine ⟨⟨⟨h.inv.converted, h.inv.first.trans (List.prefix_append _ _), h.inv.most,
      hblock.bipolar.trans h.inv.bipolar, hlt⟩, h.stops, nofun, fun _ => hmissing⟩, nofun⟩
  · next hfree =>
    rw [Nat.not_lt] at hfree
    have hput := putArray_adds hfree
    have hadds : Adds res.2 x.sink
        (raise (putArray x.sink res.2) (comediCbBlock ||| comediCbEos)) := by
      refine ⟨hput.out, hput.free, ?_⟩
      change (_ ||| (comediCbBlock ||| comediCbEos)) &&& endBits = _
      rw [BitVec.and_or_distrib_right, hput.events]
      exact BitVec.or_zero
    let x' : Acq := { x with
      p := res.1
      read := x.read ++ halfFifo board r.dma
      sink := raise (putArray x.sink res.2) (comediCbBlock ||| comediCbEos) }
    have hgoing : Going board cmd n e x' := h.moved hne
      ⟨hadds, rfl, hblock.words, hblock.all, hblock.count, hblock.endless, rfl⟩
      (fun i d v hi => by
        rw [hblock.converted i d v hi]
        have hi' := (List.getElem?_eq_some_iff.mp hi).1
        rw [hlen] at hi'
        rw [hfit (hlen ▸ hfree) i hi'])
      hblock.bipolar hlt
    refine ⟨hgoing.transferred, fun _ => ⟨hgoing, hlen ▸ hfree, hblock.transCount, ?_, ?_, ?_,
      fun i => ?_⟩⟩
    · change (raise (putArray _ _) _).out.length = _
      rw [hadds.out, List.length_append, hlen]
    · have := hadds.free
      change (raise (putArray _ _) _).free = _
      omega
    · rw [← hlen]
      exact hblock.chan
    · rw [← hlen]
      change taken res.1.aiCount i = _
      rcases Int.lt_or_le x.p.aiCount 0 with hneg | hpos
      · unfold taken
        rw [hblock.endless hneg, if_neg (by omega), if_neg (by omega)]
      · have := hblock.count hpos
        congr 1
        omega

/-- The end of an interrupt that started with `n` samples. -/
structure Done (board : RtdBoard) (cmd : Cmd) (n : Nat) (e : Bool) (x : Acq) : Prop where
  inv : Inv board cmd x
  running : x.ended = false → ¬ Completes x.sink.events
  complete : counts cmd → e = false → Completes x.sink.events → x.sink.out.length = wanted cmd
  last : counts cmd → n < wanted cmd → x.sink.out.length = wanted cmd → Completes x.sink.events
  stops : e = true → x.sink.out.length = n

theorem Kept.abort (h : Kept board cmd x) (hs : e = true → x.sink.out.length = n)
    (hm : counts cmd → n < wanted cmd → x.sink.out.length ≠ wanted cmd) :
    Done board cmd n e (abortTransfer x) := by
  have hnot : ¬ Completes (abortTransfer x).sink.events := by
    have herr : (x.sink.events ||| comediCbError) &&& comediCbError = comediCbError :=
      raise_error rfl _
    refine not_completes_error ?_
    change (x.sink.events ||| comediCbError ||| comediCbEoa) &&& comediCbError = comediCbError
    rw [BitVec.or_assoc, BitVec.or_comm comediCbError, ← BitVec.or_assoc]
    exact raise_error rfl _
  exact ⟨⟨⟨h.converted, h.first, h.most, h.bipolar, h.chan⟩, fun hne => absurd rfl hne, nofun,
    fun _ => Int.le_refl 0, fun _ => rfl⟩, nofun, fun _ _ hc => absurd hc hnot,
    fun hc hn hlen => absurd hlen (hm hc hn), hs⟩

theorem Going.finish (h : Going board cmd n e x) (h0 : x.p.aiCount = 0) :
    Done board cmd n e (transferDone x) := by
  have hk := h.inv.toKept
  refine ⟨⟨⟨hk.converted, hk.first, hk.most, hk.bipolar, hk.chan⟩, fun hne => absurd h0 hne, nofun,
    fun _ => Int.le_of_eq h0.symm, fun _ => h0⟩, nofun, fun hc he _ => ?_,
    fun _ _ _ => raise_eoa h.events, h.stops⟩
  have := h.inv.total hc (h.ended.trans he)
  rw [h0, Int.add_zero] at this
  exact Int.ofNat.inj this

theorem Going.stay (h : Going board cmd n e x)
    (hm : counts cmd → n < wanted cmd → x.sink.out.length ≠ wanted cmd) : Done board cmd n e x := by
  have hnot : ¬ Completes x.sink.events := by
    unfold Completes
    rw [h.events]
    decide
  exact ⟨h.inv, fun _ => hnot, fun _ _ hc => absurd hc hnot,
    fun hc hn hlen => absurd hlen (hm hc hn), h.stops⟩

theorem checkOverrun_done (h : Going board cmd n e x)
    (hm : counts cmd → n < wanted cmd → x.sink.out.length ≠ wanted cmd) :
    Done board cmd n e (checkOverrun r x) := by
  unfold checkOverrun
  split
  · exact h.inv.abort h.stops hm
  · exact h.stay hm

theorem Transferred.afterTransfer {res : Bool × Acq} (h : Transferred board cmd n e res)
    {next : Acq → Acq}
    (hnext : res.1 = true → res.2.p.aiCount ≠ 0 → Done board cmd n e (next res.2)) :
    Done board cmd n e (afterTransfer res next) := by
  unfold Rtd520.afterTransfer
  split
  · next hf => exact h.kept.abort h.stops (h.failed (Bool.not_eq_true _ ▸ hf))
  next hok =>
  rw [not_not] at hok
  split
  · next h0 => exact (h.going hok).finish h0
  · next hne => exact hnext hok hne

theorem fifoWords_congr (board : RtdBoard) (r : Reading) (h : p'.transCount = p.transCount) :
    fifoWords board p' r = fifoWords board p r := by
  unfold fifoWords
  rw [h]

theorem serveFifo_done (ha : AiAccepted cmd) (h : Going board cmd n e x)
    (hm : counts cmd → n < wanted cmd → x.sink.out.length ≠ wanted cmd)
    (hfit : FifoAlike board cmd x.p.curChan.toNat x.sink.out.length
      (min x.sink.free (taken x.p.aiCount (fifoWords board x.p r)))) :
    Done board cmd n e (serveFifo board r x) := by
  have hread {words : List U16} (hw : words.length = fifoWords board x.p r) :
      Done board cmd n e (afterTransfer (aiReadN x words) (checkOverrun r)) := by
    rw [← hw] at hfit
    have ht := aiReadN_transferred ha h hfit
    exact ht.afterTransfer fun hok hne =>
      checkOverrun_done (ht.going hok) fun hc _ => (ht.going hok).missing hne hc
  unfold serveFifo
  unfold fifoWords at hread
  split
  · exact h.stay hm
  split
  · next habout =>
    rw [if_neg habout] at hread
    split
    · next hhalf =>
      refine hread ?_
      rw [if_pos hhalf]
      exact halfFifo_length board r.fifo
    · next hhalf =>
      rw [if_neg hhalf] at hread
      split
      · next htrans =>
        refine hread ?_
        rw [if_pos htrans, List.length_map, List.length_range]
      · exact checkOverrun_done h hm
  · exact checkOverrun_done h hm

/-- What the interrupt handler starts from. -/
theorem Inv.going (h : Inv board cmd x) (free : Nat) :
    Going board cmd x.sink.out.length x.ended
      { x with sink := { x.sink with free := free, events := 0 } } :=
  { inv := {
      converted := h.converted
      first := h.first
      most := h.most
      bipolar := h.bipolar
      chan := h.chan
      all := h.all
      total := h.total
      nonneg := h.nonneg
      stopped := h.stopped }
    ended := rfl
    stops := fun _ => rfl
    events := BitVec.zero_and }

theorem interrupt_done (ha : AiAccepted cmd) (h : Inv board cmd x)
    (hfit : Fits board cmd ⟨n, e, x⟩ (.interrupt r)) :
    Done board cmd x.sink.out.length x.ended (interrupt board cmd x r) := by
  have hg := h.going r.free
  have hm : counts cmd → x.sink.out.length < wanted cmd → x.sink.out.length ≠ wanted cmd :=
    fun _ => Nat.ne_of_lt
  unfold interrupt
  unfold Fits at hfit
  dsimp only at hfit ⊢
  split
  · exact hg.inv.abort hg.stops hm
  next hroom =>
  have hfit := hfit hroom
  change Done _ _ _ _ (if dmaServed board x.p r then _ else _)
  split
  · next hdma =>
    rw [if_pos hdma] at hfit
    have ht := aiProcessDma_transferred (r := r) ha hg hm fun hfree => (hfit hfree).1
    refine ht.1.afterTransfer fun hok hne => ?_
    have hd := ht.2 hok
    have hsome := hd.going.missing hne
    refine serveFifo_done ha hd.going (fun hc _ => hsome hc) fun i hi => ?_
    have hwords := fifoWords_congr board r hd.transCount
    have hchan := polarity_mod_add board cmd
      (x.p.curChan.toNat + taken x.p.aiCount (board.fifoLen / 2).toNat) 0
    rw [hd.free, hd.count, hwords] at hi
    rw [hd.chan, hd.length]
    exact hchan.trans ((hfit hd.fits).2 i hi)
  · next hdma =>
    rw [if_neg hdma] at hfit
    exact serveFifo_done ha hg hm hfit

/-- What every step keeps. -/
structure Reached (board : RtdBoard) (cmd : Cmd) (st : Seen) : Prop where
  inv : Inv board cmd st.x
  running : st.x.ended = false → ¬ Completes st.x.sink.events
  exact : Exact board cmd st

theorem Done.reached {before : Nat} {endedBefore : Bool} {x : Acq}
    (h : Done board cmd before endedBefore x) : Reached board cmd ⟨before, endedBefore, x⟩ :=
  ⟨h.inv, h.running, h.inv.converted, h.inv.first, h.inv.most, h.complete, h.last, h.stops⟩

theorem aiCancel_reached {st : Seen} (h : Reached board cmd st) :
    Reached board cmd ⟨st.x.sink.out.length, st.x.ended, aiCancel st.x⟩ := by
  have hk := h.inv.toKept
  have hk' : Kept board cmd (aiCancel st.x) :=
    ⟨hk.converted, hk.first, hk.most, hk.bipolar, hk.chan⟩
  refine ⟨⟨hk', fun hne => absurd rfl hne, nofun, fun _ => Int.le_refl 0, fun _ => rfl⟩, nofun,
    hk.converted, hk.first, hk.most, fun _ he hc => absurd hc (h.running he), fun _ hn hlen => ?_,
    fun _ => rfl⟩
  exact absurd hlen (Nat.ne_of_lt hn)

theorem perform_reached (ha : AiAccepted cmd) {st : Seen} {s : Step} (h : Reached board cmd st)
    (hfit : Fits board cmd st s) :
    ∃ st', step board cmd st s = .ok st' ∧ Reached board cmd st' := by
  cases s with
  | interrupt r => exact ⟨_, rfl, (interrupt_done ha h.inv hfit).reached⟩
  | cancel => exact ⟨_, rfl, aiCancel_reached h⟩

theorem transCountOf_returns (ha : AiAccepted cmd) : ∃ n, transCountOf board cmd = .ok n := by
  unfold transCountOf
  split
  · next htimer =>
    split
    · exact ⟨_, rfl⟩
    · rw [if_neg (not_or.mpr ⟨ha.scanBeginArg htimer, ha.chanlistLen_pos⟩)]
      dsimp only
      split <;> exact ⟨_, rfl⟩
  · exact ⟨_, rfl⟩

theorem aiCmd_reached (board : RtdBoard) (ha : AiAccepted cmd)
    (hn : counts cmd → wanted cmd < 2 ^ 32) :
    ∃ x, aiCmd board cmd = .ok x ∧ Reached board cmd ⟨0, false, x⟩ := by
  obtain ⟨n, hcount⟩ : ∃ n, transCountOf board cmd = .ok n := transCountOf_returns ha
  have hpos : 0 < cmd.chanlistLen.toNat :=
    Nat.pos_of_ne_zero fun h => ha.chanlistLen_pos (BitVec.eq_of_toNat_eq h)
  have htotal (hc : counts cmd) : (cmd.stopArg * cmd.chanlistLen).toNat = wanted cmd := by
    rw [BitVec.toNat_mul]
    exact Nat.mod_eq_of_lt (hn hc)
  have hnone : ¬ Completes 0 := by decide
  unfold aiCmd
  rw [hcount]
  refine ⟨_, rfl, ⟨⟨nofun, List.prefix_refl _, fun _ => Nat.zero_le _, rfl, hpos⟩, fun _ => rfl,
    fun hc _ => ?_, fun hc => ?_, nofun⟩, fun _ => hnone, nofun, List.prefix_refl _,
    fun _ => Nat.zero_le _, fun _ _ hc => absurd hc hnone, fun _ hlt hlen => ?_, fun _ => rfl⟩
  · change (0 : Nat) +
      (if counts cmd then ((cmd.stopArg * cmd.chanlistLen).toNat : Int) else -1) = _
    rw [if_pos hc, htotal hc]
    exact Int.zero_add _
  · change 0 ≤ if counts cmd then ((cmd.stopArg * cmd.chanlistLen).toNat : Int) else -1
    rw [if_pos hc]
    exact Int.natCast_nonneg _
  · exact absurd hlen (Nat.ne_of_lt hlt)

/-- Two channels, the second with the range `range`, that are scanned twice. -/
def twoChannels (range : U32) : Cmd where
  startSrc := RtTimer.trigNow
  scanBeginSrc := trigTimer
  scanBeginArg := 1000000
  convertSrc := trigTimer
  convertArg := 1000
  scanEndSrc := trigCount
  scanEndArg := 2
  stopSrc := trigCount
  stopArg := 2
  chanlist := .kernel [0, 1 ||| range <<< 16]
  chanlistLen := 2

/-- The ranges from 6 on are unipolar. -/
def dm7520 (useDma : Bool) : RtdBoard := ⟨6, 8, useDma⟩

theorem twoChannels_accepted (range : U32) : AiAccepted (twoChannels range) where
  stopSrc := .inl rfl
  chanlist := rfl
  chanlistLen_pos := show (2 : U32) ≠ 0 by decide
  chanlistLen_le := show (2 : U32) ≤ rtdMaxChanlist by decide
  scanBeginArg _ := show (1000000 : U32) ≠ 0 by decide

/-- Half of the FIFO is full. -/
def halfFull : Reading where
  fifoStatus := fsAdcNotFull ||| fsAdcNotEmpty
  plxStatus := icsDma0A
  status := irqmAdcAboutCnt
  overrunStatus := 0
  dma := .ofNat 16
  fifo := .ofNat 16
  free := 4096

end Comedi.Rtd520Samples
