import Comedi.Pcidas64Ring

namespace Comedi.Pcidas64Output

open Pcidas64 Pcidas64Ring GuardedRuns
open RtTimer (trigCount trigNone)

/-- From descriptor `first` on, the buffers hold these chunks of the stream, and no other buffer
waits for its transfer. -/
structure Holds (st : Ao) (first : Nat) (chunks : List (List Byte)) : Prop where
  length_le : chunks.length ≤ 16
  held : ∀ i c, chunks[i]? = some c →
    (st.aoDmaDesc ((first + i) % 16)).transferSize = c.length ∧
      (st.aoBuffer ((first + i) % 16)).take c.length = c
  waiting : ∀ k < 16, st.waiting k = true ↔ ∃ i < chunks.length, (first + i) % 16 = k

/-- What was read from the comedi buffer was delivered, or waits for its transfer in ring order.
No waiting buffer was loaded, and the newest descriptor alone ends the chain. -/
structure Lossless (st : Ao) : Prop where
  chunks : ∃ first chunks, Holds st first chunks ∧
    st.consumed = st.fifo ++ st.sent ++ chunks.flatten
  kept : st.overwritten = false
  marked : ∀ n, st.newest = some n → ∀ k < 16, (st.aoDmaDesc k).endOfChain = true ↔ k = n

/-- Only the first and the last descriptor may end a chain that an earlier command left. -/
def CleanMarks (st : Ao) : Prop := ∀ k < 16, (st.aoDmaDesc k).endOfChain = true → k = 0 ∨ k = 15

/-- All that was loaded has been transferred, and there is no sample to load. -/
def Exhausted (st : Ao) : Prop :=
  st.dma.done = true ∧ (∀ k < 16, st.waiting k = false) ∧ st.available.length < bytesInSample

def Fits (st : Ao) : AoStep → Prop
  | .trigger trigNum _ =>
    st.inttrig = true ∧ trigNum = 0 →
      st.consumed = [] ∧
      (2 ∣ st.available.length ∨ dacFifoSize ≤ st.available.length) ∧
      st.available.length ≤ dacFifoSize + aoDmaRingCount * dmaBytes + 1 ∧
      (dacFifoSize + bytesInSample ≤ st.available.length → CleanMarks st)
  | .interrupt i =>
    i.plxStatus &&& icsDma0A ≠ 0 → st.dma.enabled = true → Exhausted st → i.offset = ⟨0, by decide⟩
  | _ => True

/-- Where the channel is while `chunks` wait. -/
structure Walks (c : Channel) (first : Nat) (chunks : List (List Byte)) : Prop where
  idle : c.started = false → c.next = first % 16
  stopped : c.started = true → c.done = true →
    c.next = first % 16 ∧ c.current = (first + 15) % 16 ∧ chunks.length ≤ 15
  busy : c.started = true → c.done = false →
    c.current = first % 16 ∧ c.next = (first + 1) % 16 ∧
      (∃ x, chunks[0]? = some x ∧ c.fetched.transferSize = x.length) ∧
      (c.fetched.endOfChain = false → 2 ≤ chunks.length)

structure Ring (st : Ao) (first : Nat) (chunks : List (List Byte)) : Prop where
  holds : Holds st first chunks
  index : st.aoDmaIndex = (first + chunks.length) % 16
  consumed : st.consumed = st.fifo ++ st.sent ++ chunks.flatten
  kept : st.overwritten = false
  newest : ∀ n, st.newest = some n →
    n = prevAoDmaIndex st ∧ ∀ k < 16, (st.aoDmaDesc k).endOfChain = true ↔ k = n
  loaded : chunks ≠ [] → st.newest ≠ none

variable {b : AoBuffers} {cmd : Cmd} {st st' : Ao} {first : Nat} {chunks : List (List Byte)}
  {c : List Byte} {n : Nat} {gs : List Glance}

theorem Ring.lossless (h : Ring st first chunks) : Lossless st :=
  ⟨⟨first, chunks, h.holds, h.consumed⟩, h.kept, fun n hn => (h.newest n hn).2⟩

theorem prev_eq (h : st.aoDmaIndex < 16) : prevAoDmaIndex st = (st.aoDmaIndex + 15) % 16 := by
  unfold prevAoDmaIndex aoDmaRingCount
  split <;> omega

/-- A mark that loading the next buffer sets or clears. -/
def Marked (st : Ao) : Prop :=
  ∀ k < 16, (st.aoDmaDesc k).endOfChain = true → k = st.aoDmaIndex ∨ k = prevAoDmaIndex st

theorem Ring.marked (h : Ring st first chunks) (hn : st.newest ≠ none) : Marked st := by
  obtain ⟨n, hn⟩ := Option.ne_none_iff_exists'.mp hn
  obtain ⟨rfl, hm⟩ := h.newest n hn
  exact fun k hk he => .inr ((hm k hk).mp he)

theorem loadBytes_eq (hcmd : cmd.stopSrc = trigNone) (st : Ao) :
    loadBytes cmd st =
      min st.available.length dmaBytes - min st.available.length dmaBytes % bytesInSample := by
  have hne : trigNone ≠ trigCount := by decide
  unfold loadBytes
  rw [if_neg (fun h => hne (hcmd ▸ h.1))]

theorem loadBytes_spec (hcmd : cmd.stopSrc = trigNone) (st : Ao) :
    loadBytes cmd st ≤ st.available.length ∧ loadBytes cmd st ≤ 4096 ∧
      (loadBytes cmd st < 4096 → st.available.length - loadBytes cmd st < 2) := by
  rw [loadBytes_eq hcmd]
  unfold dmaBytes bytesInSample
  omega

theorem chainDesc_size (desc : Nat → AoDesc) (index prev size k : Nat) :
    (chainDesc desc index prev size k).transferSize =
      if k = index then size else (desc k).transferSize := by
  unfold chainDesc
  by_cases hp : k = prev
  · subst hp
    by_cases hi : k = index
    · subst hi
      simp
    · simp [hi, Function.update_of_ne hi]
  · by_cases hi : k = index
    · subst hi
      simp [Function.update_of_ne hp]
    · simp [Function.update_of_ne hp, Function.update_of_ne hi, hi]

theorem chainDesc_end (desc : Nat → AoDesc) {index prev : Nat} (hne : index ≠ prev) (size k : Nat) :
    (chainDesc desc index prev size k).endOfChain =
      if k = index then true else if k = prev then false else (desc k).endOfChain := by
  unfold chainDesc
  by_cases hp : k = prev
  · subst hp
    simp [Ne.symm hne]
  · by_cases hi : k = index
    · subst hi
      simp [Function.update_of_ne hp]
    · simp [Function.update_of_ne hp, Function.update_of_ne hi, hi, hp]

theorem Ring.index_lt (h : Ring st first chunks) : st.aoDmaIndex < 16 := by
  rw [h.index]
  omega

theorem Ring.free (h : Ring st first chunks) (hlen : chunks.length ≤ 15) :
    st.waiting st.aoDmaIndex = false := by
  rw [Bool.eq_false_iff]
  intro hw
  obtain ⟨i, hi, he⟩ := (h.holds.waiting _ h.index_lt).mp hw
  rw [h.index] at he
  omega

/-- The state in which the bytes `c` have been loaded. -/
def loaded (st : Ao) (c : List Byte) : Ao :=
  spendCount
    { st with
      available := st.available.drop c.length
      consumed := st.consumed ++ c
      aoBuffer := Function.update st.aoBuffer st.aoDmaIndex
        (c ++ (st.aoBuffer st.aoDmaIndex).drop c.length)
      aoDmaDesc := chainDesc st.aoDmaDesc st.aoDmaIndex (prevAoDmaIndex st) c.length
      aoDmaIndex := (st.aoDmaIndex + 1) % aoDmaRingCount
      waiting := Function.update st.waiting st.aoDmaIndex true
      newest := some st.aoDmaIndex
      overwritten := st.overwritten || st.waiting st.aoDmaIndex } c.length

/-- A load takes the next bytes, or finds nothing to load. -/
theorem loadAoDmaBuffer_cases (hcmd : cmd.stopSrc = trigNone) (st : Ao) :
    loadAoDmaBuffer cmd st = (0, st) ∧ st.available.length < 2 ∨
    ∃ c, loadAoDmaBuffer cmd st = (c.length, loaded st c) ∧
      c.length = loadBytes cmd st ∧ 0 < c.length := by
  obtain ⟨hle, h4096, hshort⟩ := loadBytes_spec hcmd st
  unfold loadAoDmaBuffer
  by_cases hz : loadBytes cmd st = 0
  · refine .inl ⟨?_, by omega⟩
    simp only [hz, if_true]
  · have hclen : (st.available.take (loadBytes cmd st)).length = loadBytes cmd st := by
      rw [List.length_take]
      omega
    refine .inr ⟨st.available.take (loadBytes cmd st), ?_, hclen, by omega⟩
    simp only [hz, if_false, loaded, cfcReadArrayFromBuffer, hclen]

theorem loaded_index (h : Ring st first chunks) (c : List Byte) :
    (loaded st c).aoDmaIndex = (first + (chunks ++ [c]).length) % 16 := by
  have hi : (loaded st c).aoDmaIndex = (st.aoDmaIndex + 1) % 16 := rfl
  rw [hi, h.index, List.length_append, List.length_singleton]
  omega

theorem loaded_prev (h : Ring st first chunks) (c : List Byte) :
    prevAoDmaIndex (loaded st c) = st.aoDmaIndex := by
  have hi : (loaded st c).aoDmaIndex = (st.aoDmaIndex + 1) % 16 := rfl
  have hidx := h.index_lt
  rw [prev_eq (by rw [hi]; omega), hi]
  omega

/-- The end of the chain moves to the buffer that is loaded. -/
theorem loaded_end (h : Ring st first chunks) (hm : Marked st) (c : List Byte) {k : Nat}
    (hk : k < 16) : ((loaded st c).aoDmaDesc k).endOfChain = true ↔ k = st.aoDmaIndex := by
  have hidx := h.index_lt
  have hne : st.aoDmaIndex ≠ prevAoDmaIndex st := by
    rw [prev_eq hidx]
    omega
  have he : ((loaded st c).aoDmaDesc k).endOfChain = _ := chainDesc_end st.aoDmaDesc hne c.length k
  rw [he]
  constructor
  · intro ht
    split at ht
    · assumption
    · next hi =>
      split at ht
      · cases ht
      · next hp => exact absurd ((hm k hk ht).resolve_left hi) hp
  · intro hi
    rw [if_pos hi]

theorem loaded_holds (h : Ring st first chunks) (hlen : chunks.length ≤ 15) (c : List Byte) :
    Holds (loaded st c) first (chunks ++ [c]) := by
  have hsize : ∀ k, ((loaded st c).aoDmaDesc k).transferSize = _ :=
    chainDesc_size st.aoDmaDesc st.aoDmaIndex (prevAoDmaIndex st) c.length
  have hbuf : (loaded st c).aoBuffer = Function.update st.aoBuffer st.aoDmaIndex
    (c ++ (st.aoBuffer st.aoDmaIndex).drop c.length) := rfl
  have hwait : (loaded st c).waiting = Function.update st.waiting st.aoDmaIndex true := rfl
  have hidx := h.index
  refine ⟨?_, ?_, ?_⟩
  · rw [List.length_append, List.length_singleton]
    omega
  · intro i x hx
    rw [hsize, hbuf]
    by_cases hi : i < chunks.length
    · have hne : (first + i) % 16 ≠ st.aoDmaIndex := by
        rw [hidx]
        omega
      rw [List.getElem?_append_left hi] at hx
      rw [if_neg hne, Function.update_of_ne hne]
      exact h.holds.held i x hx
    · have hic : i = chunks.length := by
        have := (List.getElem?_eq_some_iff.mp hx).1
        rw [List.length_append, List.length_singleton] at this
        omega
      subst hic
      have hxc : x = c := by simpa using hx.symm
      rw [hxc, ← hidx, if_pos rfl, Function.update_self, List.take_left]
      exact ⟨rfl, rfl⟩
  · intro k hk
    rw [hwait, List.length_append, List.length_singleton]
    by_cases he : k = st.aoDmaIndex
    · rw [he, Function.update_self]
      exact ⟨fun _ => ⟨chunks.length, by omega, hidx.symm⟩, fun _ => rfl⟩
    · rw [Function.update_of_ne he, h.holds.waiting k hk]
      constructor
      · rintro ⟨i, hi, hk⟩
        exact ⟨i, by omega, hk⟩
      · rintro ⟨i, hi, hk⟩
        refine ⟨i, ?_, hk⟩
        rw [hidx] at he
        have hne : i ≠ chunks.length := fun hic => he (by rw [← hk, hic])
        omega

/-- A load puts one more chunk at the end of the ring. -/
theorem ring_loaded (h : Ring st first chunks) (hlen : chunks.length ≤ 15) (hm : Marked st)
    (c : List Byte) : Ring (loaded st c) first (chunks ++ [c]) := by
  refine ⟨loaded_holds h hlen c, loaded_index h c, ?_, ?_, ?_, fun _ => nofun⟩
  · show st.consumed ++ c = st.fifo ++ st.sent ++ (chunks ++ [c]).flatten
    rw [h.consumed, List.flatten_append, List.flatten_singleton, List.append_assoc]
  · show (st.overwritten || st.waiting st.aoDmaIndex) = false
    rw [h.kept, h.free hlen]
    rfl
  · intro n hn
    have hn' : some st.aoDmaIndex = some n := hn
    cases hn'
    exact ⟨(loaded_prev h c).symm, fun k hk => loaded_end h hm c hk⟩

/-- The parts of the state that the channel leaves alone. -/
structure SameHost (st st' : Ao) : Prop where
  index : st'.aoDmaIndex = st.aoDmaIndex
  desc : st'.aoDmaDesc = st.aoDmaDesc
  available : st'.available = st.available
  newest : st'.newest = st.newest
  inttrig : st'.inttrig = st.inttrig
  consumed : st'.consumed = st.consumed
  fifo : st'.fifo = st.fifo

theorem SameHost.refl (st : Ao) : SameHost st st := ⟨rfl, rfl, rfl, rfl, rfl, rfl, rfl⟩

theorem SameHost.trans {s₁ s₂ s₃ : Ao} (h : SameHost s₁ s₂) (h' : SameHost s₂ s₃) :
    SameHost s₁ s₃ :=
  ⟨h'.1.trans h.1, h'.2.trans h.2, h'.3.trans h.3, h'.4.trans h.4, h'.5.trans h.5,
    h'.6.trans h.6, h'.7.trans h.7⟩

theorem Ring.with_dma (h : Ring st first chunks) (d : Channel) :
    Ring { st with dma := d } first chunks :=
  ⟨⟨h.holds.length_le, h.holds.held, h.holds.waiting⟩, h.index, h.consumed, h.kept, h.newest,
    h.loaded⟩

def Walking (st : Ao) (first : Nat) (chunks : List (List Byte)) : Prop :=
  Ring st first chunks ∧ Walks st.dma first chunks

/-- The channel starts on the first chunk that waits. -/
theorem fetch_walks (h : Ring st first chunks) (hne : chunks ≠ []) (hs : st.dma.started = true)
    (hd : st.dma.done = false) (hn : st.dma.next = first % 16) :
    Walking st.fetch first chunks := by
  refine ⟨h.with_dma _, ?_⟩
  obtain ⟨x, rest, rfl⟩ := List.exists_cons_of_ne_nil hne
  obtain ⟨n, hnew⟩ := Option.ne_none_iff_exists'.mp (h.loaded hne)
  obtain ⟨hp, hm⟩ := h.newest n hnew
  have hidx := h.index
  rw [prev_eq h.index_lt] at hp
  refine ⟨fun hc => ?_, fun _ hc => ?_, fun _ _ => ⟨hn, ?_, ⟨x, rfl, ?_⟩, fun he => ?_⟩⟩
  · rw [show st.fetch.dma.started = st.dma.started from rfl, hs] at hc
    cases hc
  · rw [show st.fetch.dma.done = st.dma.done from rfl, hd] at hc
    cases hc
  · show (st.dma.next + 1) % 16 = _
    omega
  · show (st.aoDmaDesc st.dma.next).transferSize = x.length
    have := (h.holds.held 0 x rfl).1
    rw [hn]
    exact this
  · have hf : (st.aoDmaDesc st.dma.next).endOfChain = false := he
    by_contra hlen
    rw [List.length_cons] at hlen hidx
    have hk : st.dma.next = n := by
      rw [hp, hidx, hn]
      omega
    rw [(hm _ (by omega)).mpr hk] at hf
    cases hf

theorem advance_host (st : Ao) : SameHost st st.advance := by
  unfold Ao.advance
  split
  · extract_lets s
    split <;> exact ⟨rfl, rfl, rfl, rfl, rfl, rfl, rfl⟩
  · exact .refl st

/-- The channel delivers the first chunk. -/
theorem ring_sent {x : List Byte} (h : Ring st first (x :: chunks))
    (hcur : st.dma.current = first % 16) (hsize : st.dma.fetched.transferSize = x.length) :
    Ring
      { st with
        sent := st.sent ++ (st.aoBuffer st.dma.current).take st.dma.fetched.transferSize
        waiting := Function.update st.waiting st.dma.current false } (first + 1) chunks := by
  have hlen := h.holds.length_le
  have hbuf : (st.aoBuffer st.dma.current).take st.dma.fetched.transferSize = x := by
    have := (h.holds.held 0 x rfl).2
    rw [hcur, hsize]
    exact this
  rw [List.length_cons] at hlen
  refine ⟨⟨by omega, fun i c hc => ?_, fun k hk => ?_⟩, ?_, ?_, h.kept, h.newest,
    fun _ => h.loaded (by simp)⟩
  · have := h.holds.held (i + 1) c (by simpa using hc)
    rwa [← Nat.add_assoc, Nat.add_right_comm] at this
  · show Function.update st.waiting st.dma.current false k = true ↔ _
    rw [hcur]
    by_cases he : k = first % 16
    · rw [he, Function.update_self]
      refine ⟨(fun h => nomatch h), ?_⟩
      rintro ⟨i, hi, hk⟩
      omega
    · rw [Function.update_of_ne he, h.holds.waiting k hk, List.length_cons]
      constructor
      · rintro ⟨i, hi, hk⟩
        refine ⟨i - 1, ?_, ?_⟩
        · have : i ≠ 0 := fun h0 => he (by rw [← hk, h0, Nat.add_zero])
          omega
        · have : i ≠ 0 := fun h0 => he (by rw [← hk, h0, Nat.add_zero])
          rw [← hk]
          congr 1
          omega
      · rintro ⟨i, hi, hk⟩
        refine ⟨i + 1, by omega, ?_⟩
        rw [← hk]
        congr 1
        omega
  · show st.aoDmaIndex = _
    rw [h.index, List.length_cons]
    congr 1
    omega
  · show st.consumed = st.fifo ++ (st.sent ++ _) ++ chunks.flatten
    rw [h.consumed, hbuf, List.flatten_cons]
    simp only [List.append_assoc]

theorem advance_walks (h : Walking st first chunks) :
    ∃ first chunks, Walking st.advance first chunks := by
  unfold Ao.advance
  split
  · next hgo =>
    obtain ⟨hs, -, hd⟩ := hgo
    rw [Bool.not_eq_true] at hd
    obtain ⟨hcur, hnext, ⟨x, hx, hsize⟩, hlast⟩ := h.2.busy hs hd
    cases chunks with
    | nil => cases hx
    | cons y chunks =>
      cases hx
      have hring := ring_sent h.1 hcur hsize
      refine ⟨first + 1, chunks, ?_⟩
      extract_lets s
      split
      · next he =>
        refine ⟨hring.with_dma _, fun hc => ?_, fun _ _ => ⟨hnext, ?_, ?_⟩,
          fun _ hc => nomatch hc⟩
        · rw [show _ = st.dma.started from rfl, hs] at hc
          cases hc
        · show st.dma.current = _
          omega
        · have := h.1.holds.length_le
          rw [List.length_cons] at this
          omega
      · next he =>
        have hlen := hlast (Bool.eq_false_iff.mpr he)
        rw [List.length_cons] at hlen
        have hne : chunks ≠ [] := fun hc => by
          rw [hc] at hlen
          simp at hlen
        exact fetch_walks hring hne hs hd hnext
  · exact ⟨first, chunks, h⟩

theorem advances_walks (n : Nat) (h : Walking st first chunks) :
    ∃ first chunks, Walking (advances n st) first chunks := by
  induction n generalizing st first chunks with
  | zero => exact ⟨first, chunks, h⟩
  | succ n ih =>
    obtain ⟨f₁, c₁, h₁⟩ := advance_walks h
    exact ih h₁

theorem advances_host (n : Nat) (st : Ao) : SameHost st (advances n st) := by
  induction n generalizing st with
  | zero => exact .refl st
  | succ n ih => exact (advance_host st).trans (ih st.advance)

theorem advances_still (n : Nat) (h : st.dma.started = false ∨ st.dma.done = true) :
    advances n st = st := by
  induction n with
  | zero => rfl
  | succ n ih =>
    have hst : st.advance = st := by
      unfold Ao.advance
      refine if_neg fun hc => ?_
      obtain hs | hd := h
      · rw [hs] at hc
        exact absurd hc.1 (by decide)
      · exact hc.2.2 hd
    rw [advances, hst, ih]

theorem advance_started (st : Ao) : st.advance.dma.started = st.dma.started := by
  unfold Ao.advance
  split
  · extract_lets s
    split <;> rfl
  · rfl

theorem advances_started (n : Nat) (st : Ao) :
    (advances n st).dma.started = st.dma.started := by
  induction n generalizing st with
  | zero => rfl
  | succ n ih => rw [advances, ih, advance_started]

/-- The address register shows the buffer that the channel works on. -/
def InBuffer (b : AoBuffers) (st : Ao) (offset : Fin dmaBytes) : Prop :=
  pciAddress b st offset ≥ b.busAddr st.aoDmaIndex ∧
    pciAddress b st offset < b.busAddr st.aoDmaIndex + dmaBytes

theorem inBuffer_iff {offset : Fin dmaBytes} (hs : st.dma.started = true)
    (hcur : st.dma.current < 16) (hidx : st.aoDmaIndex < 16) :
    InBuffer b st offset ↔ st.dma.current = st.aoDmaIndex := by
  have hoff := offset.isLt
  unfold InBuffer pciAddress
  rw [if_pos hs]
  constructor
  · rintro ⟨hge, hlt⟩
    by_contra hne
    obtain h | h := b.apart _ _ hcur hidx hne <;> omega
  · intro he
    rw [he]
    omega

theorem not_inBuffer_idle {offset : Fin dmaBytes} (hs : st.dma.started = false) :
    ¬ InBuffer b st offset := by
  have := b.pos st.aoDmaIndex
  unfold InBuffer pciAddress
  rw [hs]
  simp only [Bool.false_eq_true, if_false]
  omega

theorem Walks.current_lt (h : Walks st.dma first chunks) (hs : st.dma.started = true) :
    st.dma.current < 16 := by
  cases hd : st.dma.done with
  | true =>
    rw [(h.stopped hs hd).2.1]
    omega
  | false =>
    rw [(h.busy hs hd).1]
    omega

/-- Where the next buffer is not the one that the channel works on, the ring has room. -/
theorem walks_room (h : Walking st first chunks) (hs : st.dma.started = true)
    (hne : st.dma.current ≠ st.aoDmaIndex) :
    chunks.length ≤ 15 ∧ (st.dma.done = true → chunks.length ≤ 14) := by
  have hlen := h.1.holds.length_le
  have hidx := h.1.index
  cases hd : st.dma.done with
  | true =>
    obtain ⟨-, hcur, h15⟩ := h.2.stopped hs hd
    refine ⟨h15, fun _ => ?_⟩
    by_contra hgt
    have : chunks.length = 15 := by omega
    rw [hcur, hidx, this] at hne
    exact hne rfl
  | false =>
    obtain ⟨hcur, -⟩ := h.2.busy hs hd
    refine ⟨?_, fun h => nomatch h⟩
    by_contra hgt
    have : chunks.length = 16 := by omega
    rw [hcur, hidx, this] at hne
    omega

theorem walks_append (h : Walks st.dma first chunks) (c : List Byte)
    (hlen : st.dma.done = true → chunks.length ≤ 14) :
    Walks st.dma first (chunks ++ [c]) := by
  refine ⟨h.idle, fun hs hd => ?_, fun hs hd => ?_⟩
  · obtain ⟨hn, hc, -⟩ := h.stopped hs hd
    have := hlen hd
    refine ⟨hn, hc, ?_⟩
    rw [List.length_append, List.length_singleton]
    omega
  · obtain ⟨hc, hn, ⟨x, hx, hsize⟩, hend⟩ := h.busy hs hd
    refine ⟨hc, hn, ⟨x, ?_, hsize⟩, fun he => ?_⟩
    · rw [List.getElem?_append_left (List.getElem?_eq_some_iff.mp hx).1]
      exact hx
    · have := hend he
      rw [List.length_append]
      omega

/-- A round of the loop: the guard or the lack of data ends it, or one more chunk is loaded. -/
theorem loadAoDma_cases (hcmd : cmd.stopSrc = trigNone) {g : Glance}
    (hok : loadAoDma b cmd st (g :: gs) = .ok st') :
    (InBuffer b (advances g.finished st) g.offset ∧ st' = advances g.finished st) ∨
    (¬ InBuffer b (advances g.finished st) g.offset ∧
      ((advances g.finished st).available.length < 2 ∧ st' = advances g.finished st ∨
      ∃ c, c.length = loadBytes cmd (advances g.finished st) ∧ 0 < c.length ∧
        (c.length < 4096 ∧ st' = loaded (advances g.finished st) c ∨
          c.length = 4096 ∧ loadAoDma b cmd (loaded (advances g.finished st) c) gs = .ok st'))) := by
  unfold loadAoDma at hok
  extract_lets s₁ addr at hok
  split at hok
  · next hin => exact .inl ⟨hin, (Except.ok.inj hok).symm⟩
  · next hout =>
    refine .inr ⟨hout, ?_⟩
    obtain ⟨he, hlt⟩ | ⟨c, he, hlen, hpos⟩ := loadAoDmaBuffer_cases hcmd s₁
    · rw [he] at hok
      exact .inl ⟨hlt, (Except.ok.inj hok).symm⟩
    · have hle := (loadBytes_spec hcmd s₁).2.1
      rw [he] at hok
      refine .inr ⟨c, hlen, hpos, ?_⟩
      simp only at hok
      split at hok
      · next hge =>
        unfold dmaBytes at hge
        exact .inr ⟨by omega, hok⟩
      · next hge =>
        unfold dmaBytes at hge
        exact .inl ⟨by omega, (Except.ok.inj hok).symm⟩

/-- While DMA runs, the loop keeps the ring in order. -/
theorem loop_walks (hcmd : cmd.stopSrc = trigNone) (h : Walking st first chunks)
    (hs : st.dma.started = true) (hn : st.newest ≠ none)
    (hok : loadAoDma b cmd st gs = .ok st') :
    (∃ first chunks, Walking st' first chunks) ∧ st'.dma.started = true ∧ st'.newest ≠ none ∧
      st'.inttrig = st.inttrig := by
  induction gs generalizing st first chunks with
  | nil => cases hok
  | cons g gs ih =>
    obtain ⟨f₁, c₁, h₁⟩ := advances_walks g.finished h
    have hsame := advances_host g.finished st
    have hs₁ : (advances g.finished st).dma.started = true := by rw [advances_started, hs]
    have hn₁ : (advances g.finished st).newest ≠ none := by rw [hsame.newest]; exact hn
    obtain ⟨-, rfl⟩ | ⟨hout, ⟨-, rfl⟩ | ⟨c, -, -, hc⟩⟩ := loadAoDma_cases hcmd hok
    · exact ⟨⟨f₁, c₁, h₁⟩, hs₁, hn₁, hsame.inttrig⟩
    · exact ⟨⟨f₁, c₁, h₁⟩, hs₁, hn₁, hsame.inttrig⟩
    · rw [inBuffer_iff hs₁ (h₁.2.current_lt hs₁) h₁.1.index_lt] at hout
      obtain ⟨hroom, hroom'⟩ := walks_room h₁ hs₁ hout
      have hl : Walking (loaded (advances g.finished st) c) f₁ (c₁ ++ [c]) :=
        ⟨ring_loaded h₁.1 hroom (h₁.1.marked hn₁) c, walks_append h₁.2 c hroom'⟩
      obtain ⟨-, rfl⟩ | ⟨-, hrest⟩ := hc
      · exact ⟨⟨_, _, hl⟩, hs₁, nofun, hsame.inttrig⟩
      · obtain ⟨hw, hst, hnew, ht⟩ := ih hl hs₁ nofun hrest
        exact ⟨hw, hst, hnew, ht.trans hsame.inttrig⟩

/-- At the end of the chain the channel stands still, and the loop finds nothing to load or
leaves a chunk for the restart. -/
theorem loop_done (hcmd : cmd.stopSrc = trigNone) (h : Walking st first chunks)
    (hs : st.dma.started = true) (hd : st.dma.done = true) (hn : st.newest ≠ none)
    (hok : loadAoDma b cmd st gs = .ok st') :
    st'.dma = st.dma ∧ st'.newest ≠ none ∧ st'.inttrig = st.inttrig ∧
      ∃ chunks', Walking st' first chunks' ∧
        (chunks' ≠ [] ∨ chunks = [] ∧ st' = st ∧ st.available.length < 2) := by
  induction gs generalizing st chunks with
  | nil => cases hok
  | cons g gs ih =>
    have hstill := advances_still g.finished (.inr hd)
    have hcases := loadAoDma_cases hcmd hok
    rw [hstill] at hcases
    rw [inBuffer_iff hs (h.2.current_lt hs) h.1.index_lt] at hcases
    obtain ⟨hin, rfl⟩ | ⟨hout, ⟨hlt, rfl⟩ | ⟨c, -, -, hc⟩⟩ := hcases
    · refine ⟨rfl, hn, rfl, chunks, h, .inl fun he => ?_⟩
      have hcur := (h.2.stopped hs hd).2.1
      have hidx := h.1.index
      rw [he, List.length_nil] at hidx
      omega
    · refine ⟨rfl, hn, rfl, chunks, h, ?_⟩
      by_cases he : chunks = []
      · exact .inr ⟨he, rfl, hlt⟩
      · exact .inl he
    · obtain ⟨hroom, hroom'⟩ := walks_room h hs hout
      have hl : Walking (loaded st c) first (chunks ++ [c]) :=
        ⟨ring_loaded h.1 hroom (h.1.marked hn) c, walks_append h.2 c hroom'⟩
      obtain ⟨-, rfl⟩ | ⟨-, hrest⟩ := hc
      · exact ⟨rfl, nofun, rfl, _, hl, .inl (by simp)⟩
      · obtain ⟨hdma, hnew, ht, ch, hw, hch⟩ := ih hl hs hd nofun hrest
        refine ⟨hdma, hnew, ht, ch, hw, .inl ?_⟩
        obtain hch | ⟨he, -⟩ := hch
        · exact hch
        · simp at he

/-- Before DMA runs nothing guards the ring: what is left to load has to fit into it. -/
theorem loop_idle (hcmd : cmd.stopSrc = trigNone) (h : Ring st first chunks)
    (hs : st.dma.started = false) (hn : st.newest ≠ none)
    (hroom : st.available.length ≤ (16 - chunks.length) * 4096 + 1)
    (hok : loadAoDma b cmd st gs = .ok st') :
    ∃ more, Ring st' first (chunks ++ more) ∧ st'.dma = st.dma ∧ st'.newest ≠ none ∧
      st'.inttrig = st.inttrig := by
  induction gs generalizing st chunks with
  | nil => cases hok
  | cons g gs ih =>
    have hstill := advances_still g.finished (.inl hs)
    have hcases := loadAoDma_cases hcmd hok
    rw [hstill] at hcases
    obtain ⟨hin, -⟩ | ⟨-, ⟨-, rfl⟩ | ⟨c, hlen, hpos, hc⟩⟩ := hcases
    · exact absurd hin (not_inBuffer_idle hs)
    · exact ⟨[], by rwa [List.append_nil], rfl, hn, rfl⟩
    · have hle := (loadBytes_spec hcmd st).1
      have h15 : chunks.length ≤ 15 := by
        by_contra hgt
        rw [loadBytes_eq hcmd] at hlen
        unfold dmaBytes bytesInSample at hlen
        omega
      have hl := ring_loaded h h15 (h.marked hn) c
      obtain ⟨-, rfl⟩ | ⟨h4096, hrest⟩ := hc
      · exact ⟨[c], hl, rfl, nofun, rfl⟩
      · have hav : (loaded st c).available.length ≤ (16 - (chunks ++ [c]).length) * 4096 + 1 := by
          show (st.available.drop c.length).length ≤ _
          rw [List.length_drop, List.length_append, List.length_singleton]
          omega
        obtain ⟨more, hm, hdma, hnew, ht⟩ := ih hl hs nofun hav hrest
        refine ⟨c :: more, ?_, hdma, hnew, ht⟩
        rwa [List.append_assoc, List.singleton_append] at hm

/-- The state before the internal trigger, or while and after DMA runs. -/
structure Inv (st : Ao) : Prop where
  walking : ∃ first chunks, Walking st first chunks
  running : st.dma.started = true → st.newest ≠ none ∧ st.inttrig = false
  fresh : st.dma.started = false → Ring st 0 [] ∧ st.sent = [] ∧ st.dma.next = 0
  enabled : st.dma.enabled = true → st.dma.started = true

theorem Inv.of_running (h : Walking st first chunks) (hs : st.dma.started = true)
    (hn : st.newest ≠ none) (ht : st.inttrig = false) : Inv st :=
  ⟨⟨first, chunks, h⟩, fun _ => ⟨hn, ht⟩,
    fun hc => absurd (hs.symm.trans hc) (by decide), fun _ => hs⟩

theorem Inv.of_fresh (h : Ring st 0 []) (hs : st.dma.started = false) (hsent : st.sent = [])
    (hn : st.dma.next = 0) (he : st.dma.enabled = false) : Inv st := by
  refine ⟨⟨0, [], h, fun _ => hn, fun hc => ?_, fun hc => ?_⟩, fun hc => ?_,
    fun _ => ⟨h, hsent, hn⟩, fun hc => ?_⟩
  · rw [hs] at hc
    cases hc
  · rw [hs] at hc
    cases hc
  · rw [hs] at hc
    cases hc
  · rw [he] at hc
    cases hc

theorem Inv.lossless (h : Inv st) : Lossless st := by
  obtain ⟨first, chunks, hw⟩ := h.walking
  exact hw.1.lossless

theorem walking_enabled (h : Walking st first chunks) (e : Bool) :
    Walking { st with dma := { st.dma with enabled := e } } first chunks :=
  ⟨h.1.with_dma _, h.2.idle, h.2.stopped, h.2.busy⟩

theorem Inv.not_enabled (h : Inv st) : Inv (aoCancel st) := by
  obtain ⟨first, chunks, hw⟩ := h.walking
  refine ⟨⟨first, chunks, walking_enabled hw false⟩, h.running, fun hs => ?_,
    (fun hc => nomatch hc)⟩
  obtain ⟨hr, hsent, hn⟩ := h.fresh hs
  exact ⟨hr.with_dma _, hsent, hn⟩

theorem start_walks (h : Ring st first chunks) (hne : chunks ≠ [])
    (hn : st.dma.next = first % 16) : Walking (dmaStartSync st) first chunks :=
  fetch_walks (h.with_dma _) hne rfl rfl hn

theorem preload_ring (hcmd : cmd.stopSrc = trigNone) (h : Ring st 0 []) (hsent : st.sent = [])
    (hc : st.consumed = []) (heven : 2 ∣ st.available.length ∨ dacFifoSize ≤ st.available.length) :
    Ring (preloadFifo cmd st) 0 [] ∧
      (preloadFifo cmd st).available = st.available.drop 0x2000 := by
  have hne : trigNone ≠ trigCount := by decide
  unfold preloadFifo
  extract_lets s n₀ n₁
  have hn₁ : n₁ = 0x2000 := if_neg (fun h => hne (hcmd ▸ h.1))
  refine ⟨⟨⟨h.holds.length_le, h.holds.held, h.holds.waiting⟩, h.index, ?_, h.kept, h.newest,
    h.loaded⟩, by rw [hn₁]; rfl⟩
  have hlen : (st.available.take n₁).length / bytesInSample * bytesInSample =
      (st.available.take n₁).length := by
    rw [List.length_take, hn₁]
    unfold bytesInSample dacFifoSize at *
    omega
  show st.consumed ++ st.available.take n₁ =
    (st.available.take n₁).take ((st.available.take n₁).length / bytesInSample * bytesInSample) ++
      st.sent ++ []
  rw [hc, hsent, hlen, List.take_length, List.append_nil, List.append_nil, List.nil_append]

theorem trigger_inv (hcmd : cmd.stopSrc = trigNone) (h : Inv st) {trigNum : U32}
    (hfit : Fits st (.trigger trigNum gs)) (hok : aoInttrig b cmd st trigNum gs = .ok st') :
    Inv st' := by
  unfold aoInttrig at hok
  split at hok
  · next hgo =>
    obtain ⟨hc, heven, hmax, hclean⟩ := hfit hgo
    have hs : st.dma.started = false := by
      by_contra hs
      have := (h.running (Bool.not_eq_false _ ▸ hs)).2
      rw [hgo.1] at this
      cases this
    have he : st.dma.enabled = false := by
      by_contra he
      have := h.enabled (Bool.not_eq_false _ ▸ he)
      rw [hs] at this
      cases this
    obtain ⟨hring, hsent, hnext⟩ := h.fresh hs
    obtain ⟨hr, hav⟩ := preload_ring hcmd hring hsent hc heven
    obtain ⟨⟨ok, s⟩, hprep, hret⟩ := bind_eq_ok hok
    have hdma₁ : (preloadFifo cmd st).dma = st.dma := rfl
    have hdesc : (preloadFifo cmd st).aoDmaDesc = st.aoDmaDesc := rfl
    have hsent₁ : (preloadFifo cmd st).sent = [] := hsent
    unfold prepAoDma at hprep
    generalize preloadFifo cmd st = s₁ at *
    have hne : trigNone ≠ trigCount := by decide
    rw [if_neg (fun h => hne (hcmd ▸ h.1))] at hprep
    obtain ⟨hl, -⟩ | ⟨c, hl, hclen, hpos⟩ := loadAoDmaBuffer_cases hcmd s₁
    · rw [hl] at hprep
      cases hprep
      cases hret
      exact .of_fresh hr (hdma₁ ▸ hs) hsent₁ (hdma₁ ▸ hnext) (hdma₁ ▸ he)
    · have hle := (loadBytes_spec hcmd s₁).1
      rw [hl] at hprep
      simp only [hpos.ne', if_false] at hprep
      obtain ⟨s₂, hloop, hpret⟩ := bind_eq_ok hprep
      cases hpret
      cases hret
      have havail : s₁.available.length = st.available.length - 0x2000 := by
        rw [hav, List.length_drop]
      have hbytes := hclen
      rw [loadBytes_eq hcmd] at hbytes
      unfold dmaBytes bytesInSample at hbytes
      have hmarked : Marked s₁ := by
        intro k hk hend
        rw [hdesc] at hend
        have hidx : s₁.aoDmaIndex = 0 := hr.index
        rw [prev_eq hr.index_lt, hidx]
        exact hclean (by unfold dacFifoSize bytesInSample; omega) k hk hend
      have hload := ring_loaded hr (by simp) hmarked c
      unfold dacFifoSize aoDmaRingCount dmaBytes at hmax
      have hroom : (loaded s₁ c).available.length ≤ (16 - ([] ++ [c]).length) * 4096 + 1 := by
        show (s₁.available.drop c.length).length ≤ _
        rw [List.length_drop]
        simp only [List.nil_append, List.length_singleton]
        omega
      obtain ⟨more, hm, hdma, hnew, -⟩ := loop_idle hcmd hload (hdma₁ ▸ hs) nofun hroom hloop
      have hw := start_walks hm (by simp) (by rw [hdma]; show s₁.dma.next = _; rw [hdma₁, hnext])
      exact .of_running ⟨⟨⟨hw.1.holds.length_le, hw.1.holds.held, hw.1.holds.waiting⟩,
        hw.1.index, hw.1.consumed, hw.1.kept, hw.1.newest, hw.1.loaded⟩, hw.2⟩ rfl hnew rfl
  · cases hok
    exact h

theorem exhausted_completed (h : Walking st first []) (hs : st.dma.started = true)
    (hd : st.dma.done = true) {offset : Fin dmaBytes} (ho : offset = ⟨0, by decide⟩) :
    lastAoDmaLoadCompleted b st offset = true := by
  have hcur := (h.2.stopped hs hd).2.1
  have hidx := h.1.index
  have hprev := prev_eq h.1.index_lt
  have he : st.dma.current = prevAoDmaIndex st := by
    rw [hprev, hidx, hcur, List.length_nil]
    omega
  unfold lastAoDmaLoadCompleted pciAddress
  rw [ho, if_pos hs, he]
  exact decide_eq_true ⟨hd, rfl⟩

theorem handleAoDma_inv (hcmd : cmd.stopSrc = trigNone) (h : Inv st) {i : AoInterrupt}
    (hfit : Fits st (.interrupt i)) (hok : handleAoDma b cmd st i = .ok st') : Inv st' := by
  unfold handleAoDma at hok
  split at hok
  · cases hok
    exact h
  · next hics =>
    by_cases he : st.dma.enabled = true
    · simp only [he, if_true] at hok
      obtain ⟨s, hloop, hret⟩ := bind_eq_ok hok
      cases hret
      have hs := h.enabled he
      obtain ⟨hn, ht⟩ := h.running hs
      obtain ⟨first, chunks, hw⟩ := h.walking
      have hw' := walking_enabled hw (true && !st.dma.done)
      cases hd : st.dma.done with
      | false =>
        simp only [Bool.false_eq_true, false_and, if_false]
        obtain ⟨⟨f, c, hw₂⟩, hs₂, hn₂, ht₂⟩ := loop_walks hcmd hw' hs hn hloop
        exact .of_running hw₂ hs₂ hn₂ (ht₂.trans ht)
      | true =>
        obtain ⟨hdma, hn₂, ht₂, ch, hw₂, hch⟩ := loop_done hcmd hw' hs hd hn hloop
        have hs₂ : s.dma.started = true := by rw [hdma]; exact hs
        have hd₂ : s.dma.done = true := by rw [hdma]; exact hd
        split
        · next hnot =>
          obtain hne | ⟨rfl, rfl, hlt⟩ := hch
          · have hr := start_walks (hw₂.1.with_dma { s.dma with started := false }) hne
              (hw₂.2.stopped hs₂ hd₂).1
            exact .of_running hr rfl hn₂ (ht₂.trans ht)
          · have hnone : ∀ k < 16, st.waiting k = false := by
              intro k hk
              rw [Bool.eq_false_iff]
              intro hwk
              obtain ⟨j, hj, -⟩ := (hw.1.holds.waiting k hk).mp hwk
              exact absurd hj (Nat.not_lt_zero j)
            have ho := hfit hics he ⟨hd, hnone, hlt⟩
            exact absurd (exhausted_completed hw' hs hd ho) hnot.2
        · exact .of_running hw₂ hs₂ hn₂ (ht₂.trans ht)
    · rw [Bool.not_eq_true] at he
      simp only [he, Bool.false_eq_true, if_false] at hok
      cases hok
      exact h.not_enabled

theorem step_inv (hcmd : cmd.stopSrc = trigNone) {x : AoStep} (h : Inv st) (hfit : Fits st x)
    (hok : aoStep b cmd st x = .ok st') : Inv st' := by
  cases x with
  | write bytes =>
    cases hok
    obtain ⟨first, chunks, hw⟩ := h.walking
    have hring : ∀ {f c}, Ring st f c → Ring { st with available := st.available ++ bytes } f c :=
      fun hr => ⟨⟨hr.holds.length_le, hr.holds.held, hr.holds.waiting⟩, hr.index, hr.consumed,
        hr.kept, hr.newest, hr.loaded⟩
    exact ⟨⟨first, chunks, hring hw.1, hw.2⟩, h.running,
      fun hs => ⟨hring (h.fresh hs).1, (h.fresh hs).2⟩, h.enabled⟩
  | trigger trigNum gs => exact trigger_inv hcmd h hfit hok
  | finish =>
    cases hok
    cases hs : st.dma.started with
    | true =>
      obtain ⟨hn, ht⟩ := h.running hs
      obtain ⟨first, chunks, hw⟩ := h.walking
      obtain ⟨f, c, hw'⟩ := advance_walks hw
      have hhost := advance_host st
      exact .of_running hw' ((advance_started st).trans hs) (hhost.newest ▸ hn)
        (hhost.inttrig.trans ht)
    | false =>
      have hst : advances 1 st = st := advances_still 1 (.inl hs)
      rw [advances, advances] at hst
      rwa [hst]
  | interrupt i =>
    obtain ⟨s, hs, hret⟩ := bind_eq_ok hok
    cases hret
    have hinv := handleAoDma_inv hcmd h hfit hs
    split
    · exact hinv.not_enabled
    · exact hinv
  | cancel =>
    cases hok
    have hc := h.not_enabled
    have hring : ∀ {f c}, Ring (aoCancel st) f c →
        Ring { aoCancel st with inttrig := false } f c :=
      fun hr => ⟨⟨hr.holds.length_le, hr.holds.held, hr.holds.waiting⟩, hr.index, hr.consumed,
        hr.kept, hr.newest, hr.loaded⟩
    obtain ⟨first, chunks, hw⟩ := hc.walking
    exact ⟨⟨first, chunks, hring hw.1, hw.2⟩, fun hs => ⟨(hc.running hs).1, rfl⟩,
      fun hs => ⟨hring (hc.fresh hs).1, (hc.fresh hs).2⟩, hc.enabled⟩

variable {desc : Nat → AoDesc} {buffer : Nat → List Byte} {fetched : AoDesc} {is : List AoStep}

theorem aoCmd_inv (cmd : Cmd) (desc : Nat → AoDesc) (buffer : Nat → List Byte) (fetched : AoDesc) :
    Inv (aoCmd cmd desc buffer fetched) := by
  refine .of_fresh ⟨⟨by decide, (fun i c hc => nomatch hc), fun k _ => ?_⟩, rfl, rfl, rfl,
    (fun n hn => nomatch hn), fun h => absurd rfl h⟩ rfl rfl rfl rfl
  refine ⟨(fun h => nomatch h), ?_⟩
  rintro ⟨i, hi, -⟩
  exact absurd hi (Nat.not_lt_zero i)

/-- In every state of a run whose triggers find as much as the fifo and the ring hold and whose
exhausted DMA stands at the start of its buffer, what was read from the comedi buffer has been
delivered or waits in its place in the ring. -/
theorem output_lossless (b : AoBuffers) (h : AoAccepted cmd)
    (hfit : AllFit (aoStep b cmd) Fits (aoCmd cmd desc buffer fetched) is)
    (hrun : run (aoStep b cmd) (aoCmd cmd desc buffer fetched) is = .ok st) : Lossless st := by
  have hinv : Inv st := run_keeps Inv (fun st x st' hi hf hok => step_inv h.1 hi hf hok)
    (aoCmd_inv cmd desc buffer fetched) hfit hrun
  exact hinv.lossless

/-- The loop ends after as many rounds as there are full buffers to load. -/
theorem loop_returns (hcmd : cmd.stopSrc = trigNone) (h : st.available.length < gs.length * 4096) :
    Returns (loadAoDma b cmd st gs) := by
  induction gs generalizing st with
  | nil =>
    rw [List.length_nil] at h
    omega
  | cons g gs ih =>
    rw [List.length_cons] at h
    have hav := (advances_host g.finished st).available
    unfold loadAoDma
    extract_lets s₁ addr
    split
    · exact returns_ok _
    · obtain ⟨he, -⟩ | ⟨c, he, hlen, -⟩ := loadAoDmaBuffer_cases hcmd s₁
      · rw [he]
        exact returns_ok _
      · rw [he]
        simp only
        split
        · next hge =>
          apply ih
          show (s₁.available.drop c.length).length < _
          have hle := (loadBytes_spec hcmd s₁).1
          have hs₁ : s₁.available = st.available := hav
          unfold dmaBytes at hge
          rw [hs₁] at hle
          rw [List.length_drop, hs₁]
          omega
        · exact returns_ok _

theorem trigger_returns (hcmd : cmd.stopSrc = trigNone) {trigNum : U32}
    (h : st.available.length < gs.length * 4096) :
    Returns (aoInttrig b cmd st trigNum gs) := by
  unfold aoInttrig
  split
  · refine Returns.bind ?_ fun r _ => returns_ok _
    have hne : trigNone ≠ trigCount := by decide
    have hav : (preloadFifo cmd st).available.length ≤ st.available.length := by
      show (st.available.drop _).length ≤ _
      rw [List.length_drop]
      omega
    unfold prepAoDma
    generalize preloadFifo cmd st = s₁ at *
    rw [if_neg (fun h => hne (hcmd ▸ h.1))]
    obtain ⟨he, -⟩ | ⟨c, he, hlen, hpos⟩ := loadAoDmaBuffer_cases hcmd s₁
    · rw [he]
      exact returns_ok _
    · rw [he]
      simp only [hpos.ne', if_false]
      refine Returns.bind (loop_returns hcmd ?_) fun r _ => returns_ok _
      show (s₁.available.drop c.length).length < _
      rw [List.length_drop]
      omega
  · exact returns_ok _

/-- Before DMA runs, `n` buffers have been loaded, round and round. -/
structure Loads (st : Ao) (n : Nat) : Prop where
  idle : st.dma.started = false
  index : st.aoDmaIndex = n % 16
  waiting : ∀ k < 16, st.waiting k = true ↔ k < n
  overwritten : 16 < n → st.overwritten = true

theorem loads_loaded (h : Loads st n) (c : List Byte) : Loads (loaded st c) (n + 1) := by
  refine ⟨h.idle, ?_, fun k hk => ?_, fun hn => ?_⟩
  · show (st.aoDmaIndex + 1) % 16 = _
    rw [h.index]
    omega
  · show Function.update st.waiting st.aoDmaIndex true k = true ↔ _
    rw [h.index]
    by_cases he : k = n % 16
    · rw [he, Function.update_self]
      exact ⟨fun _ => by omega, fun _ => rfl⟩
    · rw [Function.update_of_ne he, h.waiting k hk]
      omega
  · show (st.overwritten || st.waiting st.aoDmaIndex) = true
    by_cases hgt : 16 < n
    · rw [h.overwritten hgt, Bool.true_or]
    · have hn16 : n = 16 := by omega
      rw [(h.waiting st.aoDmaIndex (by rw [h.index]; omega)).mpr (by rw [h.index, hn16]; decide),
        Bool.or_true]

/-- The loop before the start loads everything that there is. -/
theorem loop_loads (hcmd : cmd.stopSrc = trigNone) (h : Loads st n)
    (hok : loadAoDma b cmd st gs = .ok st') :
    ∃ m, Loads st' m ∧ n * 4096 + st.available.length ≤ m * 4096 + 1 := by
  induction gs generalizing st n with
  | nil => cases hok
  | cons g gs ih =>
    have hcases := loadAoDma_cases hcmd hok
    rw [advances_still g.finished (.inl h.idle)] at hcases
    obtain ⟨hin, -⟩ | ⟨-, ⟨hlt, rfl⟩ | ⟨c, hlen, -, hc⟩⟩ := hcases
    · exact absurd hin (not_inBuffer_idle h.idle)
    · exact ⟨n, h, by omega⟩
    · have hshort := (loadBytes_spec hcmd st).2.2
      obtain ⟨hlt, rfl⟩ | ⟨h4096, hrest⟩ := hc
      · exact ⟨n + 1, loads_loaded h c, by omega⟩
      · obtain ⟨m, hm, hle⟩ := ih (loads_loaded h c) hrest
        have hav : (loaded st c).available.length = st.available.length - c.length := by
          show (st.available.drop c.length).length = _
          rw [List.length_drop]
        rw [hav, h4096, Nat.succ_mul] at hle
        have hfull : 4096 ≤ st.available.length := by
          rw [← h4096, hlen]
          exact (loadBytes_spec hcmd st).1
        refine ⟨m, hm, ?_⟩
        rw [Nat.add_assoc, Nat.add_sub_cancel' hfull] at hle
        exact hle

/-- A trigger that finds more than the fifo and the ring hold loads a buffer twice. -/
theorem trigger_overwrites (hcmd : cmd.stopSrc = trigNone) (h : Loads st 0)
    (ht : st.inttrig = true)
    (hlen : dacFifoSize + aoDmaRingCount * dmaBytes + 2 ≤ st.available.length)
    (hok : aoInttrig b cmd st 0 gs = .ok st') : st'.overwritten = true := by
  unfold aoInttrig at hok
  rw [if_pos ⟨ht, rfl⟩] at hok
  obtain ⟨⟨ok, s⟩, hprep, hret⟩ := bind_eq_ok hok
  have hl₁ : Loads (preloadFifo cmd st) 0 := ⟨h.idle, h.index, h.waiting, h.overwritten⟩
  have hne : trigNone ≠ trigCount := by decide
  have hav : (preloadFifo cmd st).available = st.available.drop 0x2000 := by
    unfold preloadFifo
    extract_lets s n₀ n₁
    have hn₁ : n₁ = 0x2000 := if_neg (fun h => hne (hcmd ▸ h.1))
    rw [hn₁]
    rfl
  have hlen₁ : 65538 ≤ (preloadFifo cmd st).available.length := by
    unfold dacFifoSize aoDmaRingCount dmaBytes at hlen
    rw [hav, List.length_drop]
    omega
  unfold prepAoDma at hprep
  generalize preloadFifo cmd st = s₁ at *
  rw [if_neg (fun h => hne (hcmd ▸ h.1))] at hprep
  obtain ⟨hl, hlt⟩ | ⟨c, hl, hclen, hpos⟩ := loadAoDmaBuffer_cases hcmd s₁
  · omega
  · have hle := (loadBytes_spec hcmd s₁).2.1
    rw [hl] at hprep
    simp only [hpos.ne', if_false] at hprep
    obtain ⟨s₂, hloop, hpret⟩ := bind_eq_ok hprep
    obtain ⟨m, hm, hmle⟩ := loop_loads hcmd (loads_loaded hl₁ c) hloop
    have hav₂ : (loaded s₁ c).available.length = s₁.available.length - c.length := by
      show (s₁.available.drop c.length).length = _
      rw [List.length_drop]
    have hgt : 16 < m := by omega
    cases hpret
    cases hret
    exact hm.overwritten hgt

def sixteenBuffers : AoBuffers where
  busAddr k := 0x100000 + k * 0x1000
  pos k := by omega
  apart j k _ _ hne := by
    unfold dmaBytes
    omega

def oneChannel : Cmd := { stopSrc := trigNone, chanlistLen := 1 }

def freshOutput : Ao := aoCmd oneChannel (fun _ => ⟨0, false⟩) (fun _ => []) ⟨0, false⟩

def rounds : List Glance := List.replicate 20 ⟨0, ⟨0, by decide⟩⟩

theorem output_lossless_sample :
    ∃ st, run (aoStep sixteenBuffers oneChannel) freshOutput
      [.write (List.replicate 0x2002 0), .trigger 0 rounds, .finish] = .ok st ∧ Lossless st := by
  have hlen : (List.replicate 0x2002 (0 : Byte)).length = 0x2002 := List.length_replicate
  obtain ⟨st, hst⟩ : Returns (aoInttrig sixteenBuffers oneChannel
      { freshOutput with available := List.replicate 0x2002 0 } 0 rounds) := by
    apply trigger_returns rfl
    rw [hlen]
    decide
  have hrun : run (aoStep sixteenBuffers oneChannel) freshOutput
      [.write (List.replicate 0x2002 0), .trigger 0 rounds, .finish] = .ok st.advance := by
    rw [run_cons_ok rfl]
    exact run_cons_ok hst
  refine ⟨st.advance, hrun, output_lossless sixteenBuffers ⟨rfl, by decide⟩ ?_ hrun⟩
  refine ⟨trivial, fun s hs => ?_⟩
  cases hs
  refine ⟨fun _ => ⟨rfl, .inl ?_, ?_, fun _ k _ hk => nomatch hk⟩, fun _ _ => ⟨trivial, ?_⟩⟩
  · show 2 ∣ (List.replicate 0x2002 (0 : Byte)).length
    rw [hlen]
    decide
  · show (List.replicate 0x2002 (0 : Byte)).length ≤ _
    rw [hlen]
    decide
  · exact fun _ _ => trivial

/-- With one buffer more than the fifo and the ring hold, the trigger goes round the ring and
loads the first buffer again before it is transferred. -/
theorem trigger_rounds_ring :
    ∃ st, run (aoStep sixteenBuffers oneChannel) freshOutput
      [.write (List.replicate 0x13000 0), .trigger 0 rounds] = .ok st ∧ AoAccepted oneChannel ∧
        st.overwritten = true ∧ ¬ Lossless st := by
  have hlen : (List.replicate 0x13000 (0 : Byte)).length = 0x13000 := List.length_replicate
  obtain ⟨st, hst⟩ : Returns (aoInttrig sixteenBuffers oneChannel
      { freshOutput with available := List.replicate 0x13000 0 } 0 rounds) := by
    apply trigger_returns rfl
    rw [hlen]
    decide
  have hover : st.overwritten = true := by
    refine trigger_overwrites rfl ⟨rfl, rfl, fun k _ => ?_, fun h => absurd h (by decide)⟩ rfl ?_
      hst
    · exact ⟨(fun h => nomatch h), fun h => absurd h (Nat.not_lt_zero k)⟩
    · show _ ≤ (List.replicate 0x13000 (0 : Byte)).length
      rw [hlen]
      decide
  refine ⟨st, ?_, ⟨rfl, by decide⟩, hover, fun h => ?_⟩
  · rw [run_cons_ok rfl]
    exact run_cons_ok hst
  · rw [h.kept] at hover
    cases hover

end Comedi.Pcidas64Output
