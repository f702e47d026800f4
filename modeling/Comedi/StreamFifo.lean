import Comedi.GuardedRuns
import Comedi.MungeStream
import Comedi.RingCopies
import Comedi.SampleStream

namespace Comedi.StreamFifo

open AsyncBuffer RingMarks SerialCounter RingCounters MungeBlocks MungeStream RingCopies SampleStream

/-- The buffer of a command, and what its producer and its consumer have seen of it: the
contents of the space that is allocated and not yet committed, the bytes committed, the bytes
taken out, and the copies made with the stream position each was made from. -/
structure Fifo where
  async : Async
  draft : List Byte := []
  committed : List Byte := []
  taken : List Byte := []
  fetched : List (Nat × List Byte) := []

inductive FifoStep where
  | writeAlloc (n : U32)
  | writeAllocStrict (n : U32)
  | memcpyTo (offset : U32) (data : List Byte)
  | writeFree (n : U32)
  | readAlloc (n : U32)
  | memcpyFrom (offset n : U32)
  | readFree (n : U32)

/-- The producer gets the `n` bytes of memory behind those it already has. -/
def Fifo.extend (st : Fifo) (n : U32) (a : Async) : Fifo :=
  { st with
    async := a
    draft := st.draft ++ window st.async.preallocBuf st.async.preallocBufsz.toNat
      (st.async.bufWritePtr.toNat + st.draft.length) n.toNat }

def fifoStep (s : Subdevice) (st : Fifo) : FifoStep → Result Fifo
  | .writeAlloc n =>
    let (m, a) := comediBufWriteAlloc st.async n
    .ok (st.extend m a)
  | .writeAllocStrict n =>
    let (m, a) := comediBufWriteAllocStrict st.async n
    .ok (st.extend m a)
  | .memcpyTo offset data => do
    let a ← comediBufMemcpyTo st.async offset data (.ofNat 32 data.length)
    return { st with
      async := a
      draft := st.draft.take offset.toNat ++ data ++ st.draft.drop (offset.toNat + data.length) }
  | .writeFree n => do
    let (m, a) ← comediBufWriteFree s st.async n
    return { st with
      async := a
      draft := st.draft.drop m.toNat
      committed := st.committed ++ st.draft.take m.toNat }
  | .readAlloc n => .ok { st with async := (comediBufReadAlloc st.async n).2 }
  | .memcpyFrom offset n => do
    let bytes ← comediBufMemcpyFrom st.async offset n
    return { st with fetched := st.fetched ++ [(st.taken.length + offset.toNat, bytes)] }
  | .readFree n => do
    let (m, a) ← comediBufReadFree st.async n
    let bytes ← comediBufMemcpyFrom st.async 0 m
    return { st with async := a, taken := st.taken ++ bytes }

def Fifo.start (a : Async) : Fifo where
  async := { comediResetAsyncBuf a with mungeCalls := [] }

/-- The sizes are not half the counter range beyond what is available, and the copies stay in
the parts of the buffer that belong to the one who copies. -/
def FifoFits (st : Fifo) : FifoStep → Prop
  | .writeAlloc n | .writeAllocStrict n =>
    n.toNat < 2 ^ 31 +
      (st.async.bufReadCount + st.async.preallocBufsz - st.async.bufWriteAllocCount).toNat
  | .memcpyTo offset data =>
    offset.toNat + data.length ≤ (st.async.bufWriteAllocCount - st.async.bufWriteCount).toNat
  | .writeFree n => n.toNat < 2 ^ 31 + (st.async.bufWriteAllocCount - st.async.bufWriteCount).toNat
  | .readAlloc n => n.toNat < 2 ^ 31 + (st.async.mungeCount - st.async.bufReadAllocCount).toNat
  | .memcpyFrom offset n =>
    offset.toNat + n.toNat ≤ (st.async.bufReadAllocCount - st.async.bufReadCount).toNat
  | .readFree n => n.toNat < 2 ^ 31 + (st.async.bufReadAllocCount - st.async.bufReadCount).toNat

/-- No size a step asks for is larger than the buffer, and the copies stay in the parts of
the buffer that belong to the one who copies. -/
def Asks (bufsz : Nat) (st : Fifo) : FifoStep → Prop
  | .writeAlloc n | .writeAllocStrict n | .writeFree n | .readAlloc n | .readFree n =>
    n.toNat ≤ bufsz
  | .memcpyTo offset data =>
    offset.toNat + data.length ≤ (st.async.bufWriteAllocCount - st.async.bufWriteCount).toNat
  | .memcpyFrom offset n =>
    offset.toNat + n.toNat ≤ (st.async.bufReadAllocCount - st.async.bufReadCount).toNat

instance (bufsz : Nat) (st : Fifo) (x : FifoStep) : Decidable (Asks bufsz st x) :=
  match x with
  | .writeAlloc _ | .writeAllocStrict _ | .writeFree _ | .readAlloc _ | .readFree _ => Nat.decLe _ _
  | .memcpyTo _ _ | .memcpyFrom _ _ => Nat.decLe _ _

theorem Asks.fits {bufsz : Nat} {st : Fifo} (hlt : bufsz < 2 ^ 31) {x : FifoStep} (h : Asks bufsz st x) :
    FifoFits st x := by
  cases x with
  | memcpyTo offset data => exact h
  | memcpyFrom offset n => exact h
  | _ n =>
    change n.toNat ≤ bufsz at h
    change n.toNat < 2 ^ 31 + _
    omega

variable {cap : Nat} {s : Subdevice} {a : Async} {μ : Marks cap}

/-- Counters, pointers and the state of munging are those of the stream positions `μ`. -/
structure Placed (s : Subdevice) (a : Async) (μ : Marks cap) : Prop where
  tracks : Tracks a μ
  sized : Sized s a
  mungePtr_lt : a.mungePtr < a.preallocBufsz
  writePtr : a.bufWritePtr.toNat = μ.written % cap
  readPtr : a.bufReadPtr.toNat = μ.read % cap
  ready : μ.ready = readyBytes s a μ.written
  munged : Munges s a → MungedTo s a μ.ready

theorem readyBytes_zero (s : Subdevice) (a : Async) : readyBytes s a 0 = 0 :=
  Nat.le_zero.mp (readyBytes_le s a 0)

theorem Placed.start (hz : Sized s a) :
    Placed s (Fifo.start a).async (Marks.start a.preallocBufsz.toNat) where
  tracks := ⟨rfl, rfl, rfl, rfl, rfl, rfl⟩
  sized := hz.congr rfl rfl
  mungePtr_lt := by
    rw [BitVec.lt_def]
    exact hz.pos
  writePtr := (Nat.zero_mod _).symm
  readPtr := (Nat.zero_mod _).symm
  ready := (readyBytes_zero _ _).symm
  munged hmu :=
    { ptr := (Nat.zero_mod _).symm
      chan := by
        change 0 = 0 / _ % _
        rw [Nat.zero_div, Nat.zero_mod]
      aligned := Nat.dvd_zero _
      covers := rfl }

namespace Placed

theorem cap_lt (h : Placed s a μ) : cap < 2 ^ 31 := h.tracks.bufsz ▸ h.sized.lt

theorem cap_pos (h : Placed s a μ) : 0 < cap := h.tracks.bufsz ▸ h.sized.pos

theorem mungeOk (h : Placed s a μ) : MungeOk s a := h.sized.mungeOk h.mungePtr_lt

theorem reserve (h : Placed s a μ) (n : Nat) :
    Placed s { a with bufWriteAllocCount := .ofNat 32 (μ.reserve n).writeAlloc } (μ.reserve n) :=
  ⟨h.tracks.reserve n, h.sized.congr rfl rfl, h.mungePtr_lt, h.writePtr, h.readPtr, h.ready,
    fun hmu => ⟨(h.munged hmu).ptr, (h.munged hmu).chan, (h.munged hmu).aligned,
      (h.munged hmu).covers⟩⟩

theorem acquire (h : Placed s a μ) (n : Nat) :
    Placed s { a with bufReadAllocCount := .ofNat 32 (μ.acquire n).readAlloc } (μ.acquire n) :=
  ⟨h.tracks.acquire n, h.sized.congr rfl rfl, h.mungePtr_lt, h.writePtr, h.readPtr, h.ready,
    fun hmu => ⟨(h.munged hmu).ptr, (h.munged hmu).chan, (h.munged hmu).aligned,
      (h.munged hmu).covers⟩⟩

theorem buf (h : Placed s a μ) (mem : Nat → Byte) : Placed s { a with preallocBuf := mem } μ :=
  ⟨⟨h.tracks.bufsz, h.tracks.readCount, h.tracks.readAllocCount, h.tracks.mungeCount,
      h.tracks.writeCount, h.tracks.writeAllocCount⟩,
    h.sized.congr rfl rfl, h.mungePtr_lt, h.writePtr, h.readPtr, h.ready,
    fun hmu => ⟨(h.munged hmu).ptr, (h.munged hmu).chan, (h.munged hmu).aligned,
      (h.munged hmu).covers⟩⟩

end Placed

/-- Moving a ring pointer on by at most the size of the ring. -/
theorem ptr_add {bufsz ptr : U32} {p k : Nat} (hsz : bufsz.toNat = cap) (hcap : 0 < cap)
    (hlt : cap < 2 ^ 31) (hptr : ptr.toNat = p % cap) (hk : k ≤ cap) :
    ((ptr + .ofNat 32 k) % bufsz).toNat = (p + k) % cap := by
  have hp : p % cap < cap := Nat.mod_lt _ hcap
  rw [BitVec.toNat_umod, BitVec.toNat_add, toNat_ofNat_of_lt (by omega), hptr,
    Nat.mod_eq_of_lt (a := p % cap + k) (by omega), hsz, Nat.mod_add_mod]

theorem Placed.release (h : Placed s a μ) (n : Nat) :
    Placed s { a with
      bufReadCount := .ofNat 32 (μ.release n).read
      bufReadPtr := (a.bufReadPtr + .ofNat 32 (min n (μ.readAlloc - μ.read))) % a.preallocBufsz }
      (μ.release n) := by
  have hc := μ.chain
  refine ⟨h.tracks.release n _, h.sized.congr rfl rfl, h.mungePtr_lt, h.writePtr, ?_, h.ready, ?_⟩
  · exact ptr_add h.tracks.bufsz h.cap_pos h.cap_lt h.readPtr (by omega)
  · exact fun hmu => ⟨(h.munged hmu).ptr, (h.munged hmu).chan, (h.munged hmu).aligned,
      (h.munged hmu).covers⟩

theorem readyBytes_congr {a' : Async} (h : a'.cmd = a.cmd) (n : Nat) :
    readyBytes s a' n = readyBytes s a n := by
  unfold readyBytes
  rw [h]

theorem munges_congr {a' : Async} (h : a'.cmd = a.cmd) : Munges s a' ↔ Munges s a := by
  unfold Munges
  rw [h]

theorem wholeBytes_sub {r w : Nat} (hr : (bytesPerSample s).toNat ∣ r) (hle : r ≤ w) :
    r + wholeBytes s (w - r) = wholeBytes s w := by
  obtain ⟨d, rfl⟩ := Nat.exists_eq_add_of_le hle
  obtain ⟨k, rfl⟩ := hr
  have := Nat.mod_le d (bytesPerSample s).toNat
  simp only [wholeBytes, Nat.add_sub_cancel_left, Nat.mul_add_mod]
  omega

/-- What becomes readable in pieces is what becomes readable at once. -/
theorem readyBytes_sub {w w' : Nat} (hle : readyBytes s a w ≤ w') :
    readyBytes s a w + readyBytes s a (w' - readyBytes s a w) = readyBytes s a w' := by
  by_cases hmu : Munges s a
  · simp only [readyBytes_of_munges hmu] at hle ⊢
    exact wholeBytes_sub (dvd_wholeBytes s w) hle
  · simp only [readyBytes_of_not_munges hmu] at hle ⊢
    omega

theorem writeFreed_cmd (s : Subdevice) (a : Async) (μ : Marks cap) (n : Nat) :
    (writeFreed s a μ n).cmd = a.cmd :=
  advanceMunge_proj (·.cmd) (fun _ _ _ _ _ _ => rfl) s _ _

theorem writeFreed_bufsz (s : Subdevice) (a : Async) (μ : Marks cap) (n : Nat) :
    (writeFreed s a μ n).preallocBufsz = a.preallocBufsz :=
  advanceMunge_proj (·.preallocBufsz) (fun _ _ _ _ _ _ => rfl) s _ _

theorem writeFreed_readPtr (s : Subdevice) (a : Async) (μ : Marks cap) (n : Nat) :
    (writeFreed s a μ n).bufReadPtr = a.bufReadPtr :=
  advanceMunge_proj (·.bufReadPtr) (fun _ _ _ _ _ _ => rfl) s _ _

theorem Placed.writeFreed (h : Placed s a μ) (n : Nat) :
    Placed s (writeFreed s a μ n) (writeFreedMarks s a μ n) := by
  have hc := μ.chain
  have hcmd := writeFreed_cmd s a μ n
  have hsz := writeFreed_bufsz s a μ n
  have hw : (μ.commit n).written = μ.written + min n (μ.writeAlloc - μ.written) := rfl
  have hready := writeFreedMarks_ready s a μ n
  refine ⟨tracks_writeFreed h.tracks h.mungeOk n, h.sized.congr hsz hcmd,
    (h.mungeOk.writeFreed μ n).ptr_lt, ?_, ?_, ?_, ?_⟩
  · exact ptr_add h.tracks.bufsz h.cap_pos h.cap_lt h.writePtr (by omega)
  · rw [writeFreed_readPtr]
    exact h.readPtr
  · have hle : readyBytes s a μ.written ≤ (μ.commit n).written := by
      have := readyBytes_le s a μ.written
      omega
    rw [hready, readyBytes_congr hcmd, h.ready]
    exact readyBytes_sub hle
  · intro hmu
    have hmu' : Munges s a := (munges_congr hcmd).mp hmu
    let a₁ : Async := { a with
      bufWriteCount := .ofNat 32 (μ.written + min n (μ.writeAlloc - μ.written))
      bufWritePtr := a.bufWritePtr + .ofNat 32 (min n (μ.writeAlloc - μ.written)) }
    have hm := h.munged hmu'
    have ha := advanceMunge_munged (a := a₁) (h.sized.congr rfl rfl) hmu'
      ⟨hm.ptr, hm.chan, hm.aligned, hm.covers⟩ (n := (μ.commit n).written - μ.ready) (by
        change _ ≤ a.preallocBufsz.toNat
        rw [h.tracks.bufsz]
        omega)
    rw [hready, readyBytes_of_munges hmu']
    exact ⟨ha.ptr, ha.chan, ha.aligned, ha.covers⟩

/-- Everything a step that fits can do. -/
inductive Moves (s : Subdevice) (st : Fifo) (μ : Marks cap) : Fifo → Marks cap → Prop where
  | stay : Moves s st μ st μ
  | reserve (n : Nat) :
    Moves s st μ
      { st with
        async := { st.async with bufWriteAllocCount := .ofNat 32 (μ.reserve n).writeAlloc }
        draft := st.draft ++ window st.async.preallocBuf cap μ.writeAlloc (min n μ.room) }
      (μ.reserve n)
  | store (off : Nat) (data : List Byte) (h : off + data.length ≤ μ.writeAlloc - μ.written) :
    Moves s st μ
      { st with
        async := { st.async with
          preallocBuf := put st.async.preallocBuf cap (μ.written + off) data }
        draft := st.draft.take off ++ data ++ st.draft.drop (off + data.length) }
      μ
  | commit (n : Nat) :
    Moves s st μ
      { st with
        async := writeFreed s st.async μ n
        draft := st.draft.drop (min n (μ.writeAlloc - μ.written))
        committed := st.committed ++ st.draft.take (min n (μ.writeAlloc - μ.written)) }
      (writeFreedMarks s st.async μ n)
  | acquire (n : Nat) :
    Moves s st μ
      { st with
        async := { st.async with bufReadAllocCount := .ofNat 32 (μ.acquire n).readAlloc } }
      (μ.acquire n)
  | fetch (off n : Nat) (h : off + n ≤ μ.readAlloc - μ.read) :
    Moves s st μ
      { st with
        fetched := st.fetched ++
          [(st.taken.length + off, window st.async.preallocBuf cap (μ.read + off) n)] }
      μ
  | release (n : Nat) :
    Moves s st μ
      { st with
        async := { st.async with
          bufReadCount := .ofNat 32 (μ.release n).read
          bufReadPtr := (st.async.bufReadPtr + .ofNat 32 (min n (μ.readAlloc - μ.read))) %
            st.async.preallocBufsz }
        taken := st.taken ++
          window st.async.preallocBuf cap μ.read (min n (μ.readAlloc - μ.read)) }
      (μ.release n)

/-- The lists are as long as the stream positions say. -/
structure Laid (s : Subdevice) (st : Fifo) (μ : Marks cap) : Prop where
  placed : Placed s st.async μ
  draft_length : st.draft.length = μ.writeAlloc - μ.written
  committed_length : st.committed.length = μ.written
  taken_length : st.taken.length = μ.read

variable {st : Fifo}

theorem Laid.start (hz : Sized s a) : Laid s (Fifo.start a) (Marks.start a.preallocBufsz.toNat) :=
  ⟨.start hz, rfl, rfl, rfl⟩

/-- The memory behind the draft, in stream positions. -/
theorem Laid.extend_draft (h : Laid s st μ) (m : Nat) :
    window st.async.preallocBuf st.async.preallocBufsz.toNat
      (st.async.bufWritePtr.toNat + st.draft.length) m =
      window st.async.preallocBuf cap μ.writeAlloc m := by
  have hw := μ.written_le
  apply List.map_congr_left
  intro j _
  rw [h.placed.tracks.bufsz, h.placed.writePtr, h.draft_length, Nat.add_assoc, Nat.mod_add_mod,
    ← Nat.add_assoc, Nat.add_sub_cancel' hw]

theorem Laid.moves {st' : Fifo} {μ' : Marks cap} (h : Laid s st μ) (hm : Moves s st μ st' μ') :
    Laid s st' μ' := by
  have hc := μ.chain
  have hd := h.draft_length
  have hcl := h.committed_length
  have htl := h.taken_length
  cases hm with
  | stay => exact h
  | reserve n =>
    refine ⟨h.placed.reserve n, ?_, h.committed_length, h.taken_length⟩
    simp only [List.length_append, window_length, Marks.reserve]
    omega
  | store off data hfit =>
    refine ⟨h.placed.buf _, ?_, h.committed_length, h.taken_length⟩
    simp only [List.length_append, List.length_take, List.length_drop]
    omega
  | commit n =>
    refine ⟨h.placed.writeFreed n, ?_, ?_, h.taken_length⟩
    · simp only [List.length_drop, writeFreedMarks, Marks.mature, Marks.commit]
      omega
    · simp only [List.length_append, List.length_take, writeFreedMarks, Marks.mature, Marks.commit]
      omega
  | acquire n => exact ⟨h.placed.acquire n, h.draft_length, h.committed_length, h.taken_length⟩
  | fetch off n hfit => exact ⟨h.placed, h.draft_length, h.committed_length, h.taken_length⟩
  | release n =>
    refine ⟨h.placed.release n, h.draft_length, h.committed_length, ?_⟩
    simp only [List.length_append, window_length, Marks.release]
    omega

theorem fifoStep_moves (h : Laid s st μ) {x : FifoStep} (hfit : FifoFits st x) :
    ∃ st' μ', fifoStep s st x = .ok st' ∧ Moves s st μ st' μ' := by
  have hc := μ.chain
  have hp := h.placed
  have ht := hp.tracks
  have hsz := ht.bufsz
  have hlt := hp.cap_lt
  have hroom : (st.async.bufReadCount + st.async.preallocBufsz -
      st.async.bufWriteAllocCount).toNat = μ.room := by
    rw [ht.freeEnd, ht.writeAllocCount, toNat_ofNat_sub (by omega) (by omega)]
    rfl
  have hdraft : (st.async.bufWriteAllocCount - st.async.bufWriteCount).toNat =
      μ.writeAlloc - μ.written := by
    rw [ht.writeAllocCount, ht.writeCount, toNat_ofNat_sub (by omega) (by omega)]
  have hheld : (st.async.bufReadAllocCount - st.async.bufReadCount).toNat =
      μ.readAlloc - μ.read := by
    rw [ht.readAllocCount, ht.readCount, toNat_ofNat_sub (by omega) (by omega)]
  have hready : (st.async.mungeCount - st.async.bufReadAllocCount).toNat =
      μ.ready - μ.readAlloc := by
    rw [ht.mungeCount, ht.readAllocCount, toNat_ofNat_sub (by omega) (by omega)]
  have hroom_le := μ.room_le
  have hsmall : ∀ n m, m ≤ cap → (BitVec.ofNat 32 (min n m)).toNat = min n m :=
    fun n m hm => toNat_ofNat_of_lt (by omega)
  cases x with
  | writeAlloc n =>
    change n.toNat < _ at hfit
    rw [hroom] at hfit
    refine ⟨_, _, ?_, .reserve n.toNat⟩
    simp only [fifoStep, writeAlloc_spec hlt ht hfit, Fifo.extend, h.extend_draft, hsmall _ _ hroom_le]
  | writeAllocStrict n =>
    change n.toNat < _ at hfit
    rw [hroom] at hfit
    simp only [fifoStep, writeAllocStrict_spec hlt ht hfit]
    split
    · next hle =>
      refine ⟨_, _, ?_, .reserve n.toNat⟩
      simp only [Fifo.extend, h.extend_draft, Nat.min_eq_left hle]
    · refine ⟨st, μ, ?_, .stay⟩
      simp [Fifo.extend, window]
  | memcpyTo offset data =>
    change offset.toNat + data.length ≤ _ at hfit
    rw [hdraft] at hfit
    refine ⟨_, _, ?_, .store offset.toNat data hfit⟩
    rw [fifoStep, memcpyTo_spec hp.sized.pos hp.sized.lt (by rw [hsz]; exact hp.writePtr) (by omega), hsz]
    rfl
  | writeFree n =>
    change n.toNat < _ at hfit
    rw [hdraft] at hfit
    refine ⟨_, _, ?_, .commit n.toNat⟩
    rw [fifoStep, writeFree_spec hlt ht hp.mungeOk hfit]
    simp only [bind, Except.bind, hsmall _ _ (by omega : μ.writeAlloc - μ.written ≤ cap)]
    rfl
  | readAlloc n =>
    change n.toNat < _ at hfit
    rw [hready] at hfit
    refine ⟨_, _, ?_, .acquire n.toNat⟩
    rw [fifoStep, readAlloc_spec hlt ht hfit]
  | memcpyFrom offset n =>
    change offset.toNat + n.toNat ≤ _ at hfit
    rw [hheld] at hfit
    refine ⟨_, _, ?_, .fetch offset.toNat n.toNat hfit⟩
    rw [fifoStep, memcpyFrom_spec hp.sized.pos hp.sized.lt (by rw [hsz]; exact hp.readPtr) (by omega), hsz]
    rfl
  | readFree n =>
    change n.toNat < _ at hfit
    rw [hheld] at hfit
    have hm := hsmall n.toNat _ (by omega : μ.readAlloc - μ.read ≤ cap)
    refine ⟨_, _, ?_, .release n.toNat⟩
    rw [fifoStep, readFree_spec hlt ht hp.cap_pos hfit]
    simp only [bind, Except.bind]
    rw [memcpyFrom_spec hp.sized.pos hp.sized.lt (by rw [hsz]; exact hp.readPtr) (by
      rw [hm]
      have h0 : (0 : U32).toNat = 0 := rfl
      omega), hm, hsz]
    rfl

theorem Moves.cmd {st' : Fifo} {μ' : Marks cap} (h : Moves s st μ st' μ') :
    st'.async.cmd = st.async.cmd := by
  cases h with
  | commit n => exact writeFreed_cmd s st.async μ n
  | _ => rfl

theorem ofNat_wholeBytes (s : Subdevice) (n : Nat) :
    BitVec.ofNat 32 (wholeBytes s n) = .ofNat 32 n - .ofNat 32 n % bytesPerSample s := by
  have hdvd : (bytesPerSample s).toNat ∣ 2 ^ 32 := by
    rcases bytesPerSample_toNat s with h | h
    · exact ⟨2 ^ 30, by rw [h]; rfl⟩
    · exact ⟨2 ^ 31, by rw [h]; rfl⟩
  have hmod : BitVec.ofNat 32 n % bytesPerSample s = .ofNat 32 (n % (bytesPerSample s).toNat) := by
    apply BitVec.eq_of_toNat_eq
    have hlt := Nat.mod_lt n (bytesPerSample_pos s)
    have hsz := (bytesPerSample s).isLt
    rw [BitVec.toNat_umod, BitVec.toNat_ofNat, Nat.mod_mod_of_dvd _ hdvd,
      toNat_ofNat_of_lt (by omega)]
  rw [hmod, ofNat_sub_ofNat_of_le (Nat.mod_le _ _), wholeBytes]

/-- A run that fits goes on, and leaves the command alone. -/
theorem run_laid (hz : Sized s a) (steps : List FifoStep)
    (hfit : GuardedRuns.AllFit (fifoStep s) FifoFits (Fifo.start a) steps) :
    ∃ st, GuardedRuns.run (fifoStep s) (Fifo.start a) steps = .ok st ∧
      ∃ μ : Marks a.preallocBufsz.toNat, Laid s st μ ∧ st.async.cmd = a.cmd := by
  refine GuardedRuns.run_total
    (fun st => ∃ μ : Marks a.preallocBufsz.toNat, Laid s st μ ∧ st.async.cmd = a.cmd)
    ?_ ⟨_, .start hz, rfl⟩ hfit
  rintro st x ⟨μ, h, hcmd⟩ hx
  obtain ⟨st', μ', he, hm⟩ := fifoStep_moves h hx
  exact ⟨st', he, μ', h.moves hm, hm.cmd.trans hcmd⟩

/-- Every complete sample that is committed goes through `s->munge` exactly once, in blocks in
stream order, and the loop ends. -/
theorem munge_exactly_once (hz : Sized s a) (hmu : Munges s a) (steps : List FifoStep)
    (hfit : GuardedRuns.AllFit (fifoStep s) FifoFits (Fifo.start a) steps) :
    ∃ st, GuardedRuns.run (fifoStep s) (Fifo.start a) steps = .ok st ∧
      Covers a.preallocBufsz.toNat (bytesPerSample s).toNat a.cmd.chanlistLen.toNat
        0 st.async.mungeCalls (wholeBytes s st.committed.length) ∧
      st.async.bufWriteCount = .ofNat 32 st.committed.length ∧
      st.async.mungeCount = st.async.bufWriteCount - st.async.bufWriteCount % bytesPerSample s := by
  obtain ⟨st, he, μ, h, hcmd⟩ := run_laid hz steps hfit
  have hp := h.placed
  have hmu' : Munges s st.async := (munges_congr hcmd).mpr hmu
  have hready : μ.ready = wholeBytes s st.committed.length := by
    rw [hp.ready, readyBytes_of_munges hmu', h.committed_length]
  refine ⟨st, he, ?_, ?_, ?_⟩
  · have hcov := (hp.munged hmu').covers
    rwa [hp.tracks.bufsz, hcmd, hready] at hcov
  · rw [hp.tracks.writeCount, h.committed_length]
  · rw [hp.tracks.mungeCount, hp.tracks.writeCount, hready, h.committed_length, ofNat_wholeBytes]

/-- An input subdevice with 16-bit samples whose driver munges, and its buffer. -/
def munging : Subdevice where
  subdevFlags := sdfCmdRead
  lenChanlist := 16
  munge := some fun block _ => block

def twoChannels : Async where
  preallocBufsz := 4096
  cmd := { chanlistLen := 2 }

theorem twoChannels_sized : Sized munging twoChannels := by
  refine ⟨by decide, by decide, ⟨2048, rfl⟩, fun _ => ?_⟩
  decide

theorem munge_exactly_once_split :
    ∃ st, GuardedRuns.run (fifoStep munging) (Fifo.start twoChannels)
        [.writeAlloc 4096, .writeFree 4093, .writeFree 3, .readAlloc 4096, .readFree 4096,
          .writeAlloc 7, .writeFree 7] = .ok st ∧
      Covers 4096 2 2 0 st.async.mungeCalls (wholeBytes munging st.committed.length) ∧
      st.async.bufWriteCount = .ofNat 32 st.committed.length ∧
      st.async.mungeCount =
        st.async.bufWriteCount - st.async.bufWriteCount % bytesPerSample munging :=
  munge_exactly_once twoChannels_sized ⟨rfl, rfl⟩ _ (.of_forall (fun x hx st => by
    simp only [List.mem_cons, List.not_mem_nil, or_false] at hx
    rcases hx with rfl | rfl | rfl | rfl | rfl | rfl | rfl
    all_goals
      have hlt : 4096 < 2 ^ 31 := by decide
      refine Asks.fits hlt ?_
      change _ ≤ 4096
      decide) _)

/-- A count that the signed comparison misses is taken as it stands, and then not munged. -/
theorem writeFree_oversized :
    ∃ st, GuardedRuns.run (fifoStep munging) (Fifo.start twoChannels) [.writeFree 0x80000000] = .ok st ∧
      st.async.bufWriteCount = 0x80000000 ∧ st.async.mungeCount = 0 ∧ st.async.mungeCalls = [] :=
  ⟨_, rfl, rfl, rfl, rfl⟩

end Comedi.StreamFifo
