import Comedi.BitFlags
import Comedi.Fc
import Comedi.WriteSpecs

namespace Comedi.MiteSync

open AsyncBuffer RingMarks RingCounters MungeBlocks BufinfoOrder SerialCounter Fc WriteSpecs
open GuardedRuns

/-- The registers of a channel in the order in which `mite_sync_input_dma` reads them. The
hardware goes on between two reads. -/
structure MiteReads where
  darLb : U32
  fcrLb : U32
  fcrUb : U32
  darUb : U32

def miteBytesInTransit (fcr : U32) : U32 := fcr &&& 0x000000FF

def miteBytesWrittenToMemoryLb (r : MiteReads) : U32 :=
  let deviceByteCount := r.darLb
  deviceByteCount - miteBytesInTransit r.fcrLb

def miteBytesWrittenToMemoryUb (r : MiteReads) : U32 :=
  let inTransitCount := miteBytesInTransit r.fcrUb
  r.darUb - inTransitCount

/-- The end of `mite_sync_input_dma`, for the bytes it has committed. -/
def syncProgress (bytesPerScan : U32) (a : Async) (count : U32) : Result Async := do
  let a := { a with scanProgress := a.scanProgress + count }
  let a ←
    if bytesPerScan ≤ a.scanProgress then do
      let progress ← umod a.scanProgress bytesPerScan
      pure { a with scanProgress := progress, events := a.events ||| comediCbEos }
    else pure a
  return { a with events := a.events ||| comediCbBlock }

def miteSyncInputDma (s : Subdevice) (a : Async) (r : MiteReads) : Result (Int × Async) :=
  let bytesPerScan := cfcBytesPerScan s a
  let oldAllocCount := a.bufWriteAllocCount
  let (_, a) := comediBufWriteAlloc a a.preallocBufsz
  let nbytes := miteBytesWrittenToMemoryLb r
  if 0 < (miteBytesWrittenToMemoryUb r - oldAllocCount).toInt then
    .ok (-1, { a with events := a.events ||| comediCbOverflow })
  else
    let count := nbytes - a.bufWriteCount
    -- a conservative lower bound may lie behind what was committed before
    if count.toInt ≤ 0 then .ok (0, a)
    else do
      let (_, a) ← comediBufWriteFree s a count
      let a ← syncProgress bytesPerScan a count
      return (0, a)

/-- What a call finds: the true byte counts of the device at the two reads of its counter, the
two reads of the in-transit count, and the number of bytes that are in memory. -/
structure Reading where
  deviceLb : Nat
  fcrLb : U32
  fcrUb : U32
  deviceUb : Nat
  memory : Nat

namespace Reading

def registers (x : Reading) : MiteReads where
  darLb := .ofNat 32 x.deviceLb
  fcrLb := x.fcrLb
  fcrUb := x.fcrUb
  darUb := .ofNat 32 x.deviceUb

def lower (x : Reading) : Int := x.deviceLb - (miteBytesInTransit x.fcrLb).toNat

def upper (x : Reading) : Int := x.deviceUb - (miteBytesInTransit x.fcrUb).toNat

end Reading

/-- An acquisition by DMA. `device` and `memory` are the counts at the last call, `cells` are the
places in the buffer of all bytes committed so far, in their order. -/
structure Transfer where
  async : Async
  device : Nat := 0
  memory : Nat := 0
  cells : List Nat := []

/-- The places of the bytes by which `buf_write_count` has advanced. -/
def committedCells (a a' : Async) : List Nat :=
  (List.range (a'.bufWriteCount - a.bufWriteCount).toNat).map fun j =>
    (a.bufWritePtr.toNat + j) % a.preallocBufsz.toNat

inductive DmaStep where
  | sync (x : Reading)
  | writeAlloc (n : U32)
  | readAlloc (n : U32)
  | readFree (n : U32)
  | events (events : U32)

def sync (s : Subdevice) (st : Transfer) (x : Reading) : Result (Int × Transfer) := do
  let (ret, a) ← miteSyncInputDma s st.async x.registers
  return (ret, {
    async := a
    device := x.deviceUb
    memory := x.memory
    cells := st.cells ++ committedCells st.async a })

/-- A call, the driver allocating space for the DMA, the two halves of a read, or the driver and
`comedi_event` changing the pending events. -/
def dmaStep (s : Subdevice) (st : Transfer) : DmaStep → Result Transfer
  | .sync x => (·.2) <$> sync s st x
  | .writeAlloc n => .ok { st with async := (comediBufWriteAlloc st.async n).2 }
  | .readAlloc n => .ok { st with async := (comediBufReadAlloc st.async n).2 }
  | .readFree n => do
    let (_, a) ← comediBufReadFree st.async n
    return { st with async := a }
  | .events e => .ok { st with async := { st.async with events := e } }

def start (a : Async) : Transfer where
  async := comediResetAsyncBuf a

/-- The end of the region that is write-allocated, as a position in the stream. -/
def allocEnd (st : Transfer) : Nat :=
  st.cells.length + (st.async.bufWriteAllocCount - st.async.bufWriteCount).toNat

/-- The counts go on from those of the last call, and the bounds that the code computes enclose
the number of bytes in memory. -/
structure Consistent (st : Transfer) (x : Reading) : Prop where
  device_le : st.device ≤ x.deviceLb
  deviceLb_le : x.deviceLb ≤ x.deviceUb
  memory_le : st.memory ≤ x.memory
  lower_le : x.lower ≤ x.memory
  le_upper : x.memory ≤ x.upper

/-- The counts are consistent, and no size is so far beyond what is available that the signed
comparison misses it. -/
def StepConsistent (st : Transfer) : DmaStep → Prop
  | .sync x => Consistent st x
  | .writeAlloc n => n.toNat < 2 ^ 31 + room st.async
  | .readAlloc n =>
    n.toNat < 2 ^ 31 + (st.async.mungeCount - st.async.bufReadAllocCount).toNat
  | .readFree n =>
    n.toNat < 2 ^ 31 + (st.async.bufReadAllocCount - st.async.bufReadCount).toNat
  | .events _ => True

/-- The DMA has not run so far past its region that the signed comparison misses it. -/
def Near (st : Transfer) : DmaStep → Prop
  | .sync x => x.upper < allocEnd st + 2 ^ 31
  | _ => True

def StepFits (st : Transfer) (i : DmaStep) : Prop := StepConsistent st i ∧ Near st i

/-- From the one buffer to the other a flag is raised exactly if `p`. -/
def Raises (flag : U32) (a a' : Async) (p : Prop) : Prop :=
  a'.events &&& flag ≠ 0 ↔ a.events &&& flag ≠ 0 ∨ p

/-- What a call is for. -/
structure SyncExact (bytesPerScan : Nat) (st : Transfer) (x : Reading) (ret : Int)
    (st' : Transfer) : Prop where
  grows : st.cells <+: st'.cells
  le_memory : st'.cells.length ≤ x.memory
  ret_eq : ret = -1 ∨ ret = 0
  overflow : ret = -1 ↔ allocEnd st < x.upper
  overflow_event : Raises comediCbOverflow st.async st'.async (allocEnd st < x.upper)
  eos_event : Raises comediCbEos st.async st'.async
    (∃ k, st.cells.length < k * bytesPerScan ∧ k * bytesPerScan ≤ st'.cells.length)

/-- What is true between two steps: the bytes committed are those from the start of the buffer
on, each of them once and in order, and all of them are in memory. -/
structure Committed (cap bytesPerScan : Nat) (st : Transfer) : Prop where
  cells : st.cells = (List.range st.cells.length).map (· % cap)
  le_memory : st.cells.length ≤ st.memory
  writeCount : st.async.bufWriteCount = .ofNat 32 st.cells.length
  progress : st.async.scanProgress.toNat = st.cells.length % bytesPerScan

theorem inTransit_le (fcr : U32) : (miteBytesInTransit fcr).toNat ≤ 255 := by
  rw [miteBytesInTransit, BitVec.toNat_and]
  exact Nat.and_le_right

theorem ofInt_sub_toNat (n : Nat) (v : U32) :
    BitVec.ofNat 32 n - v = .ofInt 32 (n - v.toNat) := by
  rw [sub_eq_add_neg (n : Int), BitVec.ofInt_add, BitVec.ofInt_neg, BitVec.ofInt_natCast,
    BitVec.ofInt_natCast, BitVec.ofNat_toNat, BitVec.setWidth_eq, sub_eq_add_neg]

theorem lb_eq (x : Reading) : miteBytesWrittenToMemoryLb x.registers = .ofInt 32 x.lower :=
  ofInt_sub_toNat x.deviceLb _

theorem ub_eq (x : Reading) : miteBytesWrittenToMemoryUb x.registers = .ofInt 32 x.upper :=
  ofInt_sub_toNat x.deviceUb _

/-- A scan boundary lies among the next `n` bytes if they complete the scan that has begun. -/
theorem boundary_iff {b w n : Nat} (hb : 0 < b) :
    b ≤ w % b + n ↔ ∃ k, w < k * b ∧ k * b ≤ w + n := by
  have hw := Nat.div_add_mod w b
  have hlt := Nat.mod_lt w hb
  constructor
  · intro h
    refine ⟨w / b + 1, ?_, ?_⟩
    · rw [Nat.add_mul, Nat.mul_comm, Nat.one_mul]
      omega
    · rw [Nat.add_mul, Nat.mul_comm, Nat.one_mul]
      omega
  · rintro ⟨k, hk, hk'⟩
    have hkb : w / b + 1 ≤ k := (Nat.div_lt_iff_lt_mul hb).mpr hk
    have := Nat.mul_le_mul_right b hkb
    rw [Nat.add_mul, Nat.mul_comm, Nat.one_mul] at this
    omega

theorem cfcBytesPerScan_congr (s : Subdevice) {a a' : Async} (h : a'.cmd = a.cmd) :
    cfcBytesPerScan s a' = cfcBytesPerScan s a := by
  unfold cfcBytesPerScan
  rw [h]

/-- The events of a call that has committed something. -/
def scanEvents (bytesPerScan progress : Nat) (events : U32) : U32 :=
  (if bytesPerScan ≤ progress then events ||| comediCbEos else events) ||| comediCbBlock

theorem syncProgress_spec {a : Async} {b n : Nat} (hb : 0 < b) (hb' : b ≤ 2 ^ 31)
    (hn : n < 2 ^ 31) (hp : a.scanProgress.toNat < b) :
    syncProgress (.ofNat 32 b) a (.ofNat 32 n) = .ok { a with
      scanProgress := .ofNat 32 ((a.scanProgress.toNat + n) % b)
      events := scanEvents b (a.scanProgress.toNat + n) a.events } := by
  have hbn : (BitVec.ofNat 32 b).toNat = b := toNat_ofNat_of_lt (by omega)
  have hsum : (a.scanProgress + .ofNat 32 n).toNat = a.scanProgress.toNat + n := by
    rw [BitVec.toNat_add, toNat_ofNat_of_lt (by omega), Nat.mod_eq_of_lt (by omega)]
  have hz : BitVec.ofNat 32 b ≠ 0 := by
    intro h0
    rw [h0] at hbn
    simp at hbn
    omega
  unfold syncProgress scanEvents
  dsimp only
  by_cases hle : b ≤ a.scanProgress.toNat + n
  · have hle' : BitVec.ofNat 32 b ≤ a.scanProgress + .ofNat 32 n := by
      rw [BitVec.le_def, hbn, hsum]
      exact hle
    have hmod : (a.scanProgress + .ofNat 32 n) % .ofNat 32 b =
        .ofNat 32 ((a.scanProgress.toNat + n) % b) := by
      apply BitVec.eq_of_toNat_eq
      have := Nat.mod_lt (a.scanProgress.toNat + n) hb
      rw [BitVec.toNat_umod, hsum, hbn, toNat_ofNat_of_lt (by omega)]
    rw [if_pos hle', if_pos hle, umod, if_neg hz, hmod]
    rfl
  · have hle' : ¬ BitVec.ofNat 32 b ≤ a.scanProgress + .ofNat 32 n := by
      rw [BitVec.le_def, hbn, hsum]
      exact hle
    have hmod : .ofNat 32 ((a.scanProgress.toNat + n) % b) = a.scanProgress + .ofNat 32 n := by
      apply BitVec.eq_of_toNat_eq
      rw [Nat.mod_eq_of_lt (by omega), hsum, toNat_ofNat_of_lt (by omega)]
    rw [if_neg hle', if_neg hle, hmod]
    rfl

/-- The counters of the buffer are those of the stream positions `μ`, where what is written is
what has been committed. -/
structure Synced {cap : Nat} (s : Subdevice) (b : Nat) (st : Transfer) (μ : Marks cap) : Prop where
  located : Located s st.async μ
  cells : st.cells = (List.range μ.written).map (· % cap)
  le_memory : μ.written ≤ st.memory
  memory_le : st.memory ≤ st.device
  perScan : cfcBytesPerScan s st.async = .ofNat 32 b
  progress : st.async.scanProgress.toNat = μ.written % b

variable {cap b : Nat} {s : Subdevice} {st : Transfer} {μ : Marks cap} {x : Reading}

namespace Synced

theorem cells_length (h : Synced s b st μ) : st.cells.length = μ.written := by
  rw [h.cells, List.length_map, List.length_range]

theorem allocEnd_eq (h : Synced s b st μ) : allocEnd st = μ.writeAlloc := by
  have hc := μ.chain
  have hlt := h.located.cap_lt
  rw [allocEnd, h.cells_length, h.located.tracks.writeAllocCount, h.located.tracks.writeCount,
    toNat_ofNat_sub (by omega) (by omega)]
  omega

theorem committed (h : Synced s b st μ) : Committed cap b st where
  cells := by rw [h.cells_length, ← h.cells]
  le_memory := by rw [h.cells_length]; exact h.le_memory
  writeCount := by rw [h.cells_length]; exact h.located.tracks.writeCount
  progress := by rw [h.cells_length]; exact h.progress

theorem of_async (h : Synced s b st μ) {a : Async} {ν : Marks cap} (ha : Located s a ν)
    (hw : ν.written = μ.written) (hcmd : a.cmd = st.async.cmd)
    (hp : a.scanProgress = st.async.scanProgress) : Synced s b { st with async := a } ν where
  located := ha
  cells := by rw [hw]; exact h.cells
  le_memory := by rw [hw]; exact h.le_memory
  memory_le := h.memory_le
  perScan := (cfcBytesPerScan_congr s hcmd).trans h.perScan
  progress := by rw [hw]; exact (congrArg BitVec.toNat hp).trans h.progress

/-- The region that the code allocates at the start of a call takes all the free space. -/
theorem writeAlloc (h : Synced s b st μ) :
    (comediBufWriteAlloc st.async st.async.preallocBufsz).2 =
      { st.async with bufWriteAllocCount := .ofNat 32 (μ.reserve cap).writeAlloc } := by
  have hsz := h.located.tracks.bufsz
  have hlt := h.located.cap_lt
  rw [writeAlloc_spec hlt h.located.tracks (by omega), hsz]

theorem toInt_overrun (h : Synced s b st μ) (hx : Consistent st x)
    (hnear : x.upper < allocEnd st + 2 ^ 31) :
    (miteBytesWrittenToMemoryUb x.registers - st.async.bufWriteAllocCount).toInt =
      x.upper - μ.writeAlloc := by
  have hc := μ.chain
  have hlt := h.located.cap_lt
  have hm := h.le_memory
  have hmx := hx.memory_le
  have hu := hx.le_upper
  rw [h.allocEnd_eq] at hnear
  rw [ub_eq, h.located.tracks.writeAllocCount, ← BitVec.ofInt_natCast]
  refine toInt_ofInt_sub (by omega) ?_ ?_
  · change -(2 : Int) ^ 31 ≤ _
    omega
  · change _ < (2 : Int) ^ 31
    omega

/-- The lower bound may lie behind what is committed, but not by more than is in transit. -/
theorem toInt_advance (h : Synced s b st μ) (hx : Consistent st x)
    (hle : x.upper ≤ μ.writeAlloc) :
    (miteBytesWrittenToMemoryLb x.registers - st.async.bufWriteCount).toInt =
      x.lower - μ.written := by
  have hc := μ.chain
  have hlt := h.located.cap_lt
  have hm := h.le_memory
  have hd := h.memory_le
  have hdx := hx.device_le
  have hl := hx.lower_le
  have hu := hx.le_upper
  have ht := inTransit_le x.fcrLb
  have hlow : x.lower = x.deviceLb - (miteBytesInTransit x.fcrLb).toNat := rfl
  rw [lb_eq, h.located.tracks.writeCount, ← BitVec.ofInt_natCast]
  refine toInt_ofInt_sub (by omega) ?_ ?_
  · change -(2 : Int) ^ 31 ≤ _
    omega
  · change _ < (2 : Int) ^ 31
    omega

end Synced

/-- The buffer after a call that commits `n` bytes. -/
def synced (s : Subdevice) (b : Nat) (a : Async) (μ : Marks cap) (n : Nat) : Async :=
  { writeFreed s { a with bufWriteAllocCount := .ofNat 32 (μ.reserve cap).writeAlloc }
      (μ.reserve cap) n with
    scanProgress := .ofNat 32 ((a.scanProgress.toNat + n) % b)
    events := scanEvents b (a.scanProgress.toNat + n) a.events }

/-- All that a call can do: report an overflow, do nothing, or commit up to the lower bound. -/
theorem miteSyncInputDma_cases (h : Synced s b st μ) (hb : 0 < b) (hb' : b ≤ 2 ^ 31)
    (hx : Consistent st x) (hnear : x.upper < allocEnd st + 2 ^ 31) :
    (μ.writeAlloc < x.upper ∧ miteSyncInputDma s st.async x.registers = .ok (-1, { st.async with
        bufWriteAllocCount := .ofNat 32 (μ.reserve cap).writeAlloc
        events := st.async.events ||| comediCbOverflow })) ∨
    (x.upper ≤ μ.writeAlloc ∧ miteSyncInputDma s st.async x.registers = .ok (0, { st.async with
        bufWriteAllocCount := .ofNat 32 (μ.reserve cap).writeAlloc })) ∨
    (x.upper ≤ μ.writeAlloc ∧ ∃ n : Nat, 0 < n ∧ x.lower = (μ.written + n : Nat) ∧
      miteSyncInputDma s st.async x.registers = .ok (0, synced s b st.async μ n)) := by
  have hc := μ.chain
  have hlt := h.located.cap_lt
  have hl := hx.lower_le
  have hu := hx.le_upper
  have hover := h.toInt_overrun hx hnear
  unfold miteSyncInputDma
  rw [h.perScan]
  dsimp only
  rw [hover, h.writeAlloc]
  by_cases hp : 0 < x.upper - (μ.writeAlloc : Int)
  · rw [if_pos hp]
    exact .inl ⟨by omega, rfl⟩
  have hle : x.upper ≤ μ.writeAlloc := by omega
  have hadv := h.toInt_advance hx hle
  rw [if_neg hp]
  change _ ∨ (_ ∧ (if (miteBytesWrittenToMemoryLb x.registers -
    st.async.bufWriteCount).toInt ≤ 0 then _ else _) = _) ∨ _
  rw [hadv]
  by_cases hz : x.lower - (μ.written : Int) ≤ 0
  · rw [if_pos hz]
    exact .inr (.inl ⟨hle, rfl⟩)
  obtain ⟨n, hn⟩ : ∃ n : Nat, x.lower = (μ.written + n : Nat) :=
    ⟨(x.lower - μ.written).toNat, by omega⟩
  have hcount : miteBytesWrittenToMemoryLb x.registers - st.async.bufWriteCount = .ofNat 32 n := by
    rw [lb_eq, hn, BitVec.ofInt_natCast, h.located.tracks.writeCount,
      ofNat_sub_ofNat_of_le (by omega), Nat.add_sub_cancel_left]
  have hn31 : n < 2 ^ 31 := by omega
  have hloc := h.located.reserve cap
  have hfree := writeFree_spec (n := .ofNat 32 n) hlt hloc.tracks hloc.mungeOk
    (by rw [toNat_ofNat_of_lt (by omega)]; omega)
  rw [toNat_ofNat_of_lt (by omega)] at hfree
  rw [if_neg hz]
  refine .inr (.inr ⟨hle, n, by omega, hn, ?_⟩)
  change (do
    let (_, a) ← comediBufWriteFree s { st.async with
      bufWriteAllocCount := .ofNat 32 (μ.reserve cap).writeAlloc }
      (miteBytesWrittenToMemoryLb x.registers - st.async.bufWriteCount)
    let a ← syncProgress (.ofNat 32 b) a
      (miteBytesWrittenToMemoryLb x.registers - st.async.bufWriteCount)
    return ((0 : Int), a)) = _
  have hsp : (writeFreed s { st.async with
      bufWriteAllocCount := .ofNat 32 (μ.reserve cap).writeAlloc }
      (μ.reserve cap) n).scanProgress = st.async.scanProgress :=
    advanceMunge_proj (·.scanProgress) (fun _ _ _ _ _ _ => rfl) s _ _
  have hev : (writeFreed s { st.async with
      bufWriteAllocCount := .ofNat 32 (μ.reserve cap).writeAlloc }
      (μ.reserve cap) n).events = st.async.events :=
    advanceMunge_proj (·.events) (fun _ _ _ _ _ _ => rfl) s _ _
  have hplt : st.async.scanProgress.toNat < b := by
    rw [h.progress]
    exact Nat.mod_lt _ hb
  have hprog := syncProgress_spec (n := n) hb hb' hn31 (hsp ▸ hplt)
  rw [hsp, hev] at hprog
  rw [hcount, bind_ok hfree]
  exact bind_ok hprog _

theorem synced_cmd (s : Subdevice) (b : Nat) (a : Async) (μ : Marks cap) (n : Nat) :
    (synced s b a μ n).cmd = a.cmd :=
  advanceMunge_proj (·.cmd) (fun _ _ _ _ _ _ => rfl) s _ _

theorem synced_located (h : Located s st.async μ) (b n : Nat) :
    Located s (synced s b st.async μ n)
      (writeFreedMarks s { st.async with
        bufWriteAllocCount := .ofNat 32 (μ.reserve cap).writeAlloc } (μ.reserve cap) n) := by
  have hf := (h.reserve cap).writeFreed n
  exact ⟨⟨hf.tracks.bufsz, hf.tracks.readCount, hf.tracks.readAllocCount, hf.tracks.mungeCount,
    hf.tracks.writeCount, hf.tracks.writeAllocCount⟩,
    ⟨hf.mungeOk.ptr_lt, hf.mungeOk.bufsz_lt, hf.mungeOk.chanlistLen⟩, hf.writePtr, hf.readPtr⟩

/-- The cells of a call that moves the stream position from `w` to `w + n`. -/
theorem committedCells_eq {a a' : Async} {w n : Nat} (hn : n < 2 ^ 32)
    (hw : a.bufWriteCount = .ofNat 32 w) (hw' : a'.bufWriteCount = .ofNat 32 (w + n))
    (hsz : a.preallocBufsz.toNat = cap) (hptr : a.bufWritePtr.toNat = w % cap) :
    (List.range w).map (· % cap) ++ committedCells a a' =
      (List.range (w + n)).map (· % cap) := by
  have hk : (a'.bufWriteCount - a.bufWriteCount).toNat = n := by
    rw [hw, hw', toNat_ofNat_sub (by omega) (by omega), Nat.add_sub_cancel_left]
  rw [committedCells, hk, List.range_add, List.map_append, List.map_map, hsz, hptr]
  congr 1
  apply List.map_congr_left
  intro j _
  exact Nat.mod_add_mod w cap j

theorem and_overflow_scanEvents (b p : Nat) (e : U32) :
    scanEvents b p e &&& comediCbOverflow = e &&& comediCbOverflow := by
  unfold scanEvents
  rw [BitFlags.and_or_of_disjoint (by decide)]
  split
  · exact BitFlags.and_or_of_disjoint (by decide)
  · rfl

theorem and_eos_scanEvents (b p : Nat) (e : U32) :
    scanEvents b p e &&& comediCbEos ≠ 0 ↔ e &&& comediCbEos ≠ 0 ∨ b ≤ p := by
  unfold scanEvents
  rw [BitFlags.and_or_of_disjoint (by decide)]
  split
  · next hle =>
    rw [BitFlags.or_self_and]
    exact ⟨fun _ => .inr hle, fun _ => by decide⟩
  · next hle => simp [hle]

theorem sync_keeps {ret : Int} {a : Async} {ν : Marks cap} (h : Synced s b st μ)
    (hx : Consistent st x) (he : miteSyncInputDma s st.async x.registers = .ok (ret, a))
    (ha : Located s a ν) (hcmd : a.cmd = st.async.cmd) {n : Nat} (hn : n < 2 ^ 32)
    (hw : ν.written = μ.written + n) (hle : μ.written + n ≤ x.memory)
    (hp : a.scanProgress.toNat = (μ.written + n) % b) :
    ∃ st', sync s st x = .ok (ret, st') ∧ st'.async = a ∧ st.cells <+: st'.cells ∧
      Synced s b st' ν := by
  have hcells : (List.range μ.written).map (· % cap) ++ committedCells st.async a =
      (List.range (μ.written + n)).map (· % cap) := committedCells_eq hn h.located.tracks.writeCount
    (by rw [ha.tracks.writeCount, hw]) h.located.tracks.bufsz h.located.writePtr
  refine ⟨{
    async := a
    device := x.deviceUb
    memory := x.memory
    cells := st.cells ++ committedCells st.async a }, bind_ok he _, rfl,
    List.prefix_append _ _, ha, ?_, ?_, ?_, ?_, ?_⟩
  · rw [hw, ← hcells, h.cells]
  · rw [hw]
    exact hle
  · change x.memory ≤ x.deviceUb
    have hup : x.upper = x.deviceUb - (miteBytesInTransit x.fcrUb).toNat := rfl
    have := hx.le_upper
    omega
  · exact (cfcBytesPerScan_congr s hcmd).trans h.perScan
  · rw [hw]
    exact hp

/-- One call does what it is for, and what is true between two steps stays true. -/
theorem sync_step (h : Synced s b st μ) (hb : 0 < b) (hb' : b ≤ 2 ^ 31)
    (hx : Consistent st x) (hnear : x.upper < allocEnd st + 2 ^ 31) :
    ∃ ret st', sync s st x = .ok (ret, st') ∧ SyncExact b st x ret st' ∧
      ∃ ν : Marks cap, Synced s b st' ν := by
  have hc := μ.chain
  have hlt := h.located.cap_lt
  have hm := h.le_memory
  have hmx := hx.memory_le
  have hmemory : μ.written + 0 ≤ x.memory := by omega
  have hend := h.allocEnd_eq
  have hboundary : ∀ n, b ≤ μ.written % b + n ↔
      ∃ k, μ.written < k * b ∧ k * b ≤ μ.written + n := fun n => boundary_iff hb
  obtain ⟨hover, he⟩ | ⟨hfits, he⟩ | ⟨hfits, n, hpos, hlow, he⟩ :=
    miteSyncInputDma_cases h hb hb' hx hnear
  · obtain ⟨st', hst, ha, hgrow, hs⟩ := sync_keeps (n := 0) h hx he
      ((h.located.reserve cap).events _) rfl (by omega) rfl hmemory h.progress
    have hsame : st'.cells.length = μ.written := hs.cells_length
    have hlen := h.cells_length
    refine ⟨-1, st', hst, ⟨hgrow, ?_, .inl rfl, ?_, ?_, ?_⟩, _, hs⟩
    · omega
    · rw [hend]
      exact ⟨fun _ => hover, fun _ => rfl⟩
    · rw [hend, Raises, ha]
      change (st.async.events ||| comediCbOverflow) &&& comediCbOverflow ≠ 0 ↔ _
      rw [BitFlags.or_self_and]
      exact ⟨fun _ => .inr hover, fun _ => by decide⟩
    · rw [Raises, ha]
      change (st.async.events ||| comediCbOverflow) &&& comediCbEos ≠ 0 ↔ _
      rw [BitFlags.and_or_of_disjoint (by decide), hsame, hlen]
      exact ⟨.inl, fun h => h.resolve_right fun ⟨k, hk, hk'⟩ => by omega⟩
  · obtain ⟨st', hst, ha, hgrow, hs⟩ := sync_keeps (n := 0) h hx he
      (h.located.reserve cap) rfl (by omega) rfl hmemory h.progress
    have hsame : st'.cells.length = μ.written := hs.cells_length
    have hlen := h.cells_length
    refine ⟨0, st', hst, ⟨hgrow, ?_, .inr rfl, ?_, ?_, ?_⟩, _, hs⟩
    · omega
    · rw [hend]
      exact ⟨nofun, fun h => by omega⟩
    · rw [hend, Raises, ha]
      exact ⟨.inl, fun h => h.resolve_right (by omega)⟩
    · rw [Raises, ha, hsame, hlen]
      exact ⟨.inl, fun h => h.resolve_right fun ⟨k, hk, hk'⟩ => by omega⟩
  · have hl := hx.lower_le
    have hu := hx.le_upper
    have hroom : n ≤ (μ.reserve cap).writeAlloc - (μ.reserve cap).written := by
      change n ≤ μ.writeAlloc + min cap μ.room - μ.written
      omega
    have hw : (writeFreedMarks s { st.async with
        bufWriteAllocCount := .ofNat 32 (μ.reserve cap).writeAlloc } (μ.reserve cap) n).written =
        μ.written + n := by
      change μ.written + min n _ = _
      rw [Nat.min_eq_left hroom]
    have hp : (synced s b st.async μ n).scanProgress.toNat = (μ.written + n) % b := by
      change (BitVec.ofNat 32 ((st.async.scanProgress.toNat + n) % b)).toNat = _
      have := Nat.mod_lt (μ.written + n) hb
      rw [h.progress, Nat.mod_add_mod, toNat_ofNat_of_lt (by omega)]
    obtain ⟨st', hst, ha, hgrow, hs⟩ := sync_keeps h hx he (synced_located h.located b n)
      (synced_cmd s b _ μ n) (by omega) hw (by omega) hp
    have hlen' : st'.cells.length = μ.written + n := by rw [hs.cells_length, hw]
    refine ⟨0, st', hst, ⟨hgrow, ?_, .inr rfl, ?_, ?_, ?_⟩, _, hs⟩
    · omega
    · rw [hend]
      exact ⟨nofun, fun h => by omega⟩
    · rw [hend, Raises, ha]
      change scanEvents b _ st.async.events &&& comediCbOverflow ≠ 0 ↔ _
      rw [and_overflow_scanEvents]
      exact ⟨.inl, fun h => h.resolve_right (by omega)⟩
    · rw [Raises, ha, hlen', h.cells_length]
      change scanEvents b _ st.async.events &&& comediCbEos ≠ 0 ↔ _
      rw [and_eos_scanEvents, h.progress, hboundary]

theorem cfcBytesPerScan_empty (s : Subdevice) {a : Async} (h : a.cmd.chanlistLen = 0) :
    cfcBytesPerScan s a = 0 := by
  have hshared : ∀ v : U32, v = 4 ∨ v = 2 → ((0 : U32) + 8 * v - 1) / (8 * v) * v = 0 := by
    rintro v (rfl | rfl)
    · decide
    · decide
  unfold cfcBytesPerScan
  rw [h]
  split
  case h_4 => exact BitVec.zero_mul
  all_goals exact hshared _ (bytesPerSample_cases s)

/-- A command whose scans are not empty, on a buffer whose distances an `int` can hold. -/
structure Acquires (s : Subdevice) (a : Async) : Prop where
  bufsz_pos : 0 < a.preallocBufsz.toNat
  bufsz_lt : a.preallocBufsz.toNat < 2 ^ 31
  scan_pos : 0 < (cfcBytesPerScan s a).toNat
  scan_le : (cfcBytesPerScan s a).toNat ≤ 2 ^ 31

theorem synced_start {a : Async} (h : Acquires s a) :
    Synced s (cfcBytesPerScan s a).toNat (start a) (Marks.start a.preallocBufsz.toNat) where
  located := by
    refine ⟨Tracks.start a, ⟨?_, h.bufsz_lt, fun _ hz => ?_⟩, ?_, ?_⟩
    · rw [BitVec.lt_def]
      exact h.bufsz_pos
    · have := h.scan_pos
      rw [cfcBytesPerScan_empty (a := a) s hz] at this
      exact Nat.lt_irrefl 0 this
    · exact (Nat.zero_mod _).symm
    · exact (Nat.zero_mod _).symm
  cells := rfl
  le_memory := le_rfl
  memory_le := le_rfl
  perScan := by
    rw [BitVec.ofNat_toNat, BitVec.setWidth_eq]
    exact cfcBytesPerScan_congr s rfl
  progress := (Nat.zero_mod _).symm

theorem dmaStep_keeps (hb : 0 < b) (hb' : b ≤ 2 ^ 31) (st : Transfer) (i : DmaStep)
    (h : ∃ μ : Marks cap, Synced s b st μ) (hfit : StepFits st i) :
    ∃ st', dmaStep s st i = .ok st' ∧ ∃ ν : Marks cap, Synced s b st' ν := by
  obtain ⟨μ, h⟩ := h
  have hlt := h.located.cap_lt
  have ht := h.located.tracks
  have hc := μ.chain
  cases i with
  | sync x =>
    obtain ⟨ret, st', he, -, hν⟩ := sync_step h hb hb' hfit.1 hfit.2
    exact ⟨st', by rw [dmaStep, he]; rfl, hν⟩
  | writeAlloc n =>
    have hn : n.toNat < 2 ^ 31 + μ.room := tracks_room hlt ht ▸ hfit.1
    refine ⟨_, rfl, μ.reserve n.toNat, ?_⟩
    rw [writeAlloc_spec hlt ht hn]
    exact h.of_async (h.located.reserve _) rfl rfl rfl
  | readAlloc n =>
    have hn : n.toNat < 2 ^ 31 + (μ.ready - μ.readAlloc) := tracks_readable hlt ht ▸ hfit.1
    refine ⟨_, rfl, μ.acquire n.toNat, ?_⟩
    rw [readAlloc_spec hlt ht hn]
    exact h.of_async (h.located.acquire _) rfl rfl rfl
  | readFree n =>
    have hn : n.toNat < 2 ^ 31 + (μ.readAlloc - μ.read) := by
      have hf : n.toNat < 2 ^ 31 +
        (st.async.bufReadAllocCount - st.async.bufReadCount).toNat := hfit.1
      rwa [ht.readAllocCount, ht.readCount, toNat_ofNat_sub (by omega) (by omega)] at hf
    exact ⟨_, bind_ok (readFree_spec hlt ht h.located.cap_pos hn) _, μ.release n.toNat,
      h.of_async (h.located.release _) rfl rfl rfl⟩
  | events e => exact ⟨_, rfl, μ, h.of_async (h.located.events e) rfl rfl rfl⟩

/-- A call in a run does what it is for. -/
def StepExact (s : Subdevice) (b : Nat) (st : Transfer) : DmaStep → Prop
  | .sync x => ∃ ret st', sync s st x = .ok (ret, st') ∧ SyncExact b st x ret st'
  | _ => True

/-- In every run every call commits what is in memory and not yet committed, as far as it can
know, counts the scans, and reports an overflow exactly when the DMA may have left the region
that was allocated for it. -/
theorem sync_exact {s : Subdevice} {a : Async} (ha : Acquires s a) {steps : List DmaStep}
    (hfit : AllFit (dmaStep s) StepFits (start a) steps) :
    AllFit (dmaStep s) (StepExact s (cfcBytesPerScan s a).toNat) (start a) steps ∧
      ∃ st, run (dmaStep s) (start a) steps = .ok st ∧
        Committed a.preallocBufsz.toNat (cfcBytesPerScan s a).toNat st := by
  let inv (st : Transfer) : Prop :=
    ∃ μ : Marks a.preallocBufsz.toNat, Synced s (cfcBytesPerScan s a).toNat st μ
  have hinv : inv (start a) := ⟨_, synced_start ha⟩
  have hkeep : ∀ st i, inv st → StepFits st i → ∃ st', dmaStep s st i = .ok st' ∧ inv st' :=
    dmaStep_keeps ha.scan_pos ha.scan_le
  constructor
  · refine AllFit.of_invariant inv (fun st i st' hI hi he => ?_) (fun st i hI hi => ?_) hinv hfit
    · obtain ⟨st₁, he₁, h₁⟩ := hkeep st i hI hi
      cases he₁.symm.trans he
      exact h₁
    · obtain ⟨μ, h⟩ := hI
      cases i with
      | sync x =>
        obtain ⟨ret, st', he, hx, -⟩ := sync_step h ha.scan_pos ha.scan_le hi.1 hi.2
        exact ⟨ret, st', he, hx⟩
      | writeAlloc n => trivial
      | readAlloc n => trivial
      | readFree n => trivial
      | events e => trivial
  · obtain ⟨st, hrun, μ, h⟩ := run_total inv hkeep hinv hfit
    exact ⟨st, hrun, h.committed⟩

/-- The hardware at one moment: what the device has sent that is not in memory is in the FIFO. -/
structure Moment where
  device : Nat
  memory : Nat
  memory_le : memory ≤ device
  device_le : device ≤ memory + 255

/-- The register `FCR` shows the number of bytes in the FIFO. -/
def Moment.Shows (m : Moment) (fcr : U32) : Prop :=
  (miteBytesInTransit fcr).toNat = m.device - m.memory

/-- Reading the registers at four moments, one after the other, gives consistent counts. -/
theorem consistent_of_moments {m₁ m₂ m₃ m₄ : Moment} {fcrLb fcrUb : U32}
    (hd : st.device ≤ m₁.device) (hm : st.memory ≤ m₃.memory)
    (h₁₂ : m₁.device ≤ m₂.device) (h₂₃ : m₂.memory ≤ m₃.memory)
    (h₂₄ : m₂.device ≤ m₄.device) (h₃₄ : m₃.device ≤ m₄.device)
    (hlb : m₂.Shows fcrLb) (hub : m₃.Shows fcrUb) :
    Consistent st ⟨m₁.device, fcrLb, fcrUb, m₄.device, m₃.memory⟩ where
  device_le := hd
  deviceLb_le := h₁₂.trans h₂₄
  memory_le := hm
  lower_le := by
    have := m₂.memory_le
    change (m₁.device : Int) - (miteBytesInTransit fcrLb).toNat ≤ m₃.memory
    rw [hlb]
    omega
  le_upper := by
    have := m₃.memory_le
    change (m₃.memory : Int) ≤ m₄.device - (miteBytesInTransit fcrUb).toNat
    rw [hub]
    omega

/-- All bytes that the device has sent are in memory. -/
def drained (n : Nat) : Reading := ⟨n, 0, 0, n, n⟩

/-- Three channels of two bytes on a ring of `n` bytes. -/
def threeChannels (n : U32) : Async where
  preallocBufsz := n
  cmd := { chanlistLen := 3 }

theorem consistent_drained {n : Nat} (hd : st.device ≤ n) (hm : st.memory ≤ n) :
    Consistent st (drained n) where
  device_le := hd
  deviceLb_le := le_rfl
  memory_le := hm
  lower_le := Int.sub_le_self _ (Int.natCast_nonneg _)
  le_upper := by
    have hz : (miteBytesInTransit 0).toNat = 0 := by decide
    change (n : Int) ≤ n - (miteBytesInTransit 0).toNat
    rw [hz]
    omega

theorem near_of_lt (h : x.upper < 2 ^ 31) : Near st (.sync x) := by
  change x.upper < (allocEnd st : Int) + 2 ^ 31
  omega

theorem sync_counts {ret : Int} {st' : Transfer} (h : sync s st x = .ok (ret, st')) :
    st'.device = x.deviceUb ∧ st'.memory = x.memory := by
  obtain ⟨⟨ret', a⟩, -, h⟩ := bind_eq_ok h
  cases h
  exact ⟨rfl, rfl⟩

theorem sync_exact_oneScan :
    AllFit (dmaStep {}) (StepExact {} 6) (start (threeChannels 4096))
        [.writeAlloc 4096, .sync (drained 8), .readAlloc 8] ∧
      ∃ st, run (dmaStep {}) (start (threeChannels 4096))
          [.writeAlloc 4096, .sync (drained 8), .readAlloc 8] = .ok st ∧
        Committed 4096 6 st := by
  refine sync_exact (s := {}) (a := threeChannels 4096)
    ⟨by decide, by decide, by decide, by decide⟩ ⟨⟨Nat.lt_add_right _ (by decide), trivial⟩, ?_⟩
  rintro _ ⟨⟩
  refine ⟨⟨consistent_drained (by decide) (by decide), near_of_lt (by decide)⟩, fun st _ => ?_⟩
  exact ⟨⟨Nat.lt_add_right _ (by decide), trivial⟩, fun _ _ => trivial⟩

/-- Fill the ring, with which `n` bytes are in memory, and read all of it. -/
def lap (n : Nat) : List DmaStep :=
  [.writeAlloc 0x40000000, .sync (drained n), .readAlloc 0x40000000, .readFree 0x40000000]

theorem dmaStep_sync {st' : Transfer} (h : dmaStep s st (.sync x) = .ok st') :
    st'.device = x.deviceUb ∧ st'.memory = x.memory := by
  obtain ⟨⟨ret, st₁⟩, he, h⟩ := bind_eq_ok (x := sync s st x) h
  cases h
  exact sync_counts he

theorem lap_fits {n : Nat} {steps : List DmaStep} (hd : st.device ≤ n)
    (hm : st.memory ≤ n)
    (h : ∀ st' : Transfer, st'.device = n → st'.memory = n →
      AllFit (dmaStep s) StepConsistent st' steps) :
    AllFit (dmaStep s) StepConsistent st (lap n ++ steps) := by
  have hsize : ∀ k : Nat, (0x40000000 : U32).toNat < 2 ^ 31 + k :=
    fun k => Nat.lt_add_right k (by decide)
  refine ⟨hsize _, ?_⟩
  rintro _ ⟨⟩
  refine ⟨consistent_drained hd hm, fun st₁ h₁ => ?_⟩
  obtain ⟨hd₁, hm₁⟩ := dmaStep_sync h₁
  refine ⟨hsize _, ?_⟩
  rintro _ ⟨⟩
  refine ⟨hsize _, fun st₃ h₃ => ?_⟩
  obtain ⟨⟨m, a⟩, -, h₃⟩ := bind_eq_ok h₃
  cases h₃
  exact h _ hd₁ hm₁

/-- What a step does to the buffer. -/
def asyncStep (s : Subdevice) (a : Async) : DmaStep → Result Async
  | .sync x => (·.2) <$> miteSyncInputDma s a x.registers
  | .writeAlloc n => .ok (comediBufWriteAlloc a n).2
  | .readAlloc n => .ok (comediBufReadAlloc a n).2
  | .readFree n => (·.2) <$> comediBufReadFree a n
  | .events e => .ok { a with events := e }

theorem asyncStep_part (s : Subdevice) (st : Transfer) (i : DmaStep) (a : Async)
    (h : asyncStep s st.async i = .ok a) :
    ∃ st', dmaStep s st i = .ok st' ∧ st'.async = a := by
  cases i with
  | sync x =>
    obtain ⟨⟨ret, a'⟩, he, h⟩ := bind_eq_ok h
    cases h
    have hs : sync s st x = .ok (ret, {
        async := a'
        device := x.deviceUb
        memory := x.memory
        cells := st.cells ++ committedCells st.async a' }) := bind_ok he _
    exact ⟨_, bind_ok hs _, rfl⟩
  | readFree n =>
    obtain ⟨⟨m, a'⟩, he, h⟩ := bind_eq_ok h
    cases h
    exact ⟨_, bind_ok he _, rfl⟩
  | writeAlloc n =>
    cases h
    exact ⟨_, rfl, rfl⟩
  | readAlloc n =>
    cases h
    exact ⟨_, rfl, rfl⟩
  | events e =>
    cases h
    exact ⟨_, rfl, rfl⟩

/-- The buffer after some laps. -/
def lapped (count progress events : U32) : Async :=
  { threeChannels 0x40000000 with
    bufWriteCount := count
    bufWriteAllocCount := count
    bufReadCount := count
    bufReadAllocCount := count
    mungeCount := count
    scanProgress := progress
    events := events }

theorem run_laps :
    run (asyncStep {}) (lapped 0 0 0)
        (lap 0x40000000 ++ lap 0x80000000 ++ lap 0xc0000000 ++ lap 0x100000000) =
      .ok (lapped 0 4 5) := by
  have h₁ : run (asyncStep {}) (lapped 0 0 0) (lap 0x40000000) = .ok (lapped 0x40000000 4 5) := rfl
  have h₂ : run (asyncStep {}) (lapped 0x40000000 4 5) (lap 0x80000000) =
      .ok (lapped 0x80000000 2 5) := rfl
  have h₃ : run (asyncStep {}) (lapped 0x80000000 2 5) (lap 0xc0000000) =
      .ok (lapped 0xc0000000 0 5) := rfl
  have h₄ : run (asyncStep {}) (lapped 0xc0000000 0 5) (lap 0x100000000) =
      .ok (lapped 0 4 5) := rfl
  rw [run_append, run_append, run_append, h₁]
  dsimp only
  rw [h₂]
  dsimp only
  rw [h₃]
  exact h₄

/-- After four laps `buf_write_count` is back at zero, in the middle of a scan. A device that
runs half the counter range past its region in one go is not reported, and one that is inside
its region is, where the region is longer than that. -/
theorem wrapped_counters :
    (AllFit (dmaStep {}) StepConsistent (start (threeChannels 0x40000000))
        (lap 0x40000000 ++ lap 0x80000000 ++ lap 0xc0000000 ++ lap 0x100000000) ∧
      ∃ st, run (dmaStep {}) (start (threeChannels 0x40000000))
          (lap 0x40000000 ++ lap 0x80000000 ++ lap 0xc0000000 ++ lap 0x100000000) = .ok st ∧
        st.async.bufWriteCount % cfcBytesPerScan {} st.async = 0 ∧ st.async.scanProgress = 4) ∧
    (∃ st st', dmaStep {} (start (threeChannels 4096)) (.writeAlloc 4096) = .ok st ∧
      Consistent st (drained 0x80001001) ∧ sync {} st (drained 0x80001001) = .ok (0, st') ∧
      (allocEnd st : Int) < (drained 0x80001001).upper ∧ st'.async.events = 0) ∧
    (∃ st st', dmaStep {} (start (threeChannels 0x80001000)) (.writeAlloc 0x80001000) = .ok st ∧
      Consistent st (drained 10) ∧ sync {} st (drained 10) = .ok (-1, st') ∧
      (drained 10).upper ≤ allocEnd st ∧ st'.async.events = comediCbOverflow) := by
  obtain ⟨st, hrun, ha⟩ : ∃ st, run (dmaStep {}) (start (threeChannels 0x40000000)) _ = .ok st ∧
      st.async = _ := run_part (asyncStep_part {}) run_laps
  refine ⟨⟨?_, st, hrun, by rw [ha]; decide, by rw [ha]; decide⟩,
    ⟨_, _, rfl, consistent_drained (by decide) (by decide), rfl, by decide, by decide⟩,
    ⟨_, _, rfl, consistent_drained (by decide) (by decide), rfl, by decide, by decide⟩⟩
  rw [List.append_assoc, List.append_assoc, ← List.append_nil (lap 0x100000000)]
  refine lap_fits (by decide) (by decide) fun st₁ hd₁ hm₁ => ?_
  refine lap_fits (by omega) (by omega) fun st₂ hd₂ hm₂ => ?_
  refine lap_fits (by omega) (by omega) fun st₃ hd₃ hm₃ => ?_
  exact lap_fits (by omega) (by omega) fun _ _ _ => trivial

end Comedi.MiteSync
