import Comedi.MiteSync
import Comedi.RtTimer

namespace Comedi.MiteOutput

open AsyncBuffer RingMarks RingCounters MungeBlocks SerialCounter Fc WriteSpecs GuardedRuns
open BufinfoOrder (room tracks_room)
open MiteSync (MiteReads miteBytesInTransit Reading)
open RtTimer (trigCount)

def miteBytesReadFromMemoryLb (r : MiteReads) : U32 :=
  let deviceByteCount := r.darLb
  deviceByteCount + miteBytesInTransit r.fcrLb

def miteBytesReadFromMemoryUb (r : MiteReads) : U32 :=
  let inTransitCount := miteBytesInTransit r.fcrUb
  r.darUb + inTransitCount

/-- A byte count that the stop count limits. -/
def stopped (cmd : Cmd) (stopCount nbytes : U32) : U32 :=
  if cmd.stopSrc = trigCount ∧ 0 < (nbytes - stopCount).toInt then stopCount else nbytes

def miteSyncOutputDma (s : Subdevice) (a : Async) (r : MiteReads) : Result (Int × Async) :=
  let stopCount := a.cmd.stopArg * cfcBytesPerScan s a
  let oldAllocCount := a.bufReadAllocCount
  let (_, a) := comediBufReadAlloc a a.preallocBufsz
  let nbytesLb := stopped a.cmd stopCount (miteBytesReadFromMemoryLb r)
  let nbytesUb := stopped a.cmd stopCount (miteBytesReadFromMemoryUb r)
  if 0 < (nbytesUb - oldAllocCount).toInt then
    .ok (-1, { a with events := a.events ||| comediCbOverflow })
  else
    let count := nbytesLb - a.bufReadCount
    if count.toInt ≤ 0 then .ok (0, a)
    else do
      let (_, a) ← comediBufReadFree a count
      return (0, { a with events := a.events ||| comediCbBlock })

def lower (x : Reading) : Nat := x.deviceLb + (miteBytesInTransit x.fcrLb).toNat

def upper (x : Reading) : Nat := x.deviceUb + (miteBytesInTransit x.fcrUb).toNat

/-- The bytes of the whole output, if it has an end. -/
def total (s : Subdevice) (a : Async) : Option Nat :=
  if a.cmd.stopSrc = trigCount then some (a.cmd.stopArg.toNat * (cfcBytesPerScan s a).toNat)
  else none

def limited (t : Option Nat) (n : Nat) : Nat := t.elim n (min n)

/-- An output by DMA. `device` and `memory` are the counts at the last call, `consumed` is the
largest of the lower bounds, limited by the total, of the calls that did not report an underrun. -/
structure Output where
  async : Async
  device : Nat := 0
  memory : Nat := 0
  consumed : Nat := 0

inductive OutputStep where
  | sync (x : Reading)
  | writeAlloc (n : U32)
  | writeFree (n : U32)
  | events (events : U32)

def sync (s : Subdevice) (st : Output) (x : Reading) : Result (Int × Output) := do
  let (ret, a) ← miteSyncOutputDma s st.async x.registers
  return (ret, {
    async := a
    device := x.deviceUb
    memory := x.memory
    consumed := if ret = 0 then max st.consumed (limited (total s st.async) (lower x))
      else st.consumed })

/-- A call, the two halves of a user's write, or the driver and `comedi_event` changing the pending
events. -/
def outputStep (s : Subdevice) (st : Output) : OutputStep → Result Output
  | .sync x => (·.2) <$> sync s st x
  | .writeAlloc n => .ok { st with async := (comediBufWriteAlloc st.async n).2 }
  | .writeFree n => do
    let (_, a) ← comediBufWriteFree s st.async n
    return { st with async := a }
  | .events e => .ok { st with async := { st.async with events := e } }

def start (a : Async) : Output where
  async := comediResetAsyncBuf a

/-- The end of the region that is read-allocated, as a position in the stream. -/
def allocEnd (st : Output) : Nat :=
  st.consumed + (st.async.bufReadAllocCount - st.async.bufReadCount).toNat

/-- The counts go on from those of the last call, and the bounds that the code computes enclose
the number of bytes that have been read from memory. -/
structure Consistent (st : Output) (x : Reading) : Prop where
  device_le : st.device ≤ x.deviceLb
  deviceLb_le : x.deviceLb ≤ x.deviceUb
  memory_le : st.memory ≤ x.memory
  lower_le : lower x ≤ x.memory
  le_upper : x.memory ≤ upper x

/-- The counts are consistent, and no size is so far beyond what is available that the signed
comparison misses it. -/
def StepConsistent (st : Output) : OutputStep → Prop
  | .sync x => Consistent st x
  | .writeAlloc n => n.toNat < 2 ^ 31 + room st.async
  | .writeFree n =>
    n.toNat < 2 ^ 31 + (st.async.bufWriteAllocCount - st.async.bufWriteCount).toNat
  | .events _ => True

/-- The signed comparison of the two counts, cut to 32 bits, tells which is larger. -/
def Compares (n m : Nat) : Prop :=
  (n ≤ m → (m - n) % 2 ^ 32 ≤ 2 ^ 31) ∧
    (m < n → 0 < (n - m) % 2 ^ 32 ∧ (n - m) % 2 ^ 32 < 2 ^ 31)

/-- The counts can be compared with the total and with the end of the allocated region. -/
structure Comparable (s : Subdevice) (st : Output) (x : Reading) : Prop where
  lower : ∀ t, total s st.async = some t → Compares (lower x) t
  upper : ∀ t, total s st.async = some t → Compares (upper x) t
  alloc : Compares (limited (total s st.async) (MiteOutput.upper x)) (allocEnd st)

def Near (s : Subdevice) (st : Output) : OutputStep → Prop
  | .sync x => Comparable s st x
  | _ => True

def StepFits (s : Subdevice) (st : Output) (i : OutputStep) : Prop :=
  StepConsistent st i ∧ Near s st i

/-- A call that does not report an underrun has freed what has been consumed. -/
def StepExact (s : Subdevice) (st : Output) : OutputStep → Prop
  | .sync x => ∃ ret st', sync s st x = .ok (ret, st') ∧
      (ret = -1 ∨ ret = 0 ∧ st'.async.bufReadCount = .ofNat 32 st'.consumed ∧
        st'.consumed = max st.consumed (limited (total s st.async) (lower x)))
  | _ => True

theorem toInt_pos_iff_of_compares {n m : Nat} (h : Compares n m) :
    0 < (BitVec.ofNat 32 n - BitVec.ofNat 32 m).toInt ↔ m < n := by
  rw [toInt_pos_iff]
  rcases Nat.lt_or_ge m n with hlt | hge
  · obtain ⟨hpos, hlt'⟩ := h.2 hlt
    rw [ofNat_sub_ofNat_of_le (Nat.le_of_lt hlt), BitVec.toNat_ofNat]
    exact iff_of_true ⟨hpos, by omega⟩ hlt
  · have hle := h.1 hge
    have hneg : BitVec.ofNat 32 n - BitVec.ofNat 32 m = -BitVec.ofNat 32 (m - n) := by
      rw [← ofNat_sub_ofNat_of_le hge, neg_sub]
    refine iff_of_false ?_ (Nat.not_lt.mpr hge)
    rw [hneg, BitVec.toNat_neg, BitVec.toNat_ofNat]
    omega

/-- The counters of the buffer are those of the stream positions `μ`, where what is read is what
has been consumed. -/
structure Driven {cap : Nat} (s : Subdevice) (t : Option Nat) (st : Output) (μ : Marks cap) :
    Prop where
  located : Located s st.async μ
  consumed : st.consumed = μ.read
  le_memory : st.consumed ≤ st.memory
  memory_le : st.memory ≤ st.device + 255
  total_eq : total s st.async = t
  le_total : ∀ n, t = some n → st.consumed ≤ n

variable {cap : Nat} {s : Subdevice} {t : Option Nat} {st : Output} {μ : Marks cap} {x : Reading}

theorem total_congr (s : Subdevice) {a a' : Async} (h : a'.cmd = a.cmd) : total s a' = total s a := by
  unfold total
  rw [h, MiteSync.cfcBytesPerScan_congr s h]

theorem lb_eq (x : Reading) : miteBytesReadFromMemoryLb x.registers = .ofNat 32 (lower x) := by
  unfold lower
  rw [BitVec.ofNat_add, BitVec.ofNat_toNat, BitVec.setWidth_eq]
  rfl

theorem ub_eq (x : Reading) : miteBytesReadFromMemoryUb x.registers = .ofNat 32 (upper x) := by
  unfold upper
  rw [BitVec.ofNat_add, BitVec.ofNat_toNat, BitVec.setWidth_eq]
  rfl

/-- Where the comparison with the total tells, the count is limited by it. -/
theorem stopped_eq (s : Subdevice) (a : Async) {n : Nat}
    (h : ∀ t, total s a = some t → Compares n t) :
    stopped a.cmd (a.cmd.stopArg * cfcBytesPerScan s a) (.ofNat 32 n) =
      .ofNat 32 (limited (total s a) n) := by
  have hstop : a.cmd.stopArg * cfcBytesPerScan s a =
      .ofNat 32 (a.cmd.stopArg.toNat * (cfcBytesPerScan s a).toNat) := by
    rw [BitVec.ofNat_mul, BitVec.ofNat_toNat, BitVec.ofNat_toNat, BitVec.setWidth_eq,
      BitVec.setWidth_eq]
  unfold stopped
  by_cases hcount : a.cmd.stopSrc = trigCount
  · have ht : total s a = some (a.cmd.stopArg.toNat * (cfcBytesPerScan s a).toNat) := if_pos hcount
    have hiff := toInt_pos_iff_of_compares (h _ ht)
    rw [hstop, ht]
    change _ = BitVec.ofNat 32 (min n _)
    split
    · next hlt => rw [Nat.min_eq_right (Nat.le_of_lt (hiff.mp hlt.2))]
    · next hge => rw [Nat.min_eq_left (Nat.not_lt.mp fun hlt => hge ⟨hcount, hiff.mpr hlt⟩)]
  · have ht : total s a = none := if_neg hcount
    rw [if_neg fun hc => hcount hc.1, ht]
    rfl

theorem limited_le (t : Option Nat) (n : Nat) : limited t n ≤ n := by
  cases t with
  | none => exact Nat.le_refl n
  | some m => exact Nat.min_le_left n m

theorem limited_mono (t : Option Nat) {m n : Nat} (h : m ≤ n) : limited t m ≤ limited t n := by
  cases t with
  | none => exact h
  | some k =>
    change min m k ≤ min n k
    omega

/-- What has been consumed is behind every upper bound, and the lower bound is behind it by no
more than is in transit. -/
theorem Driven.bounds (h : Driven s t st μ) (hx : Consistent st x) :
    st.consumed ≤ limited t (upper x) ∧ st.consumed ≤ limited t (lower x) + 255 ∧
      limited t (lower x) ≤ limited t (upper x) := by
  have hm := h.le_memory
  have hmd := h.memory_le
  have hd := hx.device_le
  have hmx := hx.memory_le
  have hl := hx.lower_le
  have hu := hx.le_upper
  have hlow : x.deviceLb ≤ lower x := Nat.le_add_right _ _
  refine ⟨?_, ?_, limited_mono t (by omega)⟩
  · cases t with
    | none => exact show _ ≤ upper x by omega
    | some n =>
      have := h.le_total n rfl
      change _ ≤ min (upper x) n
      omega
  · cases t with
    | none => exact show _ ≤ lower x + 255 by omega
    | some n =>
      have := h.le_total n rfl
      change _ ≤ min (lower x) n + 255
      omega

theorem Driven.allocEnd_eq (h : Driven s t st μ) : allocEnd st = μ.readAlloc := by
  have hc := μ.chain
  have hlt := h.located.cap_lt
  unfold allocEnd
  rw [h.consumed, h.located.tracks.readAllocCount, h.located.tracks.readCount,
    toNat_ofNat_sub hc.1 (by omega)]
  omega

/-- The region that the code allocates at the start of a call takes all that has been written. -/
theorem Driven.readAlloc (h : Driven s t st μ) :
    (comediBufReadAlloc st.async st.async.preallocBufsz).2 =
      { st.async with bufReadAllocCount := .ofNat 32 (μ.acquire cap).readAlloc } := by
  have hsz := h.located.tracks.bufsz
  have hlt := h.located.cap_lt
  rw [readAlloc_spec hlt h.located.tracks (by omega), hsz]

/-- The buffer after a call that frees `n` bytes. -/
def freed (a : Async) (μ : Marks cap) (n : Nat) : Async :=
  { a with
    bufReadAllocCount := .ofNat 32 (μ.acquire cap).readAlloc
    bufReadCount := .ofNat 32 ((μ.acquire cap).release n).read
    bufReadPtr := (a.bufReadPtr +
      .ofNat 32 (min n ((μ.acquire cap).readAlloc - (μ.acquire cap).read))) % a.preallocBufsz
    events := a.events ||| comediCbBlock }

/-- All that a call can do: report an underrun, do nothing, or free up to the lower bound. -/
theorem miteSyncOutputDma_cases (h : Driven s t st μ) (hx : Consistent st x)
    (hn : Comparable s st x) :
    miteSyncOutputDma s st.async x.registers = .ok (-1, { st.async with
        bufReadAllocCount := .ofNat 32 (μ.acquire cap).readAlloc
        events := st.async.events ||| comediCbOverflow }) ∨
    (limited t (lower x) ≤ μ.read ∧
      miteSyncOutputDma s st.async x.registers = .ok (0, { st.async with
        bufReadAllocCount := .ofNat 32 (μ.acquire cap).readAlloc })) ∨
    ∃ n, limited t (lower x) = μ.read + n ∧ μ.read + n ≤ μ.readAlloc ∧
      miteSyncOutputDma s st.async x.registers = .ok (0, freed st.async μ n) := by
  have hc := μ.chain
  have hlt := h.located.cap_lt
  have hread := h.consumed
  obtain ⟨hup, hlow, hle⟩ := h.bounds hx
  have hunder := toInt_pos_iff_of_compares hn.alloc
  rw [h.allocEnd_eq, h.total_eq] at hunder
  have hlb := stopped_eq s st.async hn.lower
  have hub := stopped_eq s st.async hn.upper
  rw [← lb_eq, h.total_eq] at hlb
  rw [← ub_eq, h.total_eq] at hub
  unfold miteSyncOutputDma
  dsimp only
  rw [h.readAlloc]
  dsimp only
  rw [hlb, hub, h.located.tracks.readAllocCount]
  by_cases hover : μ.readAlloc < limited t (upper x)
  · rw [if_pos (hunder.mpr hover)]
    exact .inl rfl
  rw [if_neg (mt hunder.mp hover)]
  have hcount : (BitVec.ofNat 32 (limited t (lower x)) - st.async.bufReadCount).toInt =
      (limited t (lower x) : Int) - μ.read := by
    rw [h.located.tracks.readCount, ← BitVec.ofInt_natCast, ← BitVec.ofInt_natCast]
    refine toInt_ofInt_sub (by omega) ?_ ?_
    · change -(2 : Int) ^ 31 ≤ _
      omega
    · change _ < (2 : Int) ^ 31
      omega
  rw [hcount]
  by_cases hz : (limited t (lower x) : Int) - μ.read ≤ 0
  · rw [if_pos hz]
    exact .inr (.inl ⟨by omega, rfl⟩)
  obtain ⟨n, hn⟩ : ∃ n, limited t (lower x) = μ.read + n := ⟨limited t (lower x) - μ.read, by omega⟩
  have hsub : BitVec.ofNat 32 (limited t (lower x)) - st.async.bufReadCount = .ofNat 32 n := by
    rw [hn, h.located.tracks.readCount, ofNat_sub_ofNat_of_le (by omega), Nat.add_sub_cancel_left]
  have hfree := readFree_spec (n := .ofNat 32 n) hlt (h.located.acquire cap).tracks
    h.located.cap_pos (by rw [toNat_ofNat_of_lt (by omega)]; omega)
  rw [toNat_ofNat_of_lt (by omega)] at hfree
  rw [if_neg hz, hsub]
  exact .inr (.inr ⟨n, hn, by omega, bind_ok hfree _⟩)

theorem freed_located (h : Located s st.async μ) (n : Nat) :
    Located s (freed st.async μ n) ((μ.acquire cap).release n) :=
  ((h.acquire cap).release n).events _

/-- A call that leaves the buffer in order leaves the output in order. -/
theorem Driven.of_sync (h : Driven s t st μ) (hx : Consistent st x) {ret : Int} {a : Async}
    {ν : Marks cap} (he : miteSyncOutputDma s st.async x.registers = .ok (ret, a))
    (ha : Located s a ν) (hcmd : a.cmd = st.async.cmd)
    (hread : ν.read = if ret = 0 then max μ.read (limited t (lower x)) else μ.read) :
    ∃ st', sync s st x = .ok (ret, st') ∧ st'.async = a ∧ st'.consumed = ν.read ∧
      Driven s t st' ν := by
  have hcons : (if ret = 0 then max st.consumed (limited (total s st.async) (lower x))
      else st.consumed) = ν.read := by
    rw [hread, h.consumed, h.total_eq]
  have hm := h.le_memory
  have hmx := hx.memory_le
  have hl := hx.lower_le
  have hlim := limited_le t (lower x)
  have hct := h.consumed
  refine ⟨{
    async := a
    device := x.deviceUb
    memory := x.memory
    consumed := if ret = 0 then max st.consumed (limited (total s st.async) (lower x))
      else st.consumed }, bind_ok he _, rfl, hcons, ha, hcons, ?_, ?_,
    (total_congr s hcmd).trans h.total_eq, fun n hn => ?_⟩
  · dsimp only
    rw [hcons, hread]
    split
    · omega
    · omega
  · have := hx.le_upper
    have ht := MiteSync.inTransit_le x.fcrUb
    have hu : upper x = x.deviceUb + (miteBytesInTransit x.fcrUb).toNat := rfl
    dsimp only
    omega
  · have hle := h.le_total n hn
    have hmin : limited t (lower x) ≤ n := by
      rw [hn]
      exact Nat.min_le_right _ _
    dsimp only
    rw [hcons, hread]
    split
    · omega
    · omega

theorem sync_step (h : Driven s t st μ) (hx : Consistent st x) (hn : Comparable s st x) :
    ∃ ret st', sync s st x = .ok (ret, st') ∧
      (ret = -1 ∨ ret = 0 ∧ st'.async.bufReadCount = .ofNat 32 st'.consumed ∧
        st'.consumed = max st.consumed (limited (total s st.async) (lower x))) ∧
      ∃ ν : Marks cap, Driven s t st' ν := by
  have hc := μ.chain
  rw [h.total_eq, h.consumed]
  obtain he | ⟨hle, he⟩ | ⟨n, heq, hle, he⟩ := miteSyncOutputDma_cases h hx hn
  · obtain ⟨st', hst, -, -, hd⟩ := h.of_sync hx he ((h.located.acquire cap).events _) rfl rfl
    exact ⟨-1, st', hst, .inl rfl, _, hd⟩
  · have hread : (μ.acquire cap).read = if (0 : Int) = 0 then max μ.read (limited t (lower x))
        else μ.read := (Nat.max_eq_left hle).symm
    obtain ⟨st', hst, ha, hcons, hd⟩ := h.of_sync hx he (h.located.acquire cap) rfl hread
    refine ⟨0, st', hst, .inr ⟨rfl, ?_, hcons.trans hread⟩, _, hd⟩
    rw [hd.located.tracks.readCount, hcons]
  · have hrel : ((μ.acquire cap).release n).read = μ.read + n := by
      change μ.read + min n (μ.readAlloc + min cap (μ.ready - μ.readAlloc) - μ.read) = _
      omega
    have hread : ((μ.acquire cap).release n).read =
        if (0 : Int) = 0 then max μ.read (limited t (lower x)) else μ.read := by
      rw [hrel, heq, if_pos rfl]
      omega
    obtain ⟨st', hst, ha, hcons, hd⟩ := h.of_sync hx he (freed_located h.located n) rfl hread
    refine ⟨0, st', hst, .inr ⟨rfl, ?_, hcons.trans hread⟩, _, hd⟩
    rw [hd.located.tracks.readCount, hcons]

theorem Driven.of_async (h : Driven s t st μ) {a : Async} {ν : Marks cap} (ha : Located s a ν)
    (hread : ν.read = μ.read) (hcmd : a.cmd = st.async.cmd) :
    Driven s t { st with async := a } ν where
  located := ha
  consumed := h.consumed.trans hread.symm
  le_memory := h.le_memory
  memory_le := h.memory_le
  total_eq := (total_congr s hcmd).trans h.total_eq
  le_total := h.le_total

theorem outputStep_keeps (st : Output) (i : OutputStep) (h : ∃ μ : Marks cap, Driven s t st μ)
    (hfit : StepFits s st i) :
    ∃ st', outputStep s st i = .ok st' ∧ ∃ ν : Marks cap, Driven s t st' ν := by
  obtain ⟨μ, h⟩ := h
  have hlt := h.located.cap_lt
  have ht := h.located.tracks
  have hc := μ.chain
  cases i with
  | sync x =>
    obtain ⟨ret, st', he, -, hν⟩ := sync_step h hfit.1 hfit.2
    exact ⟨st', bind_ok he _, hν⟩
  | writeAlloc n =>
    have hn : n.toNat < 2 ^ 31 + μ.room := tracks_room hlt ht ▸ hfit.1
    refine ⟨_, rfl, μ.reserve n.toNat, ?_⟩
    rw [writeAlloc_spec hlt ht hn]
    exact h.of_async (h.located.reserve _) rfl rfl
  | writeFree n =>
    have hn : n.toNat < 2 ^ 31 + (μ.writeAlloc - μ.written) := by
      have hf : n.toNat < 2 ^ 31 +
        (st.async.bufWriteAllocCount - st.async.bufWriteCount).toNat := hfit.1
      rwa [ht.writeAllocCount, ht.writeCount, toNat_ofNat_sub (by omega) (by omega)] at hf
    refine ⟨_, bind_ok (writeFree_spec hlt ht h.located.mungeOk hn) _, _,
      h.of_async (h.located.writeFreed n.toNat) rfl ?_⟩
    exact advanceMunge_proj (·.cmd) (fun _ _ _ _ _ _ => rfl) s _ _
  | events e => exact ⟨_, rfl, μ, h.of_async (h.located.events e) rfl rfl⟩

theorem driven_start {a : Async} (h : MiteSync.Acquires s a) :
    Driven s (total s a) (start a) (Marks.start a.preallocBufsz.toNat) where
  located := (MiteSync.synced_start h).located
  consumed := rfl
  le_memory := Nat.le_refl 0
  memory_le := Nat.zero_le _
  total_eq := total_congr s rfl
  le_total n _ := Nat.zero_le n

/-- In every run in which the counts can be compared with the total and with the end of the
allocated region, every call that does not report an underrun frees what has been consumed. -/
theorem output_exact {s : Subdevice} {a : Async} (ha : MiteSync.Acquires s a)
    {steps : List OutputStep} (hfit : AllFit (outputStep s) (StepFits s) (start a) steps) :
    AllFit (outputStep s) (StepExact s) (start a) steps ∧
      ∃ st, run (outputStep s) (start a) steps = .ok st := by
  let inv (st : Output) : Prop :=
    ∃ μ : Marks a.preallocBufsz.toNat, Driven s (total s a) st μ
  have hinv : inv (start a) := ⟨_, driven_start ha⟩
  have hkeep : ∀ st i, inv st → StepFits s st i → ∃ st', outputStep s st i = .ok st' ∧ inv st' :=
    outputStep_keeps
  constructor
  · refine AllFit.of_invariant inv (fun st i st' hI hi he => ?_) (fun st i hI hi => ?_) hinv hfit
    · obtain ⟨st₁, he₁, h₁⟩ := hkeep st i hI hi
      cases he₁.symm.trans he
      exact h₁
    · obtain ⟨μ, h⟩ := hI
      cases i with
      | sync x =>
        obtain ⟨ret, st', he, hx, -⟩ := sync_step h hi.1 hi.2
        exact ⟨ret, st', he, hx⟩
      | writeAlloc n => trivial
      | writeFree n => trivial
      | events e => trivial
  · obtain ⟨st, hrun, -⟩ := run_total inv hkeep hinv hfit
    exact ⟨st, hrun⟩

/-- One channel of two bytes. -/
def oneChannel (stopArg : U32) : Async where
  preallocBufsz := 4096
  cmd := { chanlistLen := 1, stopSrc := trigCount, stopArg := stopArg }

/-- All bytes that have been read from memory are at the device. -/
def passed (n : Nat) : Reading := ⟨n, 0, 0, n, n⟩

theorem transit_zero : (miteBytesInTransit 0).toNat = 0 := by decide

theorem upper_passed (n : Nat) : upper (passed n) = n := by
  change n + (miteBytesInTransit 0).toNat = n
  rw [transit_zero, Nat.add_zero]

theorem lower_passed (n : Nat) : lower (passed n) = n := upper_passed n

theorem consistent_passed {n : Nat} (hd : st.device ≤ n) (hm : st.memory ≤ n) :
    Consistent st (passed n) where
  device_le := hd
  deviceLb_le := Nat.le_refl n
  memory_le := hm
  lower_le := Nat.le_of_eq (lower_passed n)
  le_upper := Nat.le_of_eq (upper_passed n).symm

theorem comparable_of_lt (t : Nat) (ht : total s st.async = some t) {n : Nat} (hn : n ≤ t)
    (htn : t ≤ n + 2 ^ 31) (hle : n ≤ allocEnd st) (hlt : allocEnd st ≤ n + 2 ^ 31) :
    Comparable s st (passed n) where
  lower t' ht' := by
    cases ht.symm.trans ht'
    rw [lower_passed]
    exact ⟨fun _ => (Nat.mod_le _ _).trans (by omega), fun h => absurd h (Nat.not_lt.mpr hn)⟩
  upper t' ht' := by
    cases ht.symm.trans ht'
    rw [upper_passed]
    exact ⟨fun _ => (Nat.mod_le _ _).trans (by omega), fun h => absurd h (Nat.not_lt.mpr hn)⟩
  alloc := by
    have hlim : limited (total s st.async) (upper (passed n)) = n := by
      rw [ht, upper_passed]
      exact Nat.min_eq_left hn
    rw [hlim]
    exact ⟨fun _ => (Nat.mod_le _ _).trans (by omega), fun h => absurd h (Nat.not_lt.mpr hle)⟩

/-- Two scans are written, and read by the device after they have been allocated for it. -/
def twoScans : List OutputStep :=
  [.writeAlloc 4, .writeFree 4, .sync (passed 0), .sync (passed 4)]

/-- The two scans are in the buffer, of which `n` bytes are allocated for the device. -/
def filled (stopArg n : U32) : Output where
  async := { oneChannel stopArg with
    bufWriteAllocCount := 4, bufWriteCount := 4, bufWritePtr := 4, mungeCount := 4,
    bufReadAllocCount := n }

theorem output_exact_two :
    AllFit (outputStep {}) (StepExact {}) (start (oneChannel 2)) twoScans ∧
      ∃ st, run (outputStep {}) (start (oneChannel 2)) twoScans = .ok st := by
  have hempty : StepFits {} (filled 2 0) (.sync (passed 0)) :=
    ⟨consistent_passed (Nat.le_refl 0) (Nat.le_refl 0),
      comparable_of_lt 4 rfl (by decide) (by decide) (by decide) (by decide)⟩
  have hsync : outputStep {} (filled 2 0) (.sync (passed 0)) = .ok (filled 2 4) := rfl
  refine output_exact ⟨by decide, by decide, by decide, by decide⟩ ?_
  refine .cons ⟨Nat.lt_add_right _ (by decide), trivial⟩ rfl ?_
  refine .cons ⟨Nat.lt_add_right _ (by decide), trivial⟩
    (show _ = Except.ok (filled 2 0) from rfl) ?_
  refine .cons hempty hsync ⟨?_, fun _ _ => trivial⟩
  exact ⟨consistent_passed (Nat.zero_le 4) (Nat.zero_le 4),
    comparable_of_lt 4 rfl (by decide) (by decide) (by decide) (by decide)⟩

/-- With a total of `2 ^ 31 + 8` bytes nothing is freed: the total passes for less than the four
bytes that the device has read. -/
theorem long_output :
    AllFit (outputStep {}) StepConsistent (start (oneChannel 0x40000004)) twoScans ∧
      ∃ st st', run (outputStep {}) (start (oneChannel 0x40000004)) (twoScans.take 3) = .ok st ∧
        sync {} st (passed 4) = .ok (0, st') ∧ st'.consumed = 4 ∧ st'.async.bufReadCount = 0 := by
  have hsync : outputStep {} (filled 0x40000004 0) (.sync (passed 0)) =
      .ok (filled 0x40000004 4) := rfl
  constructor
  · refine .cons (Nat.lt_add_right _ (by decide)) rfl ?_
    refine .cons (Nat.lt_add_right _ (by decide))
      (show _ = Except.ok (filled 0x40000004 0) from rfl) ?_
    refine .cons (consistent_passed (Nat.le_refl 0) (Nat.le_refl 0)) hsync
      ⟨?_, fun _ _ => trivial⟩
    exact consistent_passed (Nat.zero_le 4) (Nat.zero_le 4)
  · exact ⟨filled 0x40000004 4, _, rfl, rfl, by decide, by decide⟩

end Comedi.MiteOutput
