import Comedi.Bufinfo
import Comedi.GuardedRuns

namespace Comedi.BufinfoOrder

open AsyncBuffer RunState RingMarks RingCounters MungeBlocks Bufinfo SerialCounter

/-- A buffer whose counters are in order, with what munging needs. -/
structure InRing (s : Subdevice) (a : Async) : Prop where
  order : RingOrder a
  munge : MungeOk s a

variable {s : Subdevice} {a : Async} {n : U32}

theorem InRing.bufsz_pos (h : InRing s a) : 0 < a.preallocBufsz.toNat := by
  have := BitVec.lt_def.mp h.munge.ptr_lt
  omega

theorem InRing.of_tracks {cap : Nat} {μ : Marks cap} (hm : MungeOk s a) (h : Tracks a μ) :
    InRing s a :=
  ⟨h.ringOrder (by have := hm.bufsz_lt; have := h.bufsz; omega), hm⟩

theorem tracks_readable {cap : Nat} {μ : Marks cap} (hcap : cap < 2 ^ 31) (h : Tracks a μ) :
    (a.mungeCount - a.bufReadAllocCount).toNat = μ.ready - μ.readAlloc := by
  have := μ.chain
  rw [h.mungeCount, h.readAllocCount, toNat_ofNat_sub (by omega) (by omega)]

/-- The free space of the buffer. -/
def room (a : Async) : Nat := (a.bufReadCount + a.preallocBufsz - a.bufWriteAllocCount).toNat

theorem tracks_room {cap : Nat} {μ : Marks cap} (hcap : cap < 2 ^ 31) (h : Tracks a μ) :
    room a = μ.room := by
  have := μ.chain
  rw [room, h.freeEnd, h.writeAllocCount, toNat_ofNat_sub (by omega) (by omega)]
  rfl

theorem InRing.readAlloc (h : InRing s a)
    (hn : n.toNat < 2 ^ 31 + (a.mungeCount - a.bufReadAllocCount).toNat) :
    InRing s (comediBufReadAlloc a n).2 ∧ (comediBufReadAlloc a n).1.toNat < 2 ^ 31 := by
  have hcap := h.munge.bufsz_lt
  obtain ⟨μ, hμ⟩ := h.order.exists_tracks
  have := μ.chain
  rw [tracks_readable hcap hμ] at hn
  rw [readAlloc_spec hcap hμ hn]
  refine ⟨.of_tracks ⟨h.munge.ptr_lt, hcap, h.munge.chanlistLen⟩ (hμ.acquire _), ?_⟩
  rw [toNat_ofNat_of_lt (by omega)]
  omega

theorem InRing.readFree (h : InRing s a)
    (hn : n.toNat < 2 ^ 31 + (a.bufReadAllocCount - a.bufReadCount).toNat) :
    ∃ m a', comediBufReadFree a n = .ok (m, a') ∧ InRing s a' ∧ room a ≤ room a' := by
  have hcap := h.munge.bufsz_lt
  obtain ⟨μ, hμ⟩ := h.order.exists_tracks
  have := μ.chain
  rw [hμ.readCount, hμ.readAllocCount, toNat_ofNat_sub (by omega) (by omega)] at hn
  refine ⟨_, _, readFree_spec hcap hμ h.bufsz_pos hn,
    .of_tracks ⟨h.munge.ptr_lt, hcap, h.munge.chanlistLen⟩ (hμ.release _ _), ?_⟩
  rw [tracks_room hcap hμ, tracks_room hcap (hμ.release _ _)]
  simp only [Marks.room, Marks.release]
  omega

theorem InRing.writeAlloc (h : InRing s a)
    (hn : n.toNat < 2 ^ 31 + room a) :
    InRing s (comediBufWriteAlloc a n).2 ∧ (comediBufWriteAlloc a n).1.toNat < 2 ^ 31 := by
  have hcap := h.munge.bufsz_lt
  obtain ⟨μ, hμ⟩ := h.order.exists_tracks
  have := μ.room_le
  rw [tracks_room hcap hμ] at hn
  rw [writeAlloc_spec hcap hμ hn]
  refine ⟨.of_tracks ⟨h.munge.ptr_lt, hcap, h.munge.chanlistLen⟩ (hμ.reserve _), ?_⟩
  rw [toNat_ofNat_of_lt (by omega)]
  omega

theorem InRing.writeAllocStrict (h : InRing s a) (hn : n.toNat < 2 ^ 31 + room a) :
    InRing s (comediBufWriteAllocStrict a n).2 := by
  have hcap := h.munge.bufsz_lt
  obtain ⟨μ, hμ⟩ := h.order.exists_tracks
  rw [tracks_room hcap hμ] at hn
  rw [writeAllocStrict_spec hcap hμ hn]
  split
  · exact .of_tracks ⟨h.munge.ptr_lt, hcap, h.munge.chanlistLen⟩ (hμ.reserve _)
  · exact h

theorem InRing.writeFree (h : InRing s a)
    (hn : n.toNat < 2 ^ 31 + (a.bufWriteAllocCount - a.bufWriteCount).toNat) :
    ∃ m a', comediBufWriteFree s a n = .ok (m, a') ∧ InRing s a' := by
  have hcap := h.munge.bufsz_lt
  obtain ⟨μ, hμ⟩ := h.order.exists_tracks
  have := μ.chain
  rw [hμ.writeCount, hμ.writeAllocCount, toNat_ofNat_sub (by omega) (by omega)] at hn
  exact ⟨_, _, writeFree_spec hcap hμ h.munge hn,
    .of_tracks (h.munge.writeFreed μ _) (tracks_writeFreed hμ h.munge _)⟩

theorem InRing.reset (h : InRing s a) : InRing s (comediResetAsyncBuf a) :=
  .of_tracks ⟨by rw [BitVec.lt_def]; exact h.bufsz_pos, h.munge.bufsz_lt, h.munge.chanlistLen⟩
    (Tracks.start a)

/-- `MungeOk` and the ring order look at the subdevice only for its sample format. -/
theorem InRing.congr {s' : Subdevice} {a' : Async} (h : InRing s a) (hm : s'.munge = s.munge)
    (ha : a' = { a with
      cmd := { a.cmd with chanlist := a'.cmd.chanlist }
      inttrig := a'.inttrig
      chanlistAllocs := a'.chanlistAllocs }) : InRing s' a' := by
  rw [ha]
  refine ⟨⟨h.order.readAlloc_le, h.order.munge_le, h.order.write_le, h.order.writeAlloc_le⟩,
    h.munge.ptr_lt, h.munge.bufsz_lt, fun hmu => h.munge.chanlistLen ⟨?_, hmu.2⟩⟩
  rw [← hm]
  exact hmu.1

theorem InRing.events (h : InRing s a) (events : U32) : InRing s { a with events := events } :=
  ⟨⟨h.order.readAlloc_le, h.order.munge_le, h.order.write_le, h.order.writeAlloc_le⟩,
    h.munge.ptr_lt, h.munge.bufsz_lt, h.munge.chanlistLen⟩

theorem InRing.preallocBuf (h : InRing s a) (mem : Nat → Byte) :
    InRing s { a with preallocBuf := mem } :=
  ⟨⟨h.order.readAlloc_le, h.order.munge_le, h.order.write_le, h.order.writeAlloc_le⟩,
    h.munge.ptr_lt, h.munge.bufsz_lt, h.munge.chanlistLen⟩

/-- The subdevice has a buffer in order. -/
def Ringed (s : Subdevice) : Prop := ∃ a, s.async = some a ∧ InRing s a

theorem room_le_bufsz (h : InRing s a) : room a ≤ a.preallocBufsz.toNat := by
  obtain ⟨μ, hμ⟩ := h.order.exists_tracks
  rw [tracks_room h.munge.bufsz_lt hμ]
  exact μ.room_le

theorem InRing.idle (h : InRing s a) : InRing s (idleAsync a) := h.reset.congr rfl rfl

theorem room_idle (a : Async) : room (idleAsync a) = a.preallocBufsz.toNat := by
  change (0 + a.preallocBufsz - 0).toNat = _
  rw [zero_add, sub_zero]

theorem readRequest_order (h : InRing s a)
    (hn : n.toNat < 2 ^ 31 + (a.mungeCount - a.bufReadAllocCount).toNat) :
    ∃ m a', readRequest a n = .ok (m, a') ∧ InRing s a' ∧ room a ≤ room a' := by
  unfold readRequest
  split
  · exact ⟨n, a, rfl, h, le_rfl⟩
  · obtain ⟨ha, hlt⟩ := h.readAlloc hn
    obtain ⟨m, a', hf, h', hr⟩ := ha.readFree (n := (comediBufReadAlloc a n).1) (by omega)
    exact ⟨_, a', by simp only [hf]; rfl, h', hr⟩

theorem writeRequest_order (h : InRing s a) (hn : n.toNat < 2 ^ 31 + room a) :
    ∃ m a', writeRequest s a n = .ok (m, a') ∧ InRing s a' := by
  unfold writeRequest
  split
  · exact ⟨n, a, rfl, h⟩
  · obtain ⟨ha, hlt⟩ := h.writeAlloc hn
    obtain ⟨m, a', hf, h'⟩ := ha.writeFree (n := (comediBufWriteAlloc a n).1) (by omega)
    exact ⟨_, a', by simp only [hf]; rfl, h'⟩

theorem afterRead_subdevFlags (b : Board) (s : Subdevice) (a : Async) (n : U32) :
    (afterRead b s a n).2.2.subdevFlags = s.subdevFlags := by
  unfold afterRead
  split
  · by_cases hrun : s.runflags &&& (srfRunning ||| srfError) = 0
    · simp only [if_pos hrun, doBecomeNonbusy_snd]
    · simp only [if_neg hrun]
  · rfl

/-- Going idle leaves a buffer in order, with all its space free. -/
theorem afterRead_order (b : Board) (h : InRing s a) (n : U32) :
    ∃ a', (afterRead b s a n).2.2.async = some a' ∧ InRing (afterRead b s a n).2.2 a' ∧
      room a ≤ room a' := by
  have hs : InRing { s with async := some a } a := h.congr rfl rfl
  unfold afterRead
  split
  · by_cases hrun : s.runflags &&& (srfRunning ||| srfError) = 0
    · simp only [if_pos hrun, doBecomeNonbusy_snd]
      refine ⟨idleAsync a, rfl, hs.idle.congr rfl rfl, ?_⟩
      rw [room_idle]
      exact room_le_bufsz h
    · simp only [if_neg hrun]
      exact ⟨a, rfl, hs, le_rfl⟩
  · exact ⟨a, rfl, hs, le_rfl⟩

theorem readPart_order (b : Board) (hs : s.async = some a) (h : InRing s a) {bi : Info}
    (hn : s.subdevFlags &&& sdfCmdRead ≠ 0 →
      bi.bytesRead.toNat < 2 ^ 31 + (a.mungeCount - a.bufReadAllocCount).toNat) :
    ∃ r bi' b' s' a', readPart b s a bi = .ok (r, bi', b', s') ∧ s'.async = some a' ∧
      InRing s' a' ∧ room a ≤ room a' ∧ bi'.bytesWritten = bi.bytesWritten ∧
      s'.subdevFlags = s.subdevFlags := by
  unfold readPart
  split
  · exact ⟨0, bi, b, s, a, rfl, hs, h, le_rfl, rfl, rfl⟩
  · next hf =>
    obtain ⟨m, a₁, hreq, h₁, hr₁⟩ := readRequest_order h (hn hf)
    obtain ⟨a₂, hs₂, h₂, hr₂⟩ := afterRead_order b h₁ m
    exact ⟨_, { bi with bytesRead := m }, _, _, a₂, by simp only [hreq]; rfl, hs₂, h₂,
      hr₁.trans hr₂, rfl, afterRead_subdevFlags b s a₁ m⟩

theorem writePart_order (hs : s.async = some a) (h : InRing s a) {bi : Info}
    (hn : s.subdevFlags &&& sdfCmdWrite ≠ 0 → bi.bytesWritten.toNat < 2 ^ 31 + room a) :
    ∃ r bi' s', writePart s a bi = .ok (r, bi', s') ∧ Ringed s' := by
  unfold writePart
  split
  · exact ⟨0, bi, s, rfl, a, hs, h⟩
  · next hf =>
    obtain ⟨m, a₁, hreq, h₁⟩ := writeRequest_order h (hn hf)
    exact ⟨_, _, { s with async := some a₁ }, by simp only [hreq]; rfl, a₁, rfl, h₁.congr rfl rfl⟩

/-- The sizes of a request, where it gets as far as the buffer. -/
def RequestFits (s : Subdevice) (bi : Info) (file : File) : Prop :=
  s.lockedOut file = false → s.busy = some (.file file) → ∀ a, s.async = some a →
    (s.subdevFlags &&& sdfCmdRead ≠ 0 →
      bi.bytesRead.toNat < 2 ^ 31 + (a.mungeCount - a.bufReadAllocCount).toNat) ∧
    (s.subdevFlags &&& sdfCmdWrite ≠ 0 → bi.bytesWritten.toNat < 2 ^ 31 + room a)

theorem doBufinfoIoctl_order (b : Board) (h : Ringed s) {bi : Info} {file : File}
    (hn : RequestFits s bi file) (copyTo : Bool) :
    ∃ r out b' s', doBufinfoIoctl b s bi file copyTo = .ok (r, out, b', s') ∧ Ringed s' := by
  have hcopy : ∀ b' s' bi', Ringed s' → ∃ r out b'' s'',
      (.ok (copyback b' s' bi' copyTo) : Result _) = .ok (r, out, b'', s'') ∧ Ringed s'' := by
    intro b' s' bi' h'
    unfold copyback
    split
    · exact ⟨_, _, _, _, rfl, h'⟩
    · exact ⟨_, _, _, _, rfl, h'⟩
  obtain ⟨a, hs, ha⟩ := h
  unfold doBufinfoIoctl
  by_cases hl : s.lockedOut file = true
  · exact ⟨_, _, _, _, if_pos hl, a, hs, ha⟩
  rw [if_neg hl, hs]
  cases hb : s.busy with
  | none => exact hcopy _ _ _ ⟨a, hs, ha⟩
  | some o =>
    by_cases ho : o = .file file
    swap
    · exact ⟨_, _, _, _, if_pos ho, a, hs, ha⟩
    obtain ⟨hr, hw⟩ := hn (by simpa using hl) (by rw [hb, ho]) a hs
    obtain ⟨r₁, bi₁, b₁, s₁, a₁, hread, hs₁, h₁, hroom, hbi, hflags⟩ := readPart_order b hs ha hr
    obtain ⟨r₂, bi₂, s₂, hwrite, h₂⟩ := writePart_order hs₁ h₁ fun hf => by
      have := hw (by rwa [hflags] at hf)
      rw [hbi]
      omega
    simp only [if_neg (not_not.mpr ho), hread]
    change ∃ r out b' s', (writePart s₁ (s₁.async.getD a) bi₁ >>= fun p =>
      if r₁ ≠ 0 ∨ p.1 ≠ 0 then .ok (-epipe, none, b₁, p.2.2)
      else .ok (copyback b₁ p.2.2 (copybackPosition (p.2.2.async.getD a) p.2.1) copyTo)) = _ ∧ _
    rw [hs₁, Option.getD_some, hwrite]
    change ∃ r out b' s', (if r₁ ≠ 0 ∨ r₂ ≠ 0 then _ else _ : Result _) = _ ∧ _
    split
    · exact ⟨_, _, _, _, rfl, h₂⟩
    · exact hcopy _ _ _ h₂

/-- What can happen to the buffer of a busy subdevice: a request of a user, or a call of the
driver. -/
inductive BufferStep where
  | bufinfo (bi : Info) (file : File) (copyTo : Bool)
  | writeAlloc (n : U32)
  | writeAllocStrict (n : U32)
  | writeFree (n : U32)
  | readAlloc (n : U32)
  | readFree (n : U32)
  | event (events : U32)

def onAsync (st : Board × Subdevice) (f : Async → Result Async) : Result (Board × Subdevice) :=
  match st.2.async with
  | none => .ok st
  | some a => do
    let a ← f a
    return (st.1, { st.2 with async := some a })

def bufferStep (st : Board × Subdevice) : BufferStep → Result (Board × Subdevice)
  | .bufinfo bi file copyTo => do
    let (_, _, b, s) ← doBufinfoIoctl st.1 st.2 bi file copyTo
    return (b, s)
  | .writeAlloc n => onAsync st fun a => .ok (comediBufWriteAlloc a n).2
  | .writeAllocStrict n => onAsync st fun a => .ok (comediBufWriteAllocStrict a n).2
  | .writeFree n => onAsync st fun a => (·.2) <$> comediBufWriteFree st.2 a n
  | .readAlloc n => onAsync st fun a => .ok (comediBufReadAlloc a n).2
  | .readFree n => onAsync st fun a => (·.2) <$> comediBufReadFree a n
  | .event events => do
    let (b, s) ← onAsync st fun a => .ok (raiseEvents a events)
    return (b, (comediEvent b s).1)

/-- No size is so far beyond what is available that the signed comparison misses it. -/
def StepFits (st : Board × Subdevice) : BufferStep → Prop
  | .bufinfo bi file _ => RequestFits st.2 bi file
  | .writeAlloc n => ∀ a, st.2.async = some a → n.toNat < 2 ^ 31 + room a
  | .writeAllocStrict n => ∀ a, st.2.async = some a → n.toNat < 2 ^ 31 + room a
  | .writeFree n => ∀ a, st.2.async = some a →
      n.toNat < 2 ^ 31 + (a.bufWriteAllocCount - a.bufWriteCount).toNat
  | .readAlloc n => ∀ a, st.2.async = some a →
      n.toNat < 2 ^ 31 + (a.mungeCount - a.bufReadAllocCount).toNat
  | .readFree n => ∀ a, st.2.async = some a →
      n.toNat < 2 ^ 31 + (a.bufReadAllocCount - a.bufReadCount).toNat
  | .event _ => True

theorem Ringed.set (h : InRing s a) : Ringed { s with async := some a } :=
  ⟨a, rfl, h.congr rfl rfl⟩

theorem Ringed.comediEvent (b : Board) (h : Ringed s) : Ringed (comediEvent b s).1 := by
  obtain ⟨a, hs, ha⟩ := h
  unfold RunState.comediEvent
  rw [hs]
  dsimp only
  split
  · exact ⟨a, hs, ha⟩
  · exact ⟨{ a with events := 0 }, rfl, (ha.events 0).congr rfl rfl⟩

theorem onAsync_ok {st : Board × Subdevice} {f : Async → Result Async} {a' : Async}
    (hs : st.2.async = some a) (he : f a = .ok a') :
    onAsync st f = .ok (st.1, { st.2 with async := some a' }) := by
  simp only [onAsync, hs, he]
  rfl

theorem bufferStep_order (st : Board × Subdevice) (x : BufferStep) (h : Ringed st.2)
    (hfit : StepFits st x) : ∃ st', bufferStep st x = .ok st' ∧ Ringed st'.2 := by
  have hR := h
  obtain ⟨a, hs, ha⟩ := h
  cases x with
  | bufinfo bi file copyTo =>
    obtain ⟨r, out, b', s', he, h'⟩ := doBufinfoIoctl_order st.1 hR hfit copyTo
    exact ⟨(b', s'), by rw [bufferStep, he]; rfl, h'⟩
  | writeAlloc n => exact ⟨_, onAsync_ok hs rfl, .set (ha.writeAlloc (hfit a hs)).1⟩
  | writeAllocStrict n => exact ⟨_, onAsync_ok hs rfl, .set (ha.writeAllocStrict (hfit a hs))⟩
  | writeFree n =>
    obtain ⟨m, a', he, h'⟩ := ha.writeFree (hfit a hs)
    exact ⟨_, onAsync_ok hs (by rw [he]; rfl), .set h'⟩
  | readAlloc n => exact ⟨_, onAsync_ok hs rfl, .set (ha.readAlloc (hfit a hs)).1⟩
  | readFree n =>
    obtain ⟨m, a', he, h', -⟩ := ha.readFree (hfit a hs)
    exact ⟨_, onAsync_ok hs (by rw [he]; rfl), .set h'⟩
  | event events =>
    have h₁ : Ringed { st.2 with async := some (raiseEvents a events) } := .set (ha.events _)
    have hraise : onAsync st (fun a => .ok (raiseEvents a events)) =
        .ok (st.1, { st.2 with async := some (raiseEvents a events) }) := onAsync_ok hs rfl
    exact ⟨_, by rw [bufferStep, hraise]; rfl, h₁.comediEvent st.1⟩

/-- In a run whose sizes all fit no `BUG()` is reached and the ring stays in order. -/
theorem run_order (st : Board × Subdevice) (steps : List BufferStep) (h : Ringed st.2)
    (hfit : GuardedRuns.AllFit bufferStep StepFits st steps) :
    ∃ st', GuardedRuns.run bufferStep st steps = .ok st' ∧ Ringed st'.2 :=
  GuardedRuns.run_total (fun st => Ringed st.2) bufferStep_order h hfit

/-- The sizes of a step that the user or the driver chooses. -/
def BufferStep.sizes : BufferStep → List U32
  | .bufinfo bi _ _ => [bi.bytesRead, bi.bytesWritten]
  | .writeAlloc n | .writeAllocStrict n | .writeFree n | .readAlloc n | .readFree n => [n]
  | .event _ => []

/-- A size that a C `int` can hold always fits. -/
theorem stepFits_of_sizes {x : BufferStep} (h : ∀ n ∈ x.sizes, n.toNat < 2 ^ 31)
    (st : Board × Subdevice) : StepFits st x := by
  cases x with
  | bufinfo bi file copyTo =>
    have hr : bi.bytesRead.toNat < 2 ^ 31 := h _ (by simp [BufferStep.sizes])
    have hw : bi.bytesWritten.toNat < 2 ^ 31 := h _ (by simp [BufferStep.sizes])
    exact fun _ _ a _ => ⟨fun _ => by omega, fun _ => by omega⟩
  | event events => trivial
  | _ n =>
    have hn : n.toNat < 2 ^ 31 := h n (by simp [BufferStep.sizes])
    exact fun a _ => by omega

/-- An input subdevice whose owner, file 0, has just started a command. -/
def capture : Subdevice where
  subdevFlags := sdfCmdRead
  async := some { preallocBufsz := 4096, cmd := { chanlistLen := 1 } }
  busy := some (.file 0)
  runflags := srfUser ||| srfRunning

/-- An output subdevice of which the same is true, and whose driver munges. -/
def playback : Subdevice :=
  { capture with subdevFlags := sdfCmdWrite, munge := some fun block _ => block }

theorem capture_ringed : Ringed capture :=
  ⟨_, rfl, ⟨by decide, by decide, by decide, by decide⟩, by decide, by decide, fun _ => by decide⟩

theorem playback_ringed : Ringed playback :=
  ⟨_, rfl, ⟨by decide, by decide, by decide, by decide⟩, by decide, by decide, fun _ => by decide⟩

theorem run_order_capture :
    ∃ st', GuardedRuns.run bufferStep (⟨0, none⟩, capture)
      [.writeAlloc 64, .writeFree 64, .bufinfo { bytesRead := 0x7fffffff } 0 true] = .ok st' ∧
      Ringed st'.2 :=
  run_order _ _ capture_ringed
    (.of_forall (fun x hx => stepFits_of_sizes (by
      simp only [List.mem_cons, List.not_mem_nil, or_false] at hx
      rcases hx with rfl | rfl | rfl <;> simp [BufferStep.sizes])) _)

theorem oversized_request :
    Ringed capture ∧ Ringed playback ∧
    (∃ out b' s', doBufinfoIoctl ⟨0, none⟩ capture { bytesRead := 0x80000000 } 0 true =
      .ok (0, out, b', s') ∧ ¬ Ringed s') ∧
    doBufinfoIoctl ⟨0, none⟩ playback { bytesWritten := 0x80001000 } 0 true = .error .bug := by
  refine ⟨capture_ringed, playback_ringed, ⟨_, _, _, rfl, ?_⟩, ?_⟩
  · rintro ⟨a, ha, h⟩
    cases ha
    exact absurd h.order.writeAlloc_le (by decide)
  · rfl

end Comedi.BufinfoOrder
