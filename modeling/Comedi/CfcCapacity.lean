import Comedi.CfcWrites
import Comedi.RingCopies
import Comedi.StreamFifo
import Comedi.WriteSpecs

namespace Comedi.CfcCapacity

open AsyncBuffer RingMarks RingCounters MungeBlocks BufinfoOrder Fc SerialCounter RingCopies
open StreamFifo WriteSpecs GuardedRuns

/-- A write of the driver, and the steps of a reader. -/
inductive RingStep where
  | write (data : List Byte)
  | readAlloc (n : U32)
  | readFree (n : U32)

def ringStep (s : Subdevice) (a : Async) : RingStep → Result Async
  | .write data => (·.2) <$> cfcWriteArrayToBuffer s a data
  | .readAlloc n => .ok (comediBufReadAlloc a n).2
  | .readFree n => (·.2) <$> comediBufReadFree a n

/-- A buffer in order, for scans that are not empty, with no space allocated to a writer. -/
structure Held (s : Subdevice) (a : Async) : Prop where
  located : ∃ (cap : Nat) (μ : Marks cap), Located s a μ
  unowed : a.bufWriteAllocCount = a.bufWriteCount
  scan : cfcBytesPerScan s a ≠ 0

/-- A write that returns 0 changes nothing but the events. -/
def Proper (s : Subdevice) (a : Async) : RingStep → Prop
  | .write data => ∃ r a', cfcWriteArrayToBuffer s a data = .ok (r, a') ∧
      (r = 0 → a' = { a with events := a'.events })
  | _ => True

/-- The sizes are those of an `int`. -/
def RingStep.Sized : RingStep → Prop
  | .write data => data.length < 2 ^ 31
  | .readAlloc n | .readFree n => n.toNat < 2 ^ 31

/-- A write finds space for all of its data, or no space at all. -/
def Fits (a : Async) (x : RingStep) : Prop :=
  x.Sized ∧ ∀ data, x = .write data → data.length ≤ room a ∨ room a = 0

/-- When everything written has been read, all of the buffer can be written. -/
def Whole (s : Subdevice) (a : Async) : Prop :=
  a.bufReadCount = a.bufWriteCount → ∀ data : List Byte, data.length ≤ a.preallocBufsz.toNat →
    ∃ a', cfcWriteArrayToBuffer s a data = .ok (.ofNat 32 data.length, a')

variable {cap : Nat} {s : Subdevice} {a a' : Async} {μ : Marks cap} {n : U32} {data : List Byte}

theorem ofNat_inj {m k : Nat} (hle : m ≤ k) (hlt : k - m < 2 ^ 32)
    (h : BitVec.ofNat 32 k = BitVec.ofNat 32 m) : k = m := by
  have hz : (BitVec.ofNat 32 k - BitVec.ofNat 32 m).toNat = k - m := toNat_ofNat_sub hle hlt
  rw [h, BitVec.sub_self] at hz
  have h0 : (0#32).toNat = 0 := rfl
  omega

theorem Held.writeAlloc (h : Held s a) (hμ : Located s a μ) : μ.writeAlloc = μ.written := by
  have hc := μ.chain
  have hcap := hμ.cap_lt
  refine ofNat_inj hc.2.2.2.1 (by omega) ?_
  rw [← hμ.tracks.writeAllocCount, ← hμ.tracks.writeCount]
  exact h.unowed

theorem progress_ok (hz : cfcBytesPerScan s a ≠ 0) (n : U32) :
    ∃ p e, incrementScanProgress s a n = .ok { a with scanProgress := p, events := e } := by
  unfold incrementScanProgress
  dsimp only
  split
  · rw [show umod (a.scanProgress + n) (cfcBytesPerScan s a) = .ok _ from if_neg hz]
    exact ⟨_, _, rfl⟩
  · exact ⟨_, a.events, rfl⟩

theorem Located.progress (h : Located s a μ) (p e : U32) :
    Located s { a with scanProgress := p, events := e } μ :=
  ⟨⟨h.tracks.bufsz, h.tracks.readCount, h.tracks.readAllocCount, h.tracks.mungeCount,
      h.tracks.writeCount, h.tracks.writeAllocCount⟩,
    ⟨h.mungeOk.ptr_lt, h.mungeOk.bufsz_lt, h.mungeOk.chanlistLen⟩, h.writePtr, h.readPtr⟩

/-- What is stored in space that was allocated for it leaves nothing allocated. -/
theorem store_fits (h : Located s a μ) (hw : μ.writeAlloc = μ.written)
    (hz : cfcBytesPerScan s a ≠ 0) (hfit : data.length ≤ μ.room) :
    ∃ a', cfcStore s { a with bufWriteAllocCount := .ofNat 32 (μ.reserve data.length).writeAlloc }
        data (.ofNat 32 data.length) = .ok (.ofNat 32 data.length, a') ∧ Held s a' := by
  have hcap := h.cap_lt
  have hroom := μ.room_le
  have hn : (BitVec.ofNat 32 data.length).toNat = data.length := toNat_ofNat_of_lt (by omega)
  have hres : (μ.reserve data.length).writeAlloc = μ.written + data.length := by
    change μ.writeAlloc + min data.length μ.room = _
    omega
  have h₁ := h.reserve data.length
  let a₁ : Async := { a with bufWriteAllocCount := .ofNat 32 (μ.reserve data.length).writeAlloc }
  let a₂ : Async := { a₁ with preallocBuf := put a.preallocBuf cap μ.written data }
  have h₂ : Located s a₂ (μ.reserve data.length) := h₁.buf _
  have hcopy : comediBufMemcpyTo a₁ 0 data (.ofNat 32 data.length) = .ok a₂ := by
    have hsz := h₁.tracks.bufsz
    have hpos := h.cap_pos
    have hspec : comediBufMemcpyTo a₁ 0 data (.ofNat 32 data.length) = _ :=
      memcpyTo_spec (hsz ▸ hpos) h₁.mungeOk.bufsz_lt (by rw [hsz]; exact h.writePtr)
        (by rw [hsz]; change 0 + data.length ≤ cap; omega)
    rw [h₁.tracks.bufsz] at hspec
    exact hspec
  have hgot : min (BitVec.ofNat 32 data.length).toNat
      ((μ.reserve data.length).writeAlloc - (μ.reserve data.length).written) = data.length := by
    rw [hres, hn]
    change min data.length (μ.written + data.length - μ.written) = _
    omega
  have hfree := writeFree_spec hcap h₂.tracks h₂.mungeOk (n := .ofNat 32 data.length) (by
    rw [hres, hn]
    change data.length < 2 ^ 31 + (μ.written + data.length - μ.written)
    omega)
  rw [hgot, hn] at hfree
  have h₃ := h₂.writeFreed data.length
  have hscan : cfcBytesPerScan s (writeFreed s a₂ (μ.reserve data.length) data.length) ≠ 0 := by
    have hcmd : (writeFreed s a₂ (μ.reserve data.length) data.length).cmd = a.cmd :=
      writeFreed_cmd s a₂ (μ.reserve data.length) data.length
    unfold cfcBytesPerScan at hz ⊢
    rwa [hcmd]
  obtain ⟨p, e, hprog⟩ := progress_ok hscan (.ofNat 32 data.length)
  refine ⟨_, bind_ok hcopy _ |>.trans ((bind_ok hfree _).trans ((bind_ok hprog _).trans rfl)),
    ⟨⟨cap, _, (Located.progress h₃ p e).events _⟩, ?_, hscan⟩⟩
  change (writeFreed s a₂ (μ.reserve data.length) data.length).bufWriteAllocCount =
    (writeFreed s a₂ (μ.reserve data.length) data.length).bufWriteCount
  rw [h₃.tracks.writeAllocCount, h₃.tracks.writeCount]
  change BitVec.ofNat 32 (μ.reserve data.length).writeAlloc =
    BitVec.ofNat 32 (μ.written + min data.length ((μ.reserve data.length).writeAlloc - μ.written))
  rw [hres]
  congr 1
  omega

theorem write_nil (s : Subdevice) (a : Async) : cfcWriteArrayToBuffer s a [] = .ok (0, a) := rfl

theorem numBytes_ne_zero (hne : data ≠ []) (hlen : data.length < 2 ^ 32) :
    BitVec.ofNat 32 data.length ≠ 0 := by
  intro hz
  have hpos := List.length_pos_iff.mpr hne
  have hn : (BitVec.ofNat 32 data.length).toNat = data.length := toNat_ofNat_of_lt hlen
  rw [hz] at hn
  exact absurd hn (Nat.ne_of_lt hpos)

theorem write_fits (h : Held s a) (hne : data ≠ []) (hfit : data.length ≤ room a) :
    ∃ a', cfcWriteArrayToBuffer s a data = .ok (.ofNat 32 data.length, a') ∧ Held s a' := by
  obtain ⟨cap, μ, hμ⟩ := h.located
  have hcap := hμ.cap_lt
  have hroom := μ.room_le
  rw [tracks_room hcap hμ.tracks] at hfit
  have hn : (BitVec.ofNat 32 data.length).toNat = data.length := toNat_ofNat_of_lt (by omega)
  have hlt : (BitVec.ofNat 32 data.length).toNat < 2 ^ 31 + μ.room := by omega
  have hspec := writeAlloc_spec hcap hμ.tracks hlt
  rw [hn, Nat.min_eq_left hfit] at hspec
  obtain ⟨a', hstore, ha'⟩ := store_fits hμ (h.writeAlloc hμ) h.scan hfit
  refine ⟨a', ?_, ha'⟩
  unfold cfcWriteArrayToBuffer
  dsimp only
  rw [if_neg (numBytes_ne_zero hne (by omega)), hspec]
  dsimp only
  rw [if_neg (not_not_intro rfl)]
  exact hstore

/-- A write that does not fit allocates all the space there is, and does not give it back. -/
theorem write_misfit (h : Held s a) (hlen : data.length < 2 ^ 31) (hmis : room a < data.length) :
    cfcWriteArrayToBuffer s a data = .ok (0, { a with
      bufWriteAllocCount := a.bufWriteAllocCount + .ofNat 32 (room a)
      events := a.events ||| comediCbOverflow }) := by
  obtain ⟨cap, μ, hμ⟩ := h.located
  have hcap := hμ.cap_lt
  have hroom := μ.room_le
  have hr := tracks_room hcap hμ.tracks
  have hn : (BitVec.ofNat 32 data.length).toNat = data.length := toNat_ofNat_of_lt (by omega)
  have hlt : (BitVec.ofNat 32 data.length).toNat < 2 ^ 31 + μ.room := by omega
  have hspec := writeAlloc_spec hcap hμ.tracks hlt
  have hres : (μ.reserve data.length).writeAlloc = μ.writeAlloc + room a := by
    change μ.writeAlloc + min data.length μ.room = _
    omega
  rw [hn, hres, ← hr, Nat.min_eq_right hmis.le, BitVec.ofNat_add, ← hμ.tracks.writeAllocCount]
    at hspec
  have hne : data ≠ [] := by
    rintro rfl
    exact absurd hmis (Nat.not_lt_zero _)
  have hshort : BitVec.ofNat 32 (room a) ≠ BitVec.ofNat 32 data.length := by
    intro he
    exact absurd (ofNat_inj hmis.le (by omega) he.symm) (by omega)
  unfold cfcWriteArrayToBuffer
  dsimp only
  rw [if_neg (numBytes_ne_zero hne (by omega)), hspec]
  exact if_pos hshort

theorem proper_iff (h : Held s a) {x : RingStep} (hx : x.Sized) : Proper s a x ↔ Fits a x := by
  cases x with
  | readAlloc n => exact ⟨fun _ => ⟨hx, nofun⟩, fun _ => trivial⟩
  | readFree n => exact ⟨fun _ => ⟨hx, nofun⟩, fun _ => trivial⟩
  | write data =>
    have hlt : room a < 2 ^ 31 := by
      obtain ⟨cap, μ, hμ⟩ := h.located
      have := tracks_room hμ.cap_lt hμ.tracks
      have := μ.room_le
      have := hμ.cap_lt
      omega
    constructor
    · rintro ⟨r, a', hw, hzero⟩
      refine ⟨hx, fun _ he => ?_⟩
      cases he
      by_cases hfit : data.length ≤ room a
      · exact .inl hfit
      rw [write_misfit h hx (by omega)] at hw
      cases hw
      have hc : a.bufWriteAllocCount + BitVec.ofNat 32 (room a) = a.bufWriteAllocCount :=
        congrArg Async.bufWriteAllocCount (hzero rfl)
      have hz : BitVec.ofNat 32 (room a) = BitVec.ofNat 32 0 := by simpa using hc
      exact .inr (ofNat_inj (Nat.zero_le _) (by omega) hz)
    · rintro ⟨-, hfits⟩
      rcases eq_or_ne data [] with rfl | hne
      · exact ⟨0, a, write_nil s a, fun _ => rfl⟩
      by_cases hfit : data.length ≤ room a
      · obtain ⟨a', hw, -⟩ := write_fits h hne hfit
        exact ⟨_, a', hw, fun hz => absurd hz (numBytes_ne_zero hne (by omega))⟩
      · have hz : room a = 0 := (hfits data rfl).resolve_left hfit
        refine ⟨_, _, write_misfit h hx (by omega), fun _ => ?_⟩
        rw [hz]
        simp

theorem Held.events (h : Held s a) (e : U32) : Held s { a with events := e } := by
  obtain ⟨cap, μ, hμ⟩ := h.located
  exact ⟨⟨cap, μ, hμ.events e⟩, h.unowed, h.scan⟩

theorem ringStep_held (h : Held s a) {x : RingStep} (hx : Fits a x) :
    ∃ a', ringStep s a x = .ok a' ∧ Held s a' := by
  obtain ⟨hsize, hfits⟩ := hx
  cases x with
  | write data =>
    rcases eq_or_ne data [] with rfl | hne
    · exact ⟨a, rfl, h⟩
    by_cases hfit : data.length ≤ room a
    · obtain ⟨a', hw, ha'⟩ := write_fits h hne hfit
      exact ⟨a', bind_ok hw _, ha'⟩
    · have hz : room a = 0 := (hfits data rfl).resolve_left hfit
      have hw := write_misfit h hsize (by omega)
      simp only [hz, BitVec.ofNat_eq_ofNat, BitVec.add_zero] at hw
      exact ⟨_, bind_ok hw _, h.events _⟩
  | readAlloc n =>
    obtain ⟨cap, μ, hμ⟩ := h.located
    have hlt : n.toNat < 2 ^ 31 := hsize
    have hspec := readAlloc_spec hμ.cap_lt hμ.tracks (Nat.lt_add_right _ hlt)
    refine ⟨_, rfl, ?_⟩
    rw [hspec]
    exact ⟨⟨cap, _, hμ.acquire n.toNat⟩, h.unowed, h.scan⟩
  | readFree n =>
    obtain ⟨cap, μ, hμ⟩ := h.located
    have hlt : n.toNat < 2 ^ 31 := hsize
    have hspec := readFree_spec hμ.cap_lt hμ.tracks hμ.cap_pos (Nat.lt_add_right _ hlt)
    exact ⟨_, bind_ok hspec _, ⟨cap, _, hμ.release n.toNat⟩, h.unowed, h.scan⟩

theorem Held.whole (h : Held s a) : Whole s a := by
  intro hread data hlen
  obtain ⟨cap, μ, hμ⟩ := h.located
  have hc := μ.chain
  have hcap := hμ.cap_lt
  have hw := h.writeAlloc hμ
  have hr : μ.written = μ.read := by
    refine ofNat_inj (by omega) (by omega) ?_
    rw [← hμ.tracks.writeCount, ← hμ.tracks.readCount, hread]
  rw [hμ.tracks.bufsz] at hlen
  rcases eq_or_ne data [] with rfl | hne
  · exact ⟨a, rfl⟩
  have hroom : room a = cap := by
    rw [tracks_room hcap hμ.tracks, Marks.room]
    omega
  obtain ⟨a', ha', -⟩ := write_fits h hne (by omega)
  exact ⟨a', ha'⟩

/-- As long as every write finds space for all of its data or none at all, a write that fails
changes nothing, and a buffer that has been read can be filled again. A write that finds too
little space, but some, changes more. -/
theorem capacity_kept (h : Held s a) (xs : List RingStep) :
    (AllFit (ringStep s) Fits a xs →
      AllFit (ringStep s) (Proper s) a xs ∧
      ∃ a', run (ringStep s) a xs = .ok a' ∧ Held s a' ∧ Whole s a') ∧
    ((∀ x ∈ xs, x.Sized) →
      (AllFit (ringStep s) (Proper s) a xs ↔ AllFit (ringStep s) Fits a xs)) := by
  have hkeep : ∀ a x a', Held s a → Fits a x → ringStep s a x = .ok a' → Held s a' := by
    intro a x a' ha hx hstep
    obtain ⟨a₁, h₁, ha₁⟩ := ringStep_held ha hx
    rw [hstep] at h₁
    cases h₁
    exact ha₁
  refine ⟨fun hfit => ⟨?_, ?_⟩, fun hsize => ?_⟩
  · exact hfit.of_invariant (Held s) hkeep (fun a x ha hx => (proper_iff ha hx.1).mpr hx) h
  · obtain ⟨a', hrun, ha'⟩ := run_total (Held s) (fun a x ha hx => ringStep_held ha hx) h hfit
    exact ⟨a', hrun, ha', ha'.whole⟩
  · exact AllFit.iff_of_invariant (Held s) RingStep.Sized
      (fun a x ha hx => proper_iff ha hx)
      (fun a x a' ha _ hx hstep => hkeep a x a' ha hx hstep) h hsize

/-- A voltmeter with two bytes for each sample, and an empty buffer of a page. -/
def voltmeter : Subdevice := { type := .ai }

def emptied : Async := { preallocBufsz := 4096, cmd := { chanlistLen := 1 } }

theorem emptied_held : Held voltmeter emptied where
  located := ⟨4096, Marks.start 4096, ⟨⟨rfl, rfl, rfl, rfl, rfl, rfl⟩,
    ⟨by decide, by decide, fun h => Bool.noConfusion h.1⟩, rfl, rfl⟩⟩
  unowed := rfl
  scan := by decide

theorem capacity_kept_sample : ∃ a',
    run (ringStep voltmeter) emptied [.write [1, 2], .readAlloc 2, .readFree 2] = .ok a' ∧
      Held voltmeter a' ∧ Whole voltmeter a' := by
  have hlt : 2 < 2 ^ 31 := by decide
  have hread : ∀ a, Fits a (.readAlloc 2) := fun a => ⟨hlt, nofun⟩
  have hfree : ∀ a, Fits a (.readFree 2) := fun a => ⟨hlt, nofun⟩
  have hwrite : Fits emptied (.write [1, 2]) := by
    refine ⟨hlt, fun data he => ?_⟩
    cases he
    exact .inl (by decide)
  have hfit : AllFit (ringStep voltmeter) Fits emptied
      [.write [1, 2], .readAlloc 2, .readFree 2] :=
    ⟨hwrite, fun a _ => ⟨hread a, fun a _ => ⟨hfree a, fun _ _ => trivial⟩⟩⟩
  exact ((capacity_kept emptied_held _).1 hfit).2

/-- The buffer after a write of more than a page. -/
def failed : Async := { emptied with bufWriteAllocCount := 4096, events := comediCbOverflow }

theorem ringStep_failed (hlen : data.length < 2 ^ 31) (hlong : 4096 < data.length) :
    ringStep voltmeter emptied (.write data) = .ok failed := by
  have hroom : room emptied = 4096 := by decide
  have hw := write_misfit emptied_held hlen (hroom ▸ hlong)
  rw [hroom] at hw
  exact bind_ok hw _

/-- A write that is two bytes too long takes all of the empty buffer: not even two bytes can be
written afterwards, and no reader can free anything. -/
theorem failed_write_takes_space : ¬ ∀ (s : Subdevice) (a : Async) (xs : List RingStep), Held s a →
    (∀ x ∈ xs, x.Sized) → AllFit (ringStep s) (Proper s) a xs ∧
      ∀ a', run (ringStep s) a xs = .ok a' → Whole s a' := by
  intro h
  have hlen : (List.replicate 4098 (0 : Byte)).length = 4098 := List.length_replicate
  generalize List.replicate 4098 (0 : Byte) = data at hlen
  have hsize : ∀ x ∈ [RingStep.write data], x.Sized := by
    intro x hx
    cases List.mem_singleton.mp hx
    exact hlen.trans_lt (by decide)
  have hstep : ringStep voltmeter emptied (.write data) = .ok failed :=
    ringStep_failed (by omega) (by omega)
  obtain ⟨a', ha'⟩ := (h voltmeter emptied _ emptied_held hsize).2 failed (run_cons_ok hstep) rfl
    [1, 2] (by decide)
  have hzero : (cfcWriteArrayToBuffer voltmeter failed [1, 2]).map (·.1) = .ok 0 := by decide
  rw [ha'] at hzero
  have htwo : (2 : U32) = 0 := Except.ok.inj hzero
  exact absurd htwo (by decide)

end Comedi.CfcCapacity
