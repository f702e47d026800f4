import Comedi.ReadSpecs
import Comedi.RingCopies
import Comedi.StreamFifo

namespace Comedi.WriteSpecs

open AsyncBuffer RingMarks RingCounters MungeBlocks SerialCounter ReadWrite ReadSpecs GuardedRuns
open StreamFifo

variable {s s' : Subdevice} {a : Async} {call : IoCall} {pc : Pc} {data : List Byte}

/-- A call is refused at once or gets to its loop as the owner of the command. -/
theorem writeEnter_cases (hs : s.async = some a) (h : writeEnter s call data = .ok (pc, s')) :
    (s' = s ∧ ∃ ret, pc = .returned ret) ∨
    (0 < call.nbytes.val ∧ s.busy = some (.file call.file) ∧
      ∃ a', writeLoop s a call data = .ok (pc, a') ∧ s' = { s with async := some a' }) := by
  simp only [writeEnter, hs] at h
  split at h
  · cases h
    exact .inl ⟨rfl, _, rfl⟩
  next hz =>
  split at h
  · cases h
    exact .inl ⟨rfl, _, rfl⟩
  next o hb =>
  split at h
  · cases h
    exact .inl ⟨rfl, _, rfl⟩
  next ho =>
  obtain ⟨⟨pc', a'⟩, hl, h⟩ := bind_eq_ok h
  cases h
  rw [not_not] at ho
  exact .inr ⟨Nat.pos_of_ne_zero hz, by rw [hb, ho], a', hl, rfl⟩

/-- A call that wakes up returns or goes on as the owner of the command. -/
theorem writeWake_cases {signal : Bool} (hs : s.async = some a)
    (h : writeWake s call data signal = .ok (pc, s')) :
    (s' = s ∧ ∃ ret, pc = .returned ret) ∨
    (s.busy = some (.file call.file) ∧
      ∃ a', writeLoop s a call data = .ok (pc, a') ∧ s' = { s with async := some a' }) := by
  simp only [writeWake, hs] at h
  split at h
  · cases h
    exact .inl ⟨rfl, _, rfl⟩
  split at h
  · cases h
    exact .inl ⟨rfl, _, rfl⟩
  · next heq => cases heq
  next o a₀ hb heq =>
  cases heq
  split at h
  · cases h
    exact .inl ⟨rfl, _, rfl⟩
  next ho =>
  obtain ⟨⟨pc', a'⟩, hl, h⟩ := bind_eq_ok h
  cases h
  rw [not_not] at ho
  exact .inr ⟨by rw [hb, ho], a', hl, rfl⟩

/-- Where a call of `comedi_write` stands that has not copied anything. -/
inductive Turn where
  | asleep
  | copying (n : U32)
  | releaseLock
  | returned (ret : Int)

/-- The loop of `comedi_write` from its head on, up to the copy. -/
def writeHead (s : Subdevice) (a : Async) (call : IoCall) : Turn × Async :=
  if s.runflags &&& srfRunning = 0 then (.releaseLock, a)
  else
    let (n, a) := writeContiguous a (.ofNat 32 call.nbytes)
    if n = 0 then (if call.nonblock then .returned (-eagain) else .asleep, a)
    else (.copying n, a)

/-- The part of a copy of `n` bytes that the user's memory does not fail. -/
def gotAcross (call : IoCall) (n : U32) : U32 :=
  n - (if call.missed ≤ n then call.missed else n)

def copyFromUser (a : Async) (call : IoCall) (data : List Byte) (n : U32) : Async :=
  { a with
    preallocBuf := blit a.preallocBuf a.bufWritePtr.toNat (data.take (gotAcross call n).toNat) }

/-- The rest of the pass, which ends the call. -/
def writeCopy (s : Subdevice) (a : Async) (call : IoCall) (data : List Byte) (n : U32) :
    Result (Int × Async) := do
  let m := if call.missed ≤ n then call.missed else n
  let (_, a) ← comediBufWriteFree s (copyFromUser a call data n) (n - m)
  return (result (n - m) (if m ≠ 0 then -efault else 0), a)

def finishTurn (s : Subdevice) (a : Async) (call : IoCall) (data : List Byte) :
    Turn → Result (Pc × Async)
  | .asleep => .ok (.asleep, a)
  | .releaseLock => .ok (.releaseLock, a)
  | .returned ret => .ok (.returned ret, a)
  | .copying n => do
    let (ret, a) ← writeCopy s a call data n
    return (.returned ret, a)

/-- A pass of the loop in its two parts. -/
theorem writeLoop_eq (s : Subdevice) (a : Async) (call : IoCall) (data : List Byte) :
    writeLoop s a call data =
      finishTurn s (writeHead s a call).2 call data (writeHead s a call).1 := by
  unfold writeLoop writeHead
  by_cases hr : s.runflags &&& srfRunning = 0
  · simp only [if_pos hr]
    rfl
  simp only [if_neg hr]
  by_cases hz : (writeContiguous a (.ofNat 32 call.nbytes)).1 = 0
  · simp only [if_pos hz]
    cases call.nonblock with
    | true => rfl
    | false => rfl
  · simp only [if_neg hz, finishTurn, writeCopy, bind_assoc, pure_bind]
    rfl

variable {cap : Nat} {μ : Marks cap} {a' : Async} {n : U32}

/-- Counters and pointers are those of the stream positions `μ`. -/
structure Located (s : Subdevice) (a : Async) (μ : Marks cap) : Prop where
  tracks : Tracks a μ
  mungeOk : MungeOk s a
  writePtr : a.bufWritePtr.toNat = μ.written % cap
  readPtr : a.bufReadPtr.toNat = μ.read % cap

namespace Located

theorem cap_lt (h : Located s a μ) : cap < 2 ^ 31 := h.tracks.bufsz ▸ h.mungeOk.bufsz_lt

theorem cap_pos (h : Located s a μ) : 0 < cap := by
  have := BitVec.lt_def.mp h.mungeOk.ptr_lt
  have := h.tracks.bufsz
  omega

theorem writePtr_lt (h : Located s a μ) : a.bufWritePtr.toNat < cap := by
  rw [h.writePtr]
  exact Nat.mod_lt _ h.cap_pos

theorem reserve (h : Located s a μ) (n : Nat) :
    Located s { a with bufWriteAllocCount := .ofNat 32 (μ.reserve n).writeAlloc } (μ.reserve n) :=
  ⟨h.tracks.reserve n, ⟨h.mungeOk.ptr_lt, h.mungeOk.bufsz_lt, h.mungeOk.chanlistLen⟩, h.writePtr,
    h.readPtr⟩

theorem acquire (h : Located s a μ) (n : Nat) :
    Located s { a with bufReadAllocCount := .ofNat 32 (μ.acquire n).readAlloc } (μ.acquire n) :=
  ⟨h.tracks.acquire n, ⟨h.mungeOk.ptr_lt, h.mungeOk.bufsz_lt, h.mungeOk.chanlistLen⟩, h.writePtr,
    h.readPtr⟩

theorem release (h : Located s a μ) (n : Nat) :
    Located s { a with
      bufReadCount := .ofNat 32 (μ.release n).read
      bufReadPtr := (a.bufReadPtr + .ofNat 32 (min n (μ.readAlloc - μ.read))) % a.preallocBufsz }
      (μ.release n) := by
  have hc := μ.chain
  refine ⟨h.tracks.release n _, ⟨h.mungeOk.ptr_lt, h.mungeOk.bufsz_lt, h.mungeOk.chanlistLen⟩,
    h.writePtr, ?_⟩
  exact ptr_add h.tracks.bufsz h.cap_pos h.cap_lt h.readPtr (by omega)

theorem buf (h : Located s a μ) (mem : Nat → Byte) : Located s { a with preallocBuf := mem } μ :=
  ⟨⟨h.tracks.bufsz, h.tracks.readCount, h.tracks.readAllocCount, h.tracks.mungeCount,
      h.tracks.writeCount, h.tracks.writeAllocCount⟩,
    ⟨h.mungeOk.ptr_lt, h.mungeOk.bufsz_lt, h.mungeOk.chanlistLen⟩, h.writePtr, h.readPtr⟩

theorem events (h : Located s a μ) (events : U32) : Located s { a with events := events } μ :=
  ⟨⟨h.tracks.bufsz, h.tracks.readCount, h.tracks.readAllocCount, h.tracks.mungeCount,
      h.tracks.writeCount, h.tracks.writeAllocCount⟩,
    ⟨h.mungeOk.ptr_lt, h.mungeOk.bufsz_lt, h.mungeOk.chanlistLen⟩, h.writePtr, h.readPtr⟩

theorem writeFreed (h : Located s a μ) (n : Nat) :
    Located s (writeFreed s a μ n) (writeFreedMarks s a μ n) := by
  have hc := μ.chain
  refine ⟨tracks_writeFreed h.tracks h.mungeOk n, h.mungeOk.writeFreed μ n, ?_, ?_⟩
  · exact ptr_add h.tracks.bufsz h.cap_pos h.cap_lt h.writePtr (by omega)
  · rw [writeFreed_readPtr]
    exact h.readPtr

/-- A buffer that is idle is at the start of its stream. -/
theorem idle (h : Located s a μ) : Located s (RunState.idleAsync a) (Marks.start cap) := by
  have hz : (0 : U32).toNat = 0 % cap := (Nat.zero_mod cap).symm
  refine ⟨⟨h.tracks.bufsz, rfl, rfl, rfl, rfl, rfl⟩, ⟨?_, h.mungeOk.bufsz_lt,
    h.mungeOk.chanlistLen⟩, hz, hz⟩
  rw [BitVec.lt_def]
  change 0 < a.preallocBufsz.toNat
  rw [h.tracks.bufsz]
  exact h.cap_pos

/-- The subdevice counts only for its sample format and its munging. -/
theorem congr {s₁ : Subdevice} (h : Located s a μ) (hm : s₁.munge = s.munge) : Located s₁ a μ :=
  ⟨h.tracks, ⟨h.mungeOk.ptr_lt, h.mungeOk.bufsz_lt,
    fun hmu => h.mungeOk.chanlistLen ⟨hm ▸ hmu.1, hmu.2⟩⟩, h.writePtr, h.readPtr⟩

end Located

/-- The `n` bytes at the write pointer are inside the buffer, and none of them is committed and
not yet read. -/
structure CopyInside (a : Async) (n : U32) : Prop where
  inside : a.bufWritePtr.toNat + n.toNat ≤ a.preallocBufsz.toNat
  freed : ∀ j < (a.bufWriteCount - a.bufReadCount).toNat,
    (a.bufReadPtr.toNat + j) % a.preallocBufsz.toNat < a.bufWritePtr.toNat ∨
      a.bufWritePtr.toNat + n.toNat ≤ (a.bufReadPtr.toNat + j) % a.preallocBufsz.toNat

theorem mod_ne_of_lt_lap {p q : Nat} (hpq : p < q) (hlap : q < p + cap) : p % cap ≠ q % cap := by
  intro he
  have hz : (q - p) % cap = 0 := Nat.sub_mod_eq_zero_of_mod_eq he.symm
  rw [Nat.mod_eq_of_lt (by omega)] at hz
  omega

/-- A copy that fits before the end of the buffer and in the free space. -/
theorem Located.copyInside (h : Located s a μ) (hend : a.bufWritePtr.toNat + n.toNat ≤ cap)
    (hroom : μ.written + n.toNat ≤ μ.read + cap) : CopyInside a n := by
  have hc := μ.chain
  have hlt := h.cap_lt
  have hw := h.writePtr
  rw [← h.tracks.bufsz] at hend
  refine ⟨hend, fun j hj => ?_⟩
  rw [h.tracks.writeCount, h.tracks.readCount, toNat_ofNat_sub (by omega) (by omega)] at hj
  rw [h.readPtr, h.tracks.bufsz, Nat.mod_add_mod]
  by_contra hin
  rw [not_or, Nat.not_lt, Nat.not_le] at hin
  obtain ⟨i, hi⟩ := Nat.exists_eq_add_of_le hin.1
  have he : (μ.written + i) % cap = a.bufWritePtr.toNat + i := by
    rw [← Nat.mod_add_mod, ← hw, Nat.mod_eq_of_lt]
    have := h.tracks.bufsz
    omega
  exact mod_ne_of_lt_lap (p := μ.read + j) (q := μ.written + i) (by omega) (by omega)
    (hi.trans he.symm)

/-- What one pass can store, after it has allocated all the free space. -/
theorem writeContiguous_spec (h : Located s a μ) (hn : n.toNat < 2 ^ 31) :
    (writeContiguous a n).1.toNat =
        min (min n.toNat (cap - a.bufWritePtr.toNat)) (μ.read + cap - μ.written) ∧
      (writeContiguous a n).2 =
        { a with bufWriteAllocCount := .ofNat 32 (μ.reserve cap).writeAlloc } ∧
      (μ.reserve cap).writeAlloc = μ.read + cap := by
  have hc := μ.chain
  have hlt := h.cap_lt
  have hsz := h.tracks.bufsz
  have hptr := h.writePtr_lt
  have hall : (μ.reserve cap).writeAlloc = μ.read + cap := by
    change μ.writeAlloc + min cap (μ.read + cap - μ.writeAlloc) = _
    omega
  have halloc := writeAlloc_spec hlt h.tracks (n := a.preallocBufsz) (by omega)
  rw [hsz] at halloc
  have hheld : (comediBufWriteNAllocated (comediBufWriteAlloc a a.preallocBufsz).2).toNat =
      μ.read + cap - μ.written := by
    rw [halloc]
    change (BitVec.ofNat 32 (μ.reserve cap).writeAlloc - a.bufWriteCount).toNat = _
    rw [hall, h.tracks.writeCount, toNat_ofNat_sub (by omega) (by omega)]
  have hclip : (if a.preallocBufsz < a.bufWritePtr + n then a.preallocBufsz - a.bufWritePtr
      else n).toNat = min n.toNat (cap - a.bufWritePtr.toNat) := by
    have hsum : (a.bufWritePtr + n).toNat = a.bufWritePtr.toNat + n.toNat := by
      rw [BitVec.toNat_add, Nat.mod_eq_of_lt (by omega)]
    have hd : (a.preallocBufsz - a.bufWritePtr).toNat = cap - a.bufWritePtr.toNat := by
      rw [BitVec.toNat_sub_of_le (by rw [BitVec.le_def]; omega), hsz]
    split
    · next hgt =>
      rw [BitVec.lt_def, hsum] at hgt
      omega
    · next hgt =>
      rw [BitVec.lt_def, hsum] at hgt
      omega
  refine ⟨?_, by unfold writeContiguous; rw [halloc], hall⟩
  change (let m := if a.preallocBufsz < a.bufWritePtr + n then a.preallocBufsz - a.bufWritePtr else n
    let k := comediBufWriteNAllocated (comediBufWriteAlloc a a.preallocBufsz).2
    let m := if k < m then k else m
    if m.toInt < n.toInt then m else n).toNat = _
  dsimp only
  generalize (if a.preallocBufsz < a.bufWritePtr + n then a.preallocBufsz - a.bufWritePtr
    else n) = m at hclip ⊢
  generalize comediBufWriteNAllocated (comediBufWriteAlloc a a.preallocBufsz).2 = k at hheld ⊢
  have hmin : (if k < m then k else m).toNat =
      min (min n.toNat (cap - a.bufWritePtr.toNat)) (μ.read + cap - μ.written) := by
    rw [← hclip, ← hheld]
    split
    · next hkm =>
      rw [BitVec.lt_def] at hkm
      omega
    · next hkm =>
      rw [BitVec.lt_def] at hkm
      omega
  rw [toNat_ite_toInt (by omega) hn, hmin]
  omega

/-- The bytes that `comedi_buf_write_free` commits, by the advance of `buf_write_count`. -/
def committedBytes (a a' : Async) : List Byte :=
  window a.preallocBuf a.preallocBufsz.toNat a.bufWritePtr.toNat
    (a'.bufWriteCount - a.bufWriteCount).toNat

/-- What a pass finds at its head: the end of the command, a full ring, or space for some bytes
that are free and lie together. -/
inductive HeadSpec (s : Subdevice) (a : Async) (μ : Marks cap) (call : IoCall) :
    Turn → Async → Prop where
  | release (hrun : s.runflags &&& srfRunning = 0) : HeadSpec s a μ call .releaseLock a
  | full (a' : Async) (t : Turn) (hrun : s.runflags &&& srfRunning ≠ 0)
      (ha : Located s a' (μ.reserve cap))
      (hfull : a'.bufWriteCount - a'.bufReadCount = a'.preallocBufsz)
      (ht : t = .asleep ∨ call.nonblock = true ∧ t = .returned (-eagain)) :
      HeadSpec s a μ call t a'
  | copy (a' : Async) (n : U32) (hrun : s.runflags &&& srfRunning ≠ 0)
      (ha : Located s a' (μ.reserve cap)) (hpos : 0 < n.toNat) (hle : n.toNat ≤ call.nbytes)
      (hend : a'.bufWritePtr.toNat + n.toNat ≤ cap)
      (hheld : μ.written + n.toNat ≤ (μ.reserve cap).writeAlloc) :
      HeadSpec s a μ call (.copying n) a'

theorem writeHead_spec (h : Located s a μ) (hpos : 0 < call.nbytes.val) :
    HeadSpec s a μ call (writeHead s a call).1 (writeHead s a call).2 := by
  have hc := μ.chain
  have hlt := h.cap_lt
  have hptr := h.writePtr_lt
  have hnb : (BitVec.ofNat 32 call.nbytes).toNat = call.nbytes := nbytes_toNat call
  have hn31 := call.nbytes.isLt
  obtain ⟨hn, ha, hall⟩ := writeContiguous_spec h (n := .ofNat 32 call.nbytes) (by omega)
  have hloc : Located s (writeContiguous a (.ofNat 32 call.nbytes)).2 (μ.reserve cap) := by
    rw [ha]
    exact h.reserve cap
  unfold writeHead
  split
  · next hrun => exact .release hrun
  next hrun =>
  dsimp only
  rw [hnb] at hn
  split
  · next hz =>
    rw [hz] at hn
    have h0 : (0 : U32).toNat = 0 := rfl
    have hfull : μ.written = μ.read + cap := by omega
    refine .full _ _ hrun hloc ?_ ?_
    · rw [hloc.tracks.writeCount, hloc.tracks.readCount]
      change BitVec.ofNat 32 μ.written - BitVec.ofNat 32 μ.read = _
      rw [ofNat_sub_ofNat_of_le (by omega), hfull, Nat.add_sub_cancel_left, ← hloc.tracks.bufsz,
        BitVec.ofNat_toNat, BitVec.setWidth_eq]
    · split
      · next hnb => exact .inr ⟨hnb, rfl⟩
      · exact .inl rfl
  · next hz =>
    have hpos : 0 < (writeContiguous a (.ofNat 32 call.nbytes)).1.toNat :=
      Nat.pos_of_ne_zero fun h0 => hz (BitVec.eq_of_toNat_eq h0)
    refine .copy _ _ hrun hloc hpos (by omega) ?_ (by omega)
    rw [ha]
    change a.bufWritePtr.toNat + _ ≤ cap
    omega

theorem gotAcross_toNat (call : IoCall) (n : U32) : (gotAcross call n).toNat ≤ n.toNat := by
  rw [gotAcross, BitVec.toNat_sub_of_le (clipped_le _ _)]
  omega

/-- What a call with such a copy returns. -/
theorem copyResult_spec (hpos : 0 < n.toNat) (hlt : n.toNat < 2 ^ 31) {ret : Int}
    (hret : ret = result (gotAcross call n)
      (if (if call.missed ≤ n then call.missed else n) ≠ 0 then -efault else 0)) :
    ret.toNat = (gotAcross call n).toNat ∧ ret ≠ 0 ∧ ret ≠ -epipe ∧ ret ≠ -eagain := by
  have hle := gotAcross_toNat call n
  have hep : epipe = 32 := rfl
  have hag : eagain = 11 := rfl
  by_cases hz : gotAcross call n = 0
  · have hm : (if call.missed ≤ n then call.missed else n) ≠ 0 := by
      intro hm
      have hn : n = 0 := by
        rw [gotAcross, hm] at hz
        exact (sub_zero n).symm.trans hz
      rw [hn] at hpos
      exact absurd hpos (by decide)
    rw [hz, result, if_neg (by simp), if_pos hm] at hret
    rw [hret, hz]
    decide
  · have hk : 0 < (gotAcross call n).toNat :=
      Nat.pos_of_ne_zero fun h0 => hz (BitVec.eq_of_toNat_eq h0)
    rw [result, if_pos hz, BitVec.toInt_eq_toNat_of_lt (by omega)] at hret
    omega

/-- A copy commits the part of the user's bytes that got across, and returns their number; if
none did, it is a fault. -/
theorem writeCopy_spec (call : IoCall) (h : Located s a μ) (hpos : 0 < n.toNat)
    (hlen : n.toNat ≤ data.length)
    (hend : a.bufWritePtr.toNat + n.toNat ≤ cap) (hheld : μ.written + n.toNat ≤ μ.writeAlloc) :
    ∃ ret a', writeCopy s a call data n = .ok (ret, a') ∧
      (∃ ν : Marks cap, Located s a' ν ∧ ν.written = μ.written + ret.toNat) ∧
      committedBytes (copyFromUser a call data n) a' = data.take ret.toNat ∧
      ret.toNat ≤ n.toNat ∧ ret ≠ 0 ∧ ret ≠ -epipe ∧ ret ≠ -eagain := by
  have hc := μ.chain
  have hlt := h.cap_lt
  have hle := gotAcross_toNat call n
  generalize hk : gotAcross call n = k at hle
  have hstored : Located s (copyFromUser a call data n) μ := h.buf _
  have hmin : min k.toNat (μ.writeAlloc - μ.written) = k.toNat := by omega
  have hfree := writeFree_spec (s := s) hlt hstored.tracks hstored.mungeOk (n := k) (by omega)
  rw [hmin, BitVec.ofNat_toNat, BitVec.setWidth_eq] at hfree
  have hloc := hstored.writeFreed k.toNat
  have hwr : (writeFreedMarks s (copyFromUser a call data n) μ k.toNat).written =
      μ.written + k.toNat := by
    change μ.written + min k.toNat _ = _
    rw [hmin]
  have hadv : ((writeFreed s (copyFromUser a call data n) μ k.toNat).bufWriteCount -
      (copyFromUser a call data n).bufWriteCount).toNat = k.toNat := by
    rw [hloc.tracks.writeCount, hwr, hstored.tracks.writeCount,
      toNat_ofNat_sub (by omega) (by omega), Nat.add_sub_cancel_left]
  have hbytes : committedBytes (copyFromUser a call data n)
      (writeFreed s (copyFromUser a call data n) μ k.toNat) = data.take k.toNat := by
    have hdl : (data.take k.toNat).length = k.toNat := by
      rw [List.length_take, Nat.min_eq_left (by omega)]
    have hmod : a.bufWritePtr.toNat % cap = a.bufWritePtr.toNat := Nat.mod_eq_of_lt h.writePtr_lt
    have hput := blit_eq_put a.preallocBuf (data.take k.toNat) h.cap_pos
      (show a.bufWritePtr.toNat % cap + _ ≤ cap by rw [hmod, hdl]; omega)
    rw [hmod] at hput
    rw [committedBytes, hadv]
    change window (copyFromUser a call data n).preallocBuf a.preallocBufsz.toNat
      a.bufWritePtr.toNat k.toNat = _
    rw [h.tracks.bufsz, copyFromUser, hk, hput]
    have hw := @window_put _ cap a.preallocBuf a.bufWritePtr.toNat 0 k.toNat (data.take k.toNat)
      (by omega) (by omega)
    rw [Nat.add_zero, Nat.zero_add, hdl, List.take_zero, List.nil_append,
      List.drop_eq_nil_of_le (by simp), List.append_nil] at hw
    exact hw
  obtain ⟨hnat, hends⟩ := copyResult_spec hpos (by omega) (Eq.refl (result (gotAcross call n) _))
  rw [hk] at hnat hends
  refine ⟨result k (if (if call.missed ≤ n then call.missed else n) ≠ 0 then -efault else 0),
    writeFreed s (copyFromUser a call data n) μ k.toNat, ?_, ⟨_, hloc, ?_⟩, ?_, ?_, hends⟩
  · unfold writeCopy
    rw [gotAcross] at hk
    simp only [hk]
    rw [hfree]
    rfl
  · rw [hnat, hwr]
  · rw [hnat, hbytes]
  · rw [hnat]
    exact hle

end Comedi.WriteSpecs
