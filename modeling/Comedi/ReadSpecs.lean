import Comedi.BufinfoOrder
import Comedi.ReadWrite

namespace Comedi.ReadSpecs

open AsyncBuffer RingMarks RingCounters MungeBlocks BufinfoOrder ReadWrite SerialCounter GuardedRuns

variable {cap : Nat} {μ : Marks cap} {s : Subdevice} {a a' : Async} {n : U32}

theorem tracks_unread (hcap : cap < 2 ^ 31) (h : Tracks a μ) :
    (comediBufReadNAvailable a).toNat = μ.ready - μ.read := by
  have := μ.chain
  rw [comediBufReadNAvailable, h.mungeCount, h.readCount, toNat_ofNat_sub (by omega) (by omega)]

/-- The minimum of two counts, taken as C `int`s. -/
theorem toNat_ite_toInt {m n : U32} (hm : m.toNat < 2 ^ 31) (hn : n.toNat < 2 ^ 31) :
    (if m.toInt < n.toInt then m else n).toNat = min m.toNat n.toNat := by
  have hmi : m.toInt = m.toNat := BitVec.toInt_eq_toNat_of_lt (by omega)
  have hni : n.toInt = n.toNat := BitVec.toInt_eq_toNat_of_lt (by omega)
  rw [hmi, hni]
  split <;> omega

theorem readContiguous_toNat (hcap : cap < 2 ^ 31) (h : Tracks a μ)
    (hptr : a.bufReadPtr.toNat < cap) (hn : n.toNat < 2 ^ 31) :
    (readContiguous a n).toNat = min (min (μ.ready - μ.read) (cap - a.bufReadPtr.toNat)) n.toNat := by
  have hc := μ.chain
  have hm := tracks_unread hcap h
  have hsz := h.bufsz
  have hsum : (a.bufReadPtr + comediBufReadNAvailable a).toNat =
      a.bufReadPtr.toNat + (μ.ready - μ.read) := by
    rw [BitVec.toNat_add, hm, Nat.mod_eq_of_lt (by omega)]
  have hd : (a.preallocBufsz - a.bufReadPtr).toNat = cap - a.bufReadPtr.toNat := by
    rw [BitVec.toNat_sub_of_le (by rw [BitVec.le_def]; omega), hsz]
  have hclip : (if a.preallocBufsz < a.bufReadPtr + comediBufReadNAvailable a
      then a.preallocBufsz - a.bufReadPtr else comediBufReadNAvailable a).toNat =
      min (μ.ready - μ.read) (cap - a.bufReadPtr.toNat) := by
    split
    · next hlt =>
      rw [BitVec.lt_def, hsum] at hlt
      omega
    · next hlt =>
      rw [BitVec.lt_def, hsum] at hlt
      omega
  unfold readContiguous
  dsimp only
  rw [toNat_ite_toInt (by omega) hn, hclip]

theorem umod_ok {x y r : U32} (h : umod x y = .ok r) : y ≠ 0 ∧ r = x % y := by
  unfold umod at h
  split at h
  · cases h
  · next hz =>
    cases h
    exact ⟨hz, rfl⟩

/-- What a transfer to the user leaves as it was. -/
structure Kept (a a' : Async) : Prop where
  bufsz : a'.preallocBufsz = a.preallocBufsz
  events : a'.events = a.events
  writeCount : a'.bufWriteCount = a.bufWriteCount
  writeAllocCount : a'.bufWriteAllocCount = a.bufWriteAllocCount

theorem readTransfer_order (h : InRing s a) (hn : n.toNat < 2 ^ 31) {bytes : List Byte}
    (ht : readTransfer a n = .ok (bytes, a')) :
    InRing s a' ∧ a'.bufReadPtr < a'.preallocBufsz ∧ Kept a a' := by
  obtain ⟨ha, hlt⟩ := h.readAlloc (n := n) (by omega)
  obtain ⟨m, a₁, hf, h₁, -⟩ := ha.readFree (n := n) (by omega)
  obtain ⟨⟨m', a₂⟩, hf', ht⟩ := bind_eq_ok ht
  cases hf.symm.trans hf'
  cases ht
  obtain ⟨ptr, hp, hf⟩ := bind_eq_ok hf
  obtain ⟨hz, rfl⟩ := umod_ok hp
  cases hf
  refine ⟨h₁, ?_, rfl, rfl, rfl, rfl⟩
  rw [BitVec.lt_def, BitVec.toNat_umod]
  exact Nat.mod_lt _ (Nat.pos_of_ne_zero fun h0 => hz (BitVec.eq_of_toNat_eq h0))

/-- The buffer after `n` bytes were taken at once. -/
def taken (a : Async) (μ : Marks cap) (n : U32) : Async :=
  { a with
    bufReadAllocCount := .ofNat 32 (μ.read + n.toNat)
    bufReadCount := .ofNat 32 (μ.read + n.toNat)
    bufReadPtr := (a.bufReadPtr + n) % a.preallocBufsz }

/-- Where nothing else is being read, a transfer takes all it asks for. -/
theorem readTransfer_spec (hcap : cap < 2 ^ 31) (hpos : 0 < cap) (h : Tracks a μ)
    (hidle : μ.readAlloc = μ.read) (hn : n.toNat ≤ μ.ready - μ.read) :
    readTransfer a n =
      .ok (readBlock a.preallocBuf a.bufReadPtr.toNat n.toNat, taken a μ n) ∧
    Tracks (taken a μ n) ((μ.acquire n.toNat).release n.toNat) ∧
    ((μ.acquire n.toNat).release n.toNat).read = μ.read + n.toNat := by
  have hc := μ.chain
  have hacq : (μ.acquire n.toNat).readAlloc = μ.read + n.toNat := by
    change μ.readAlloc + min n.toNat (μ.ready - μ.readAlloc) = _
    omega
  have hrel : ((μ.acquire n.toNat).release n.toNat).read = μ.read + n.toNat := by
    change μ.read + min n.toNat ((μ.acquire n.toNat).readAlloc - μ.read) = _
    omega
  have hgot : min n.toNat ((μ.acquire n.toNat).readAlloc - (μ.acquire n.toNat).read) = n.toNat := by
    have hr : (μ.acquire n.toNat).read = μ.read := rfl
    omega
  have halloc := readAlloc_spec hcap h (n := n) (by omega)
  have hfree := readFree_spec hcap (h.acquire n.toNat) hpos (n := n) (by omega)
  have htracks := (h.acquire n.toNat).release n.toNat ((a.bufReadPtr + n) % a.preallocBufsz)
  rw [hgot, hrel, hacq, BitVec.ofNat_toNat, BitVec.setWidth_eq] at hfree
  rw [hrel, hacq] at htracks
  refine ⟨?_, htracks, hrel⟩
  have hf : comediBufReadFree (comediBufReadAlloc a n).2 n = .ok (n, taken a μ n) := by
    rw [halloc, hacq]
    exact hfree
  change (comediBufReadFree (comediBufReadAlloc a n).2 n >>= fun p =>
    .ok (readBlock a.preallocBuf a.bufReadPtr.toNat n.toNat, p.2)) = _
  rw [hf]
  rfl

theorem readContiguous_lt (h : InRing s a) (hptr : a.bufReadPtr < a.preallocBufsz)
    (hn : n.toNat < 2 ^ 31) : (readContiguous a n).toNat < 2 ^ 31 := by
  obtain ⟨μ, hμ⟩ := h.order.exists_tracks
  rw [readContiguous_toNat h.munge.bufsz_lt hμ (BitVec.lt_def.mp hptr) hn]
  omega

theorem clipped_le (x y : U32) : ((if x ≤ y then x else y) : U32) ≤ y := by
  split
  · assumption
  · exact BitVec.le_refl _

theorem nbytes_toNat (call : IoCall) : (BitVec.ofNat 32 call.nbytes).toNat = call.nbytes.val :=
  toNat_ofNat_of_lt (by have := call.nbytes.isLt; omega)

theorem readLoop_order {call : IoCall} (h : InRing s a) (hptr : a.bufReadPtr < a.preallocBufsz)
    {pc : Pc} {bytes : List Byte} (hl : readLoop s a call = .ok (pc, bytes, a')) :
    InRing s a' ∧ a'.bufReadPtr < a'.preallocBufsz ∧ Kept a a' := by
  have hn : (BitVec.ofNat 32 call.nbytes).toNat < 2 ^ 31 := by
    rw [nbytes_toNat]
    exact call.nbytes.isLt
  have hlt := readContiguous_lt h hptr hn
  unfold readLoop at hl
  dsimp only at hl
  split at hl
  · split at hl
    · cases hl
      exact ⟨h, hptr, rfl, rfl, rfl, rfl⟩
    · split at hl <;> cases hl <;> exact ⟨h, hptr, rfl, rfl, rfl, rfl⟩
  · obtain ⟨⟨b, a₁⟩, ht, hl⟩ := bind_eq_ok hl
    cases hl
    refine readTransfer_order h ?_ ht
    have hle := clipped_le call.missed (readContiguous a (.ofNat 32 call.nbytes))
    rw [BitVec.toNat_sub_of_le hle]
    omega

theorem flags_running (h : s.runflags &&& srfRunning ≠ 0) :
    s.runflags &&& (srfError ||| srfRunning) ≠ 0 := by
  rw [BitVec.and_or_distrib_left]
  intro hz
  exact h (BitVec.or_eq_zero_iff.mp hz).2

section Calls

variable {s' : Subdevice} {call : IoCall} {pc : Pc} {bytes : List Byte}

/-- A call is refused at once or gets to its loop as the owner of the command. -/
theorem readEnter_cases (hs : s.async = some a) (h : readEnter s call = .ok (pc, bytes, s')) :
    (s' = s ∧ bytes = [] ∧ ∃ ret, pc = .returned ret) ∨
    (0 < call.nbytes.val ∧ s.busy = some (.file call.file) ∧
      ∃ a', readLoop s a call = .ok (pc, bytes, a') ∧ s' = { s with async := some a' }) := by
  simp only [readEnter, hs] at h
  split at h
  · cases h
    exact .inl ⟨rfl, rfl, _, rfl⟩
  next hz =>
  split at h
  · cases h
    exact .inl ⟨rfl, rfl, _, rfl⟩
  next o hb =>
  split at h
  · cases h
    exact .inl ⟨rfl, rfl, _, rfl⟩
  next ho =>
  obtain ⟨⟨pc', bytes', a'⟩, hl, h⟩ := bind_eq_ok h
  cases h
  rw [not_not] at ho
  exact .inr ⟨Nat.pos_of_ne_zero hz, by rw [hb, ho], a', hl, rfl⟩

/-- A call that wakes up leaves the loop or goes on as the owner of the command. -/
theorem readWake_cases {signal : Bool} (hs : s.async = some a)
    (h : readWake s call signal = .ok (pc, bytes, s')) :
    (s' = s ∧ bytes = [] ∧ ∃ retval, pc = readTail s 0 retval) ∨
    (s.busy = some (.file call.file) ∧
      ∃ a', readLoop s a call = .ok (pc, bytes, a') ∧ s' = { s with async := some a' }) := by
  simp only [readWake, hs] at h
  split at h
  · cases h
    exact .inl ⟨rfl, rfl, _, rfl⟩
  split at h
  · cases h
    exact .inl ⟨rfl, rfl, _, rfl⟩
  · next heq => cases heq
  next o a₀ hb heq =>
  cases heq
  split at h
  · cases h
    exact .inl ⟨rfl, rfl, _, rfl⟩
  next ho =>
  obtain ⟨⟨pc', bytes', a'⟩, hl, h⟩ := bind_eq_ok h
  cases h
  rw [not_not] at ho
  exact .inr ⟨by rw [hb, ho], a', hl, rfl⟩

end Calls

end Comedi.ReadSpecs
