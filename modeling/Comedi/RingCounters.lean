import Comedi.AsyncBuffer
import Comedi.SerialCounter

namespace Comedi.RingCounters

open AsyncBuffer RingMarks SerialCounter

/-- The five counters of the buffer in their order, as distances from `buf_read_count`. -/
structure RingOrder (a : Async) : Prop where
  readAlloc_le : (a.bufReadAllocCount - a.bufReadCount).toNat ≤ (a.mungeCount - a.bufReadCount).toNat
  munge_le : (a.mungeCount - a.bufReadCount).toNat ≤ (a.bufWriteCount - a.bufReadCount).toNat
  write_le : (a.bufWriteCount - a.bufReadCount).toNat ≤ (a.bufWriteAllocCount - a.bufReadCount).toNat
  writeAlloc_le : (a.bufWriteAllocCount - a.bufReadCount).toNat ≤ a.preallocBufsz.toNat

/-- The 32-bit counters are the stream positions, cut to 32 bits. -/
structure Tracks {cap : Nat} (a : Async) (μ : Marks cap) : Prop where
  bufsz : a.preallocBufsz.toNat = cap
  readCount : a.bufReadCount = .ofNat 32 μ.read
  readAllocCount : a.bufReadAllocCount = .ofNat 32 μ.readAlloc
  mungeCount : a.mungeCount = .ofNat 32 μ.ready
  writeCount : a.bufWriteCount = .ofNat 32 μ.written
  writeAllocCount : a.bufWriteAllocCount = .ofNat 32 μ.writeAlloc

theorem ofNat_add_sub (x y : U32) : BitVec.ofNat 32 (x.toNat + (y - x).toNat) = y := by
  rw [BitVec.ofNat_add, BitVec.ofNat_toNat, BitVec.ofNat_toNat, BitVec.setWidth_eq,
    BitVec.setWidth_eq, add_sub_cancel]

theorem RingOrder.exists_tracks {a : Async} (h : RingOrder a) :
    ∃ μ : Marks a.preallocBufsz.toNat, Tracks a μ := by
  have h₁ := h.readAlloc_le
  have h₂ := h.munge_le
  have h₃ := h.write_le
  have h₄ := h.writeAlloc_le
  let r := a.bufReadCount.toNat
  refine ⟨⟨r, r + (a.bufReadAllocCount - a.bufReadCount).toNat,
    r + (a.mungeCount - a.bufReadCount).toNat, r + (a.bufWriteCount - a.bufReadCount).toNat,
    r + (a.bufWriteAllocCount - a.bufReadCount).toNat, by omega, by omega, by omega, by omega,
    by omega⟩, rfl, ?_, ?_, ?_, ?_, ?_⟩
  · simp [r]
  · exact (ofNat_add_sub _ _).symm
  · exact (ofNat_add_sub _ _).symm
  · exact (ofNat_add_sub _ _).symm
  · exact (ofNat_add_sub _ _).symm

variable {cap : Nat} {a : Async} {μ : Marks cap}

theorem Tracks.start (a : Async) : Tracks (comediResetAsyncBuf a) (Marks.start a.preallocBufsz.toNat) where
  bufsz := rfl
  readCount := rfl
  readAllocCount := rfl
  mungeCount := rfl
  writeCount := rfl
  writeAllocCount := rfl

theorem toNat_ofNat_sub {m n : Nat} (hle : n ≤ m) (hlt : m - n < 2 ^ 32) :
    (BitVec.ofNat 32 m - BitVec.ofNat 32 n).toNat = m - n := by
  rw [ofNat_sub_ofNat_of_le hle, toNat_ofNat_of_lt hlt]

theorem Tracks.ringOrder (h : Tracks a μ) (hcap : cap < 2 ^ 32) : RingOrder a := by
  obtain ⟨h₁, h₂, h₃, h₄, h₅⟩ := μ.chain
  constructor
  all_goals
    simp only [h.readCount, h.readAllocCount, h.mungeCount, h.writeCount, h.writeAllocCount, h.bufsz]
  · rw [toNat_ofNat_sub h₁ (by omega), toNat_ofNat_sub (by omega) (by omega)]
    omega
  · rw [toNat_ofNat_sub (by omega) (by omega), toNat_ofNat_sub (by omega) (by omega)]
    omega
  · rw [toNat_ofNat_sub (by omega) (by omega), toNat_ofNat_sub (by omega) (by omega)]
    omega
  · rw [toNat_ofNat_sub (by omega) (by omega)]
    omega

theorem Tracks.freeEnd (h : Tracks a μ) :
    a.bufReadCount + a.preallocBufsz = .ofNat 32 (μ.read + cap) := by
  have hb : a.preallocBufsz = .ofNat 32 cap := by
    rw [← h.bufsz, BitVec.ofNat_toNat, BitVec.setWidth_eq]
  rw [h.readCount, hb, BitVec.ofNat_add]

section Requests

variable {n : U32} (hcap : cap < 2 ^ 31)
include hcap

theorem writeAlloc_spec (h : Tracks a μ) (hn : n.toNat < 2 ^ 31 + μ.room) :
    comediBufWriteAlloc a n = (.ofNat 32 (min n.toNat μ.room),
      { a with bufWriteAllocCount := .ofNat 32 (μ.reserve n.toNat).writeAlloc }) := by
  have hc := μ.chain
  unfold Marks.room at hn
  have hg : comediBufWriteAlloc a n =
      let m := grant a.bufWriteAllocCount (a.bufReadCount + a.preallocBufsz) n
      (m, { a with bufWriteAllocCount := a.bufWriteAllocCount + m }) := rfl
  rw [hg, h.freeEnd, h.writeAllocCount, grant_eq_min hc.2.2.2.2 (by omega) (by omega)]
  simp only [← BitVec.ofNat_add]
  rfl

theorem writeAllocStrict_spec (h : Tracks a μ) (hn : n.toNat < 2 ^ 31 + μ.room) :
    comediBufWriteAllocStrict a n =
      if n.toNat ≤ μ.room
      then (n, { a with bufWriteAllocCount := .ofNat 32 (μ.reserve n.toNat).writeAlloc })
      else (0, a) := by
  have hc := μ.chain
  have hp := passes_iff hc.2.2.2.2 (by omega) n
  unfold Marks.room at *
  simp only [comediBufWriteAllocStrict, h.freeEnd, h.writeAllocCount, hp]
  by_cases hle : n.toNat ≤ μ.read + cap - μ.writeAlloc
  · have hr : (μ.reserve n.toNat).writeAlloc = μ.writeAlloc + n.toNat := by
      simp only [Marks.reserve, Marks.room, Nat.min_eq_left hle]
    rw [if_neg (by omega), if_pos hle, hr, BitVec.ofNat_add, BitVec.ofNat_toNat, BitVec.setWidth_eq]
  · have hz : BitVec.ofNat 32 μ.writeAlloc + 0 = a.bufWriteAllocCount := by simp [h.writeAllocCount]
    rw [if_pos (by omega), if_neg hle, hz]

theorem readAlloc_spec (h : Tracks a μ) (hn : n.toNat < 2 ^ 31 + (μ.ready - μ.readAlloc)) :
    comediBufReadAlloc a n = (.ofNat 32 (min n.toNat (μ.ready - μ.readAlloc)),
      { a with bufReadAllocCount := .ofNat 32 (μ.acquire n.toNat).readAlloc }) := by
  have hc := μ.chain
  have hg : comediBufReadAlloc a n =
      let m := grant a.bufReadAllocCount a.mungeCount n
      (m, { a with bufReadAllocCount := a.bufReadAllocCount + m }) := rfl
  rw [hg, h.mungeCount, h.readAllocCount, grant_eq_min hc.2.1 (by omega) (by omega)]
  simp only [← BitVec.ofNat_add]
  rfl

theorem readFree_spec (h : Tracks a μ) (hpos : 0 < cap)
    (hn : n.toNat < 2 ^ 31 + (μ.readAlloc - μ.read)) :
    comediBufReadFree a n = .ok (.ofNat 32 (min n.toNat (μ.readAlloc - μ.read)),
      { a with
        bufReadCount := .ofNat 32 (μ.release n.toNat).read
        bufReadPtr := (a.bufReadPtr + .ofNat 32 (min n.toNat (μ.readAlloc - μ.read))) %
          a.preallocBufsz }) := by
  have hc := μ.chain
  have hz : a.preallocBufsz ≠ 0 := by
    intro he
    have := h.bufsz
    rw [he] at this
    simp at this
    omega
  have hg : comediBufReadFree a n = (do
      let m := grant a.bufReadCount a.bufReadAllocCount n
      let ptr ← umod (a.bufReadPtr + m) a.preallocBufsz
      return (m, { a with bufReadCount := a.bufReadCount + m, bufReadPtr := ptr })) := rfl
  rw [hg, h.readCount, h.readAllocCount, grant_eq_min hc.1 (by omega) (by omega)]
  simp only [umod, if_neg hz, ← BitVec.ofNat_add]
  rfl

end Requests

theorem Tracks.reserve (h : Tracks a μ) (n : Nat) :
    Tracks { a with bufWriteAllocCount := .ofNat 32 (μ.reserve n).writeAlloc } (μ.reserve n) :=
  ⟨h.bufsz, h.readCount, h.readAllocCount, h.mungeCount, h.writeCount, rfl⟩

theorem Tracks.acquire (h : Tracks a μ) (n : Nat) :
    Tracks { a with bufReadAllocCount := .ofNat 32 (μ.acquire n).readAlloc } (μ.acquire n) :=
  ⟨h.bufsz, h.readCount, rfl, h.mungeCount, h.writeCount, h.writeAllocCount⟩

theorem Tracks.release (h : Tracks a μ) (n : Nat) (ptr : U32) :
    Tracks { a with bufReadCount := .ofNat 32 (μ.release n).read, bufReadPtr := ptr } (μ.release n) :=
  ⟨h.bufsz, rfl, h.readAllocCount, h.mungeCount, h.writeCount, h.writeAllocCount⟩

end Comedi.RingCounters
