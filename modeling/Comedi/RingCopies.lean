import Comedi.AsyncBuffer
import Comedi.SerialCounter

namespace Comedi.RingCopies

open AsyncBuffer RingMarks SerialCounter

variable {mem : Nat → Byte} {cap : Nat}

theorem readBlock_eq_window {pos n : Nat} (hfit : pos % cap + n ≤ cap) :
    readBlock mem (pos % cap) n = window mem cap pos n := by
  apply List.map_congr_left
  intro j hj
  have hjn : j < n := List.mem_range.mp hj
  rw [← Nat.mod_add_mod pos cap j, Nat.mod_eq_of_lt (a := pos % cap + j) (by omega)]

/-- The offset of a stream position in the ring, as the copying functions compute it. -/
theorem ringOffset_spec {bufsz ptr offset : U32} {pos : Nat} (hcap : 0 < bufsz.toNat)
    (hlt : bufsz.toNat < 2 ^ 31) (hptr : ptr.toNat = pos % bufsz.toNat)
    (hoff : offset.toNat ≤ bufsz.toNat) :
    ∃ p, ringOffset bufsz (ptr + offset) = .ok p ∧ p.toNat = (pos + offset.toNat) % bufsz.toNat := by
  have hp : ptr.toNat < bufsz.toNat := by
    rw [hptr]
    exact Nat.mod_lt _ hcap
  have hadd : (ptr + offset).toNat = ptr.toNat + offset.toNat := by
    rw [BitVec.toNat_add, Nat.mod_eq_of_lt (by omega)]
  have hmod : (pos + offset.toNat) % bufsz.toNat = (ptr + offset).toNat % bufsz.toNat := by
    rw [hadd, hptr, Nat.mod_add_mod]
  have hz : bufsz ≠ 0 := by
    rintro rfl
    exact absurd hcap (by decide)
  unfold ringOffset
  split
  · refine ⟨_, if_neg hz, ?_⟩
    rw [BitVec.toNat_umod, hmod]
  · next hle =>
    refine ⟨_, rfl, ?_⟩
    rw [hmod, Nat.mod_eq_of_lt]
    simpa [BitVec.le_def] using hle

theorem memcpyToLoop_zero (bufsz : U32) (fuel : Nat) (mem : Nat → Byte) (ptr : U32)
    (data : List Byte) : memcpyToLoop bufsz (fuel + 1) mem ptr data 0 = .ok mem := by
  simp [memcpyToLoop]

/-- A copy that does not reach the end of the ring. -/
theorem memcpyToLoop_fits (mem : Nat → Byte) {bufsz ptr n : U32} {fuel : Nat} {data : List Byte}
    (hlt : bufsz.toNat < 2 ^ 31) (hn : n.toNat = data.length)
    (hfit : ptr.toNat + data.length ≤ bufsz.toNat) (hfuel : data.length ≤ fuel) :
    memcpyToLoop bufsz (fuel + 1) mem ptr data n = .ok (blit mem ptr.toNat data) := by
  by_cases hz : n = 0
  · have hd : data = [] := List.length_eq_zero_iff.mp (by rw [← hn, hz]; rfl)
    rw [hz, memcpyToLoop_zero, hd, blit_nil]
  · have hpos : n.toNat ≠ 0 := fun h => hz (BitVec.eq_of_toNat_eq h)
    obtain ⟨f, rfl⟩ : ∃ f, fuel = f + 1 := ⟨fuel - 1, by omega⟩
    have hle : ¬ bufsz < ptr + n := by
      rw [BitVec.lt_def, BitVec.toNat_add, Nat.mod_eq_of_lt (by omega)]
      omega
    rw [memcpyToLoop, if_neg hz]
    simp only [if_neg hle]
    rw [BitVec.sub_self, hn, List.take_length, List.drop_length]
    exact memcpyToLoop_zero _ _ _ _ _

/-- `comedi_buf_memcpy_to` stores the bytes at their stream positions. -/
theorem memcpyTo_spec {a : Async} {pos : Nat} {offset : U32} {data : List Byte}
    (hcap : 0 < a.preallocBufsz.toNat) (hlt : a.preallocBufsz.toNat < 2 ^ 31)
    (hptr : a.bufWritePtr.toNat = pos % a.preallocBufsz.toNat)
    (hfit : offset.toNat + data.length ≤ a.preallocBufsz.toNat) :
    comediBufMemcpyTo a offset data (.ofNat 32 data.length) =
      .ok { a with
        preallocBuf := put a.preallocBuf a.preallocBufsz.toNat (pos + offset.toNat) data } := by
  have hoff : offset.toNat ≤ a.preallocBufsz.toNat := by omega
  obtain ⟨p, he, hp⟩ := ringOffset_spec hcap hlt hptr hoff
  have hpl : p.toNat < a.preallocBufsz.toNat := by
    rw [hp]
    exact Nat.mod_lt _ hcap
  have hn : (BitVec.ofNat 32 data.length).toNat = data.length := toNat_ofNat_of_lt (by omega)
  have hloop : memcpyToLoop a.preallocBufsz (data.length + 1) a.preallocBuf p data
      (.ofNat 32 data.length) =
      .ok (put a.preallocBuf a.preallocBufsz.toNat (pos + offset.toNat) data) := by
    rcases Nat.lt_or_ge a.preallocBufsz.toNat (p.toNat + data.length) with hwrap | hin
    · have hgt : a.preallocBufsz < p + .ofNat 32 data.length := by
        rw [BitVec.lt_def, BitVec.toNat_add, hn, Nat.mod_eq_of_lt (by omega)]
        exact hwrap
      have hnz : BitVec.ofNat 32 data.length ≠ 0 := by
        intro h
        rw [h] at hn
        have h0 : (0 : U32).toNat = 0 := rfl
        omega
      have hd : (a.preallocBufsz - p).toNat = a.preallocBufsz.toNat - p.toNat :=
        BitVec.toNat_sub_of_le (by rw [BitVec.le_def]; omega)
      have hr : (BitVec.ofNat 32 data.length - (a.preallocBufsz - p)).toNat =
          (data.drop (a.preallocBufsz.toNat - p.toNat)).length := by
        rw [BitVec.toNat_sub_of_le (by rw [BitVec.le_def, hn, hd]; omega), hn, hd, List.length_drop]
      have hleft : (0 : U32).toNat + (data.drop (a.preallocBufsz.toNat - p.toNat)).length ≤
          a.preallocBufsz.toNat := by simp; omega
      have hfuel : (data.drop (a.preallocBufsz.toNat - p.toNat)).length ≤ data.length - 1 := by
        simp; omega
      have hrest := memcpyToLoop_fits
        (blit a.preallocBuf p.toNat (data.take (a.preallocBufsz.toNat - p.toNat))) hlt hr hleft hfuel
      rw [Nat.sub_add_cancel (by omega)] at hrest
      rw [memcpyToLoop, if_neg hnz]
      simp only [if_pos hgt, hd]
      rw [hrest]
      have hwrap' : a.preallocBufsz.toNat <
          (pos + offset.toNat) % a.preallocBufsz.toNat + data.length := by rwa [← hp]
      have hb := blit_blit_eq_put a.preallocBuf data hcap (by omega) hwrap'
      rw [← hp] at hb
      exact congrArg _ hb
    · rw [memcpyToLoop_fits _ hlt hn hin le_rfl, hp,
        blit_eq_put _ _ hcap (by rw [← hp]; exact hin)]
  rw [comediBufMemcpyTo, he, hn]
  change (do
    let mem ← memcpyToLoop a.preallocBufsz (data.length + 1) a.preallocBuf p data
      (.ofNat 32 data.length)
    return { a with preallocBuf := mem }) = _
  rw [hloop]
  rfl

theorem memcpyFromLoop_zero (mem : Nat → Byte) (bufsz : U32) (fuel : Nat) (ptr : U32) :
    memcpyFromLoop mem bufsz (fuel + 1) ptr 0 = .ok [] := by
  simp [memcpyFromLoop]

/-- A copy that stops before the end of the ring. -/
theorem memcpyFromLoop_fits (mem : Nat → Byte) {bufsz ptr n : U32} {fuel : Nat}
    (hfit : ptr.toNat + n.toNat < bufsz.toNat) (hfuel : n.toNat ≤ fuel) :
    memcpyFromLoop mem bufsz (fuel + 1) ptr n = .ok (readBlock mem ptr.toNat n.toNat) := by
  by_cases hz : n = 0
  · rw [hz, memcpyFromLoop_zero]
    rfl
  · have hpos : n.toNat ≠ 0 := fun h => hz (BitVec.eq_of_toNat_eq h)
    obtain ⟨f, rfl⟩ : ∃ f, fuel = f + 1 := ⟨fuel - 1, by omega⟩
    have hle : ¬ bufsz - ptr ≤ n := by
      rw [BitVec.le_def, BitVec.toNat_sub_of_le (by rw [BitVec.le_def]; omega)]
      omega
    rw [memcpyFromLoop, if_neg hz]
    simp only [if_neg hle]
    have hsub : n - n = 0 := BitVec.sub_self n
    rw [hsub, memcpyFromLoop_zero]
    change Except.ok (readBlock mem ptr.toNat n.toNat ++ []) = _
    rw [List.append_nil]

/-- `comedi_buf_memcpy_from` gives the bytes at their stream positions. -/
theorem memcpyFrom_spec {a : Async} {pos : Nat} {offset n : U32}
    (hcap : 0 < a.preallocBufsz.toNat) (hlt : a.preallocBufsz.toNat < 2 ^ 31)
    (hptr : a.bufReadPtr.toNat = pos % a.preallocBufsz.toNat)
    (hfit : offset.toNat + n.toNat ≤ a.preallocBufsz.toNat) :
    comediBufMemcpyFrom a offset n =
      .ok (window a.preallocBuf a.preallocBufsz.toNat (pos + offset.toNat) n.toNat) := by
  have hoff : offset.toNat ≤ a.preallocBufsz.toNat := by omega
  obtain ⟨p, he, hp⟩ := ringOffset_spec hcap hlt hptr hoff
  have hpl : p.toNat < a.preallocBufsz.toNat := by
    rw [hp]
    exact Nat.mod_lt _ hcap
  have hd : (a.preallocBufsz - p).toNat = a.preallocBufsz.toNat - p.toNat :=
    BitVec.toNat_sub_of_le (by rw [BitVec.le_def]; omega)
  rw [comediBufMemcpyFrom, he]
  change memcpyFromLoop a.preallocBuf a.preallocBufsz (n.toNat + 1) p n = _
  rcases Nat.lt_or_ge (p.toNat + n.toNat) a.preallocBufsz.toNat with hin | hout
  · rw [memcpyFromLoop_fits _ hin le_rfl, hp, readBlock_eq_window (by rw [← hp]; omega)]
  · have hle : a.preallocBufsz - p ≤ n := by
      rw [BitVec.le_def, hd]
      omega
    have hnz : n ≠ 0 := by
      rintro rfl
      have h0 : (0 : U32).toNat = 0 := rfl
      omega
    have hr : (n - (a.preallocBufsz - p)).toNat = n.toNat - (a.preallocBufsz.toNat - p.toNat) := by
      rw [BitVec.toNat_sub_of_le hle, hd]
    -- the part up to the end of the ring, and the part from its start
    have hsplit : n.toNat = (a.preallocBufsz.toNat - p.toNat) +
        (n.toNat - (a.preallocBufsz.toNat - p.toNat)) := by omega
    have hend : (pos + offset.toNat + (a.preallocBufsz.toNat - p.toNat)) % a.preallocBufsz.toNat = 0 := by
      rw [← Nat.mod_add_mod, ← hp, Nat.add_sub_cancel' hpl.le, Nat.mod_self]
    have hleft : (0 : U32).toNat + (n - (a.preallocBufsz - p)).toNat < a.preallocBufsz.toNat := by
      simp; omega
    have hfuel : (n - (a.preallocBufsz - p)).toNat ≤ n.toNat - 1 := by omega
    have hrest := memcpyFromLoop_fits a.preallocBuf hleft hfuel
    rw [Nat.sub_add_cancel (by omega), hr] at hrest
    rw [memcpyFromLoop, if_neg hnz]
    simp only [if_pos hle, hrest]
    change Except.ok (readBlock a.preallocBuf p.toNat (a.preallocBufsz - p).toNat ++
      readBlock a.preallocBuf 0 (n.toNat - (a.preallocBufsz.toNat - p.toNat))) = _
    conv => rhs; rw [hsplit, window_add, ← readBlock_eq_window (by omega),
      ← readBlock_eq_window (by omega)]
    rw [hend, hd, hp]

end Comedi.RingCopies
