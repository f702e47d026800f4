import Mathlib.Data.List.Basic
import Mathlib.Data.Nat.Basic

namespace RingMarks

/-- The five positions of a stream that passes through a ring of `cap` cells.
The positions count from the start of the stream and never wrap. -/
structure Marks (cap : Nat) where
  read : Nat
  readAlloc : Nat
  ready : Nat
  written : Nat
  writeAlloc : Nat
  read_le : read ≤ readAlloc
  readAlloc_le : readAlloc ≤ ready
  ready_le : ready ≤ written
  written_le : written ≤ writeAlloc
  writeAlloc_le : writeAlloc ≤ read + cap

namespace Marks

variable {cap : Nat}

def start (cap : Nat) : Marks cap where
  read := 0
  readAlloc := 0
  ready := 0
  written := 0
  writeAlloc := 0
  read_le := by omega
  readAlloc_le := by omega
  ready_le := by omega
  written_le := by omega
  writeAlloc_le := by omega

def room (μ : Marks cap) : Nat := μ.read + cap - μ.writeAlloc

def reserve (μ : Marks cap) (n : Nat) : Marks cap :=
  { μ with
    writeAlloc := μ.writeAlloc + min n μ.room
    written_le := by have := μ.written_le; omega
    writeAlloc_le := by have := μ.writeAlloc_le; unfold room; omega }

def commit (μ : Marks cap) (n : Nat) : Marks cap :=
  { μ with
    written := μ.written + min n (μ.writeAlloc - μ.written)
    ready_le := by have := μ.ready_le; omega
    written_le := by have := μ.written_le; omega }

def mature (μ : Marks cap) (n : Nat) : Marks cap :=
  { μ with
    ready := μ.ready + min n (μ.written - μ.ready)
    readAlloc_le := by have := μ.readAlloc_le; omega
    ready_le := by have := μ.ready_le; omega }

def acquire (μ : Marks cap) (n : Nat) : Marks cap :=
  { μ with
    readAlloc := μ.readAlloc + min n (μ.ready - μ.readAlloc)
    read_le := by have := μ.read_le; omega
    readAlloc_le := by have := μ.readAlloc_le; omega }

def release (μ : Marks cap) (n : Nat) : Marks cap :=
  { μ with
    read := μ.read + min n (μ.readAlloc - μ.read)
    read_le := by have := μ.read_le; omega
    writeAlloc_le := by have := μ.writeAlloc_le; omega }

theorem chain (μ : Marks cap) :
    μ.read ≤ μ.readAlloc ∧ μ.readAlloc ≤ μ.ready ∧ μ.ready ≤ μ.written ∧
      μ.written ≤ μ.writeAlloc ∧ μ.writeAlloc ≤ μ.read + cap :=
  ⟨μ.read_le, μ.readAlloc_le, μ.ready_le, μ.written_le, μ.writeAlloc_le⟩

theorem mature_mature (μ : Marks cap) (m n : Nat) : (μ.mature m).mature n = μ.mature (m + n) := by
  have he : μ.ready + min m (μ.written - μ.ready) +
      min n (μ.written - (μ.ready + min m (μ.written - μ.ready))) =
      μ.ready + min (m + n) (μ.written - μ.ready) := by omega
  simp only [mature, he]

theorem room_le (μ : Marks cap) : μ.room ≤ cap := by
  have := μ.chain
  unfold room
  omega

end Marks

variable {β : Type} {cap : Nat}

/-- The `n` cells of the ring from stream position `pos` on. -/
def window (ring : Nat → β) (cap pos n : Nat) : List β :=
  (List.range n).map fun j => ring ((pos + j) % cap)

@[simp] theorem window_length (ring : Nat → β) (cap pos n : Nat) :
    (window ring cap pos n).length = n := by
  simp [window]

theorem window_getElem? (ring : Nat → β) (cap pos : Nat) {n j : Nat} (hj : j < n) :
    (window ring cap pos n)[j]? = some (ring ((pos + j) % cap)) := by
  simp [window, hj]

theorem window_add (ring : Nat → β) (cap pos m n : Nat) :
    window ring cap pos (m + n) = window ring cap pos m ++ window ring cap (pos + m) n := by
  simp [window, List.range_add, Nat.add_assoc, Function.comp_def]

theorem window_take (ring : Nat → β) (cap pos : Nat) {m n : Nat} (h : m ≤ n) :
    (window ring cap pos n).take m = window ring cap pos m := by
  obtain ⟨k, rfl⟩ := Nat.exists_eq_add_of_le h
  rw [window_add, List.take_left' (window_length _ _ _ _)]

theorem window_drop (ring : Nat → β) (cap pos : Nat) {m n : Nat} (h : m ≤ n) :
    (window ring cap pos n).drop m = window ring cap (pos + m) (n - m) := by
  obtain ⟨k, rfl⟩ := Nat.exists_eq_add_of_le h
  rw [window_add, List.drop_left' (window_length _ _ _ _), Nat.add_sub_cancel_left]

theorem window_congr {ring ring' : Nat → β} {pos n : Nat}
    (h : ∀ p, pos ≤ p → p < pos + n → ring' (p % cap) = ring (p % cap)) :
    window ring' cap pos n = window ring cap pos n := by
  apply List.map_congr_left
  intro j hj
  have hjn : j < n := List.mem_range.mp hj
  exact h _ (by omega) (by omega)

/-- How far the cell `i` lies behind the stream position `pos`, going round the ring. -/
def behind (cap pos i : Nat) : Nat := (i + cap - pos % cap) % cap

theorem behind_mod {pos p : Nat} (hle : pos ≤ p) (hlt : p < pos + cap) :
    behind cap pos (p % cap) = p - pos := by
  obtain ⟨d, rfl⟩ := Nat.exists_eq_add_of_le hle
  have hd : d < cap := by omega
  have hr : pos % cap < cap := Nat.mod_lt _ (by omega)
  rw [behind, Nat.add_mod_eq_ite, Nat.mod_eq_of_lt hd, Nat.add_sub_cancel_left]
  split
  · rw [Nat.mod_eq_of_lt (by omega)]
    omega
  · have he : pos % cap + d + cap - pos % cap = d + cap := by omega
    rw [he, Nat.add_mod_right, Nat.mod_eq_of_lt hd]

/-- Store `bytes` from stream position `pos` on, going round the ring. -/
def put (ring : Nat → β) (cap pos : Nat) (bytes : List β) : Nat → β := fun i =>
  if i < cap then (bytes[behind cap pos i]?).getD (ring i) else ring i

theorem put_mod (ring : Nat → β) {pos p : Nat} (bytes : List β) (hle : pos ≤ p)
    (hlt : p < pos + cap) :
    put ring cap pos bytes (p % cap) = (bytes[p - pos]?).getD (ring (p % cap)) := by
  have hp : p % cap < cap := Nat.mod_lt _ (by omega)
  simp only [put, if_pos hp, behind_mod hle hlt]

theorem put_inside (ring : Nat → β) {pos p : Nat} {bytes : List β} (hlen : bytes.length ≤ cap)
    (hle : pos ≤ p) (hlt : p < pos + bytes.length) :
    some (put ring cap pos bytes (p % cap)) = bytes[p - pos]? := by
  rw [put_mod ring bytes hle (by omega), List.getElem?_eq_getElem (by omega), Option.getD_some]

theorem put_ahead (ring : Nat → β) {pos p : Nat} {bytes : List β} (hle : pos + bytes.length ≤ p)
    (hlt : p < pos + cap) :
    put ring cap pos bytes (p % cap) = ring (p % cap) := by
  rw [put_mod ring bytes (by omega) hlt, List.getElem?_eq_none (by omega), Option.getD_none]

/-- A store leaves alone what lies before it and less than a lap from its end. -/
theorem put_before (ring : Nat → β) {pos p : Nat} {bytes : List β} (hlt : p < pos)
    (hle : pos + bytes.length ≤ p + cap) :
    put ring cap pos bytes (p % cap) = ring (p % cap) := by
  have h : put ring cap pos bytes ((p + cap) % cap) = ring ((p + cap) % cap) :=
    put_ahead ring hle (by omega)
  rwa [Nat.add_mod_right] at h

/-- What a store inside a window makes of the window. -/
theorem window_put (ring : Nat → β) {pos off n : Nat} {bytes : List β}
    (hfit : off + bytes.length ≤ n) (hn : n ≤ cap) :
    window (put ring cap (pos + off) bytes) cap pos n =
      (window ring cap pos n).take off ++ bytes ++
        (window ring cap pos n).drop (off + bytes.length) := by
  have hsplit : n = off + (bytes.length + (n - (off + bytes.length))) := by omega
  have hlo : window (put ring cap (pos + off) bytes) cap pos off = window ring cap pos off :=
    window_congr fun p h₁ h₂ => put_before ring h₂ (by omega)
  have hhi : window (put ring cap (pos + off) bytes) cap (pos + (off + bytes.length))
      (n - (off + bytes.length)) =
      window ring cap (pos + (off + bytes.length)) (n - (off + bytes.length)) :=
    window_congr fun p h₁ h₂ => put_ahead ring (by omega) (by omega)
  have hmid : window (put ring cap (pos + off) bytes) cap (pos + off) bytes.length = bytes := by
    apply List.ext_getElem?
    intro j
    rcases Nat.lt_or_ge j bytes.length with hj | hj
    · rw [window_getElem? _ _ _ hj, put_inside ring (by omega) (by omega) (by omega),
        Nat.add_sub_cancel_left]
    · rw [List.getElem?_eq_none (by simpa using hj), List.getElem?_eq_none hj]
  rw [window_take _ _ _ (by omega), window_drop _ _ _ hfit]
  conv => lhs; rw [hsplit, window_add, window_add, hlo, hmid, Nat.add_assoc, hhi]
  rw [List.append_assoc]

/-- Copy `bytes` to consecutive addresses. -/
def blit (mem : Nat → β) (at_ : Nat) (bytes : List β) : Nat → β := fun i =>
  if at_ ≤ i then (bytes[i - at_]?).getD (mem i) else mem i

theorem blit_nil (mem : Nat → β) (at_ : Nat) : blit mem at_ [] = mem := by
  funext i
  simp [blit]

theorem blit_eq_put (mem : Nat → β) {pos : Nat} (bytes : List β) (hcap : 0 < cap)
    (hfit : pos % cap + bytes.length ≤ cap) :
    blit mem (pos % cap) bytes = put mem cap pos bytes := by
  funext i
  have hr : pos % cap < cap := Nat.mod_lt _ hcap
  unfold blit put behind
  by_cases hi : i < cap
  · rw [if_pos hi]
    split
    · have he : i + cap - pos % cap = i - pos % cap + cap := by omega
      have hl : i - pos % cap < cap := by omega
      rw [he, Nat.add_mod_right, Nat.mod_eq_of_lt hl]
    · have hl : i + cap - pos % cap < cap := by omega
      rw [Nat.mod_eq_of_lt hl, List.getElem?_eq_none (by omega), Option.getD_none]
  · rw [if_neg hi]
    split
    · rw [List.getElem?_eq_none (by omega), Option.getD_none]
    · rfl

/-- A copy that reaches the end of the ring goes on at its first cell. -/
theorem blit_blit_eq_put (mem : Nat → β) {pos : Nat} (bytes : List β) (hcap : 0 < cap)
    (hlen : bytes.length ≤ cap) (hwrap : cap < pos % cap + bytes.length) :
    blit (blit mem (pos % cap) (bytes.take (cap - pos % cap))) 0 (bytes.drop (cap - pos % cap)) =
      put mem cap pos bytes := by
  funext i
  have hr : pos % cap < cap := Nat.mod_lt _ hcap
  unfold blit put behind
  simp only [Nat.zero_le, if_true, Nat.sub_zero, List.getElem?_drop, List.getElem?_take]
  by_cases hi : i < cap
  · rw [if_pos hi]
    by_cases hp : pos % cap ≤ i
    · have he : i + cap - pos % cap = i - pos % cap + cap := by omega
      have hl : i - pos % cap < cap := by omega
      have hn : bytes.length ≤ cap - pos % cap + i := by omega
      rw [he, Nat.add_mod_right, Nat.mod_eq_of_lt hl, List.getElem?_eq_none hn,
        Option.getD_none, if_pos hp, if_pos (by omega)]
    · have he : i + cap - pos % cap = cap - pos % cap + i := by omega
      have hl : cap - pos % cap + i < cap := by omega
      rw [he, Nat.mod_eq_of_lt hl, if_neg hp]
  · have hn : bytes.length ≤ cap - pos % cap + i := by omega
    rw [if_neg hi, List.getElem?_eq_none hn, Option.getD_none, if_pos (by omega), if_neg (by omega),
      Option.getD_none]

/-- A ring carries a stream: what is ready and not yet released reads as `done`, what is
committed but not ready reads as `raw`. -/
structure Carries (ring : Nat → β) (μ : Marks cap) (raw done : List β) : Prop where
  raw_length : raw.length = μ.written
  done_length : done.length = μ.ready
  done_at : ∀ p, μ.read ≤ p → p < μ.ready → some (ring (p % cap)) = done[p]?
  raw_at : ∀ p, μ.ready ≤ p → p < μ.written → some (ring (p % cap)) = raw[p]?

namespace Carries

variable {ring : Nat → β} {μ : Marks cap} {raw done : List β}

theorem start (ring : Nat → β) : Carries ring (Marks.start cap) [] [] where
  raw_length := rfl
  done_length := rfl
  done_at p h₁ h₂ := by simp [Marks.start] at h₂
  raw_at p h₁ h₂ := by simp [Marks.start] at h₂

/-- Reservations on either side do not touch the contents. -/
theorem reserve (h : Carries ring μ raw done) (n : Nat) : Carries ring (μ.reserve n) raw done :=
  ⟨h.raw_length, h.done_length, h.done_at, h.raw_at⟩

theorem acquire (h : Carries ring μ raw done) (n : Nat) : Carries ring (μ.acquire n) raw done :=
  ⟨h.raw_length, h.done_length, h.done_at, h.raw_at⟩

theorem release (h : Carries ring μ raw done) (n : Nat) : Carries ring (μ.release n) raw done where
  raw_length := h.raw_length
  done_length := h.done_length
  done_at p h₁ h₂ := h.done_at p (by simp only [Marks.release] at h₁; omega) h₂
  raw_at := h.raw_at

/-- A store in the reserved part keeps the committed part. -/
theorem put (h : Carries ring μ raw done) {pos : Nat} {bytes : List β} (hlo : μ.written ≤ pos)
    (hhi : pos + bytes.length ≤ μ.writeAlloc) :
    Carries (put ring cap pos bytes) μ raw done where
  raw_length := h.raw_length
  done_length := h.done_length
  done_at p h₁ h₂ := by
    have := μ.chain
    rw [put_before ring (by omega) (by omega), h.done_at p h₁ h₂]
  raw_at p h₁ h₂ := by
    have := μ.chain
    rw [put_before ring (by omega) (by omega), h.raw_at p h₁ h₂]

theorem commit (h : Carries ring μ raw done) (n : Nat) :
    Carries ring (μ.commit n)
      (raw ++ window ring cap μ.written (min n (μ.writeAlloc - μ.written))) done where
  raw_length := by simp [Marks.commit, h.raw_length]
  done_length := h.done_length
  done_at := h.done_at
  raw_at p h₁ h₂ := by
    simp only [Marks.commit] at h₁ h₂
    rcases Nat.lt_or_ge p μ.written with hlt | hge
    · rw [List.getElem?_append_left (by rw [h.raw_length]; exact hlt), h.raw_at p h₁ hlt]
    · rw [List.getElem?_append_right (by rw [h.raw_length]; exact hge), h.raw_length,
        window_getElem? _ _ _ (by omega), Nat.add_sub_cancel' hge]

/-- Processing a block in place moves it from `raw` to `done`. -/
theorem mature (h : Carries ring μ raw done) {block : List β}
    (hlen : block.length ≤ μ.written - μ.ready) :
    Carries (RingMarks.put ring cap μ.ready block) (μ.mature block.length) raw (done ++ block) where
  raw_length := h.raw_length
  done_length := by simp [Marks.mature, h.done_length, Nat.min_eq_left hlen]
  done_at p h₁ h₂ := by
    simp only [Marks.mature, Nat.min_eq_left hlen] at h₁ h₂
    have := μ.chain
    rcases Nat.lt_or_ge p μ.ready with hlt | hge
    · rw [put_before ring hlt (by omega), List.getElem?_append_left (by rw [h.done_length]; exact hlt),
        h.done_at p h₁ hlt]
    · rw [put_inside ring (by omega) hge (by omega),
        List.getElem?_append_right (by rw [h.done_length]; exact hge), h.done_length]
  raw_at p h₁ h₂ := by
    simp only [Marks.mature, Nat.min_eq_left hlen] at h₁ h₂
    have := μ.chain
    rw [put_ahead ring h₁ (by omega), h.raw_at p (by omega) h₂]

/-- When nothing is done to the bytes on the way, being ready is only a matter of the mark. -/
theorem pass (h : Carries ring μ raw (raw.take μ.ready)) (n : Nat) :
    Carries ring (μ.mature n) raw (raw.take (μ.mature n).ready) where
  raw_length := h.raw_length
  done_length := by
    have := (μ.mature n).chain
    rw [List.length_take, h.raw_length, Nat.min_eq_left]
    exact this.2.2.1
  done_at p h₁ h₂ := by
    have := (μ.mature n).ready_le
    rw [List.getElem?_take, if_pos h₂]
    rcases Nat.lt_or_ge p μ.ready with hlt | hge
    · rw [h.done_at p h₁ hlt, List.getElem?_take, if_pos hlt]
    · exact h.raw_at p hge (Nat.lt_of_lt_of_le h₂ this)
  raw_at p h₁ h₂ := h.raw_at p (by simp only [Marks.mature] at h₁; omega) h₂

theorem window_done (h : Carries ring μ raw done) {pos n : Nat} (hlo : μ.read ≤ pos)
    (hhi : pos + n ≤ μ.ready) : window ring cap pos n = (done.drop pos).take n := by
  apply List.ext_getElem?
  intro j
  rcases Nat.lt_or_ge j n with hj | hj
  · rw [window_getElem? _ _ _ hj, List.getElem?_take, if_pos hj, List.getElem?_drop,
      h.done_at (pos + j) (by omega) (by omega)]
  · rw [List.getElem?_eq_none (by simpa using hj), List.getElem?_eq_none (by simp; omega)]

theorem window_raw (h : Carries ring μ raw done) {pos n : Nat} (hlo : μ.ready ≤ pos)
    (hhi : pos + n ≤ μ.written) : window ring cap pos n = (raw.drop pos).take n := by
  apply List.ext_getElem?
  intro j
  rcases Nat.lt_or_ge j n with hj | hj
  · rw [window_getElem? _ _ _ hj, List.getElem?_take, if_pos hj, List.getElem?_drop,
      h.raw_at (pos + j) (by omega) (by omega)]
  · rw [List.getElem?_eq_none (by simpa using hj), List.getElem?_eq_none (by simp; omega)]

end Carries

end RingMarks
