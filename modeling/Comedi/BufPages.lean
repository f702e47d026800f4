import Comedi.DataModel

namespace Comedi.BufPages

def pageSize : Nat := 4096

/-- Pages by the number of their allocation: those that were ever allocated are below `next`. -/
structure Pool where
  next : Nat := 0
  freed : List Nat := []
  deriving DecidableEq, Repr

def Pool.live (pool : Pool) (p : Nat) : Prop := p < pool.next ∧ p ∉ pool.freed

def Pool.free (pool : Pool) (ps : List Nat) : Pool := { pool with freed := pool.freed ++ ps }

/-- The next `n` pages. -/
def Pool.fresh (pool : Pool) (n : Nat) : List Nat := (List.range n).map (pool.next + ·)

def Pool.take (pool : Pool) (n : Nat) : Pool := { pool with next := pool.next + n }

/-- The fields of `comedi_async` that `comedi_buf_alloc` keeps: the mapping of the pages, its
size, and the list of the pages. -/
structure Buffer where
  preallocBuf : Option (List Nat) := none
  preallocBufsz : U32 := 0
  bufPageList : Option (List Nat) := none
  nBufPages : Nat := 0
  deriving DecidableEq, Repr

def Buffer.pages (a : Buffer) : List Nat := a.bufPageList.getD []

/-- Which of the allocations that `comedi_buf_alloc` makes succeed: the two arrays, so many of the
pages, and the mapping. -/
structure Allocs where
  pageList : Bool := true
  pages : Bool := true
  failAt : Option Nat := none
  vmap : Bool := true
  deriving DecidableEq, Repr

/-- How many of `n` pages are allocated. -/
def Allocs.got (o : Allocs) (n : Nat) : Nat :=
  if o.pageList ∧ o.pages then
    match o.failAt with
    | none => n
    | some k => min k n
  else 0

def roundUp (n : Nat) : Nat := (n + (pageSize - 1)) / pageSize * pageSize

def unmapBuf (a : Buffer) : Buffer :=
  if a.preallocBuf.isSome then { a with preallocBuf := none, preallocBufsz := 0 } else a

def freePageList (pool : Pool) (a : Buffer) : Pool × Buffer :=
  match a.bufPageList with
  | none => (pool, a)
  | some ps => (pool.free (ps.take a.nBufPages), { a with bufPageList := none, nBufPages := 0 })

/-- The second half of `comedi_buf_alloc`, for a size of at least one page. -/
def allocPages (pool : Pool) (a : Buffer) (newSize : Nat) (o : Allocs) : Int × Pool × Buffer :=
  let nPages := newSize / pageSize
  let got := o.got nPages
  let pages := pool.fresh got
  let pool := pool.take got
  if o.pageList ∧ o.pages ∧ got = nPages ∧ o.vmap then
    (0, pool, { a with
      preallocBuf := some pages
      preallocBufsz := .ofNat 32 newSize
      bufPageList := some pages
      nBufPages := nPages })
  else (-enomem, pool.free pages, { a with bufPageList := none })

def comediBufAlloc (pool : Pool) (a : Buffer) (newSize : Nat) (o : Allocs) : Int × Pool × Buffer :=
  let newSize := roundUp newSize
  if a.preallocBuf.isSome ∧ a.preallocBufsz.toNat = newSize then (0, pool, a)
  else
    let (pool, a) := freePageList pool (unmapBuf a)
    if newSize = 0 then (0, pool, { a with preallocBufsz := 0 })
    else allocPages pool a newSize o

/-- A buffer that is mapped as its page list says, or that has no pages. -/
structure Buffer.Ok (a : Buffer) : Prop where
  nBufPages : a.nBufPages = a.pages.length
  mapped : ∀ ps, a.preallocBuf = some ps →
    a.bufPageList = some ps ∧ a.preallocBufsz.toNat = pageSize * ps.length
  unmapped : a.preallocBuf = none → a.bufPageList = none ∧ a.preallocBufsz = 0

variable {pool : Pool} {a : Buffer} {newSize : Nat} {o : Allocs}

theorem Buffer.Ok.empty : Buffer.Ok {} := ⟨rfl, nofun, fun _ => ⟨rfl, rfl⟩⟩

theorem Buffer.pages_of_some {ps : List Nat} (h : a.bufPageList = some ps) : a.pages = ps := by
  rw [Buffer.pages, h]
  rfl

theorem fresh_mem {n : Nat} {p : Nat} : p ∈ pool.fresh n ↔ pool.next ≤ p ∧ p < pool.next + n := by
  constructor
  · intro h
    obtain ⟨i, hi, rfl⟩ := List.mem_map.mp h
    have := List.mem_range.mp hi
    omega
  · intro h
    exact List.mem_map.mpr ⟨p - pool.next, List.mem_range.mpr (by omega), by omega⟩

@[simp] theorem fresh_length (n : Nat) : (pool.fresh n).length = n := by simp [Pool.fresh]

theorem fresh_nodup (n : Nat) : (pool.fresh n).Nodup :=
  List.nodup_range.map fun _ _ h => Nat.add_left_cancel h

theorem pageSize_dvd_roundUp (n : Nat) : pageSize ∣ roundUp n := ⟨_, Nat.mul_comm _ _⟩

theorem freePageList_ok (h : a.Ok) :
    freePageList pool (unmapBuf a) = (pool.free a.pages, ({} : Buffer)) := by
  have hn := h.nBufPages
  cases hb : a.preallocBuf with
  | some ps =>
    obtain ⟨hl, -⟩ := h.mapped ps hb
    have hp := Buffer.pages_of_some hl
    rw [hp] at hn
    simp only [unmapBuf, hb, Option.isSome_some, if_true, freePageList, hl, hn, List.take_length, hp]
  | none =>
    obtain ⟨hl, hz⟩ := h.unmapped hb
    have hp : a.pages = [] := by rw [Buffer.pages, hl]; rfl
    rw [hp] at hn
    obtain ⟨b, sz, l, n⟩ := a
    cases hb
    cases hl
    cases hz
    cases hn
    simp [unmapBuf, freePageList, Pool.free, Buffer.pages]

/-- What `comedi_buf_alloc` can do to a buffer: nothing, take its pages away for good, or put new
ones in their place. -/
inductive Realloc (pool : Pool) (a : Buffer) (newSize : Nat) : Int → Pool → Buffer → Prop where
  | same (h : a.preallocBuf.isSome) (hz : a.preallocBufsz.toNat = roundUp newSize) :
    Realloc pool a newSize 0 pool a
  | failed (n : Nat) (hz : roundUp newSize ≠ 0) : Realloc pool a newSize (-enomem)
      (((pool.free a.pages).take n).free (pool.fresh n)) {}
  | emptied (hz : roundUp newSize = 0) : Realloc pool a newSize 0 (pool.free a.pages) {}
  | replaced (n : Nat) (hn : pageSize * n = roundUp newSize) (hpos : 0 < n)
      (hlt : roundUp newSize < 2 ^ 32) :
    Realloc pool a newSize 0 ((pool.free a.pages).take n)
      { preallocBuf := some (pool.fresh n)
        preallocBufsz := .ofNat 32 (roundUp newSize)
        bufPageList := some (pool.fresh n)
        nBufPages := n }

theorem comediBufAlloc_realloc (pool : Pool) (h : a.Ok) (hlt : roundUp newSize < 2 ^ 32)
    (o : Allocs) :
    Realloc pool a newSize (comediBufAlloc pool a newSize o).1
      (comediBufAlloc pool a newSize o).2.1 (comediBufAlloc pool a newSize o).2.2 := by
  unfold comediBufAlloc
  dsimp only
  split
  · next hs => exact .same hs.1 hs.2
  rw [freePageList_ok h]
  dsimp only
  split
  · next hz => exact .emptied hz
  next hz =>
  obtain ⟨n, hn⟩ := pageSize_dvd_roundUp newSize
  have hq : roundUp newSize / pageSize = n := by
    rw [hn]
    exact Nat.mul_div_cancel_left n (by decide)
  unfold allocPages
  dsimp only
  rw [hq]
  split
  · next hall =>
    rw [hall.2.2.1]
    refine .replaced n hn.symm (Nat.pos_of_ne_zero fun h0 => hz ?_) hlt
    rw [hn, h0, Nat.mul_zero]
  · exact .failed (o.got n) hz

theorem Realloc.ok {r : Int} {pool' : Pool} {a' : Buffer} (h : Realloc pool a newSize r pool' a')
    (ha : a.Ok) : a'.Ok := by
  cases h with
  | same => exact ha
  | failed n => exact .empty
  | emptied hz => exact .empty
  | replaced n hn hpos hlt =>
    refine ⟨?_, ?_, nofun⟩
    · simp [Buffer.pages]
    · rintro ps hps
      cases hps
      refine ⟨rfl, ?_⟩
      rw [fresh_length, hn, BitVec.toNat_ofNat, Nat.mod_eq_of_lt hlt]

/-- What is freed was the buffer's or is new. -/
theorem Realloc.freed {r : Int} {pool' : Pool} {a' : Buffer} (h : Realloc pool a newSize r pool' a')
    {p : Nat} (hp : p ∈ pool'.freed) : p ∈ pool.freed ∨ p ∈ a.pages ∨ pool.next ≤ p := by
  cases h with
  | same => exact .inl hp
  | failed n =>
    rcases List.mem_append.mp hp with hp | hp
    · rcases List.mem_append.mp hp with hp | hp
      · exact .inl hp
      · exact .inr (.inl hp)
    · exact .inr (.inr (fresh_mem.mp hp).1)
  | emptied hz | replaced n hn hpos hlt =>
    rcases List.mem_append.mp hp with hp | hp
    · exact .inl hp
    · exact .inr (.inl hp)

theorem Realloc.next_le {r : Int} {pool' : Pool} {a' : Buffer}
    (h : Realloc pool a newSize r pool' a') : pool.next ≤ pool'.next := by
  cases h with
  | same | emptied => exact le_rfl
  | failed n => exact Nat.le_add_right _ _
  | replaced n => exact Nat.le_add_right _ _

theorem Realloc.freed_lt {r : Int} {pool' : Pool} {a' : Buffer}
    (h : Realloc pool a newSize r pool' a') (hf : ∀ p ∈ pool.freed, p < pool.next)
    (ha : ∀ p ∈ a.pages, p < pool.next) : ∀ p ∈ pool'.freed, p < pool'.next := by
  intro p hp
  have hle := h.next_le
  cases h with
  | same => exact hf p hp
  | failed n =>
    rcases List.mem_append.mp hp with hp | hp
    · have hlt : p < pool.next := by
        rcases List.mem_append.mp hp with hp | hp
        · exact hf p hp
        · exact ha p hp
      exact Nat.lt_of_lt_of_le hlt hle
    · exact (fresh_mem.mp hp).2
  | emptied | replaced n =>
    have hlt : p < pool.next := by
      rcases List.mem_append.mp hp with hp | hp
      · exact hf p hp
      · exact ha p hp
    exact Nat.lt_of_lt_of_le hlt hle

/-- A page of the new buffer was a page of an old buffer that is left alone, or is new. -/
theorem Realloc.pages {r : Int} {pool' : Pool} {a' : Buffer} (h : Realloc pool a newSize r pool' a')
    {p : Nat} (hp : p ∈ a'.pages) :
    pool' = pool ∧ p ∈ a.pages ∨ pool.next ≤ p ∧ p < pool'.next ∧ (p ∈ pool'.freed →
      p ∈ pool.freed ∨ p ∈ a.pages) := by
  cases h with
  | same => exact .inl ⟨rfl, hp⟩
  | failed n => cases hp
  | emptied => cases hp
  | replaced n =>
    obtain ⟨h₁, h₂⟩ := fresh_mem.mp (show p ∈ pool.fresh n from hp)
    refine .inr ⟨h₁, h₂, fun hf => List.mem_append.mp hf⟩

/-- A buffer that is resized to nothing gives its pages back. -/
theorem comediBufAlloc_zero (pool : Pool) (h : a.Ok) (o : Allocs) :
    (comediBufAlloc pool a 0 o).2.1.next = pool.next ∧
      ∀ p ∈ (comediBufAlloc pool a 0 o).2.1.freed, p ∈ pool.freed ∨ p ∈ a.pages := by
  have hr := comediBufAlloc_realloc pool h (show roundUp 0 < 2 ^ 32 by decide) o
  generalize (comediBufAlloc pool a 0 o).1 = r at hr
  generalize (comediBufAlloc pool a 0 o).2.1 = pool' at hr ⊢
  generalize (comediBufAlloc pool a 0 o).2.2 = a' at hr
  cases hr with
  | same => exact ⟨rfl, fun p hp => .inl hp⟩
  | failed n hz => exact absurd rfl hz
  | emptied => exact ⟨rfl, fun p hp => List.mem_append.mp hp⟩
  | replaced n hn hpos =>
    have hz : pageSize * n = 0 := hn
    rw [pageSize] at hz
    omega

end Comedi.BufPages
