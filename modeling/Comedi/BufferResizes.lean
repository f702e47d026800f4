import Comedi.MappedBuffers

namespace Comedi.BufferResizes

open BufPages MappedBuffers GuardedRuns

/-- The buffer of a subdevice, with the pages that were ever allocated for it. -/
structure Sub where
  pool : Pool := {}
  async : AsyncObj
  busy : Bool := false

def resizeAsyncBuffer (st : Sub) (newSize : U32) (o : Allocs) (bufChange : Option Int) :
    Int × Sub :=
  if st.async.maxBufsize < newSize then (-eperm, st)
  else if st.busy then (-ebusy, st)
  else if st.async.mmapCount ≠ 0 then (-ebusy, st)
  else if st.async.buf.preallocBuf.isNone then (-einval, st)
  else
    let newSize := (BitVec.ofNat 32 (roundUp newSize.toNat)).toNat
    let (ret, pool, buf) := comediBufAlloc st.pool st.async.buf newSize o
    let st := { st with pool := pool, async := { st.async with buf := buf } }
    if ret < 0 then (ret, st) else (bufChange.getD 0, st)

/-- It is what the kernel's structures go through when the async is one of them. -/
theorem resizeAsyncBuffer_kernel {k : Kernel} {s : MapSubdevice} {id : Nat} {a : AsyncObj}
    (ha : k.asyncs id = some a) (newSize : U32) (o : Allocs) (b : Option Int) :
    MappedBuffers.resizeAsyncBuffer k s id a newSize o b =
      let (ret, st) := resizeAsyncBuffer ⟨k.pool, a, s.busy⟩ newSize o b
      (ret, { k with
        pool := st.pool
        asyncs := Function.update k.asyncs id (some st.async) }) := by
  have hself : Function.update k.asyncs id (some a) = k.asyncs := by
    rw [← ha, Function.update_eq_self]
  unfold MappedBuffers.resizeAsyncBuffer resizeAsyncBuffer reallocBuf
  simp only [ha]
  repeat' split
  all_goals first
    | rfl
    | rw [hself]

def doBufconfigIoctl (st : Sub) (admin : Bool) (maximumSize size : U32) (o : Allocs)
    (bufChange : Option Int) (copyOut : Bool) : Int × Sub :=
  if maximumSize ≠ 0 ∧ ¬ admin then (-eperm, st)
  else
    let st := if maximumSize ≠ 0
      then { st with async := { st.async with maxBufsize := maximumSize } } else st
    let (ret, st) := if size ≠ 0 then resizeAsyncBuffer st size o bufChange else (0, st)
    if ret < 0 then (ret, st) else if copyOut then (0, st) else (-efault, st)

/-- Storing `kb` kilobytes in the attribute `read_buffer_kb` or `write_buffer_kb`. -/
def storeBufferKb (st : Sub) (kb : Nat) (o : Allocs) (bufChange : Option Int) (count : Nat) :
    Int × Sub :=
  if 2 ^ 32 ≤ kb * 1024 then (-einval, st)
  else
    let (ret, st) := resizeAsyncBuffer st (.ofNat 32 (kb * 1024)) o bufChange
    if ret < 0 then (ret, st) else (count, st)

/-- Storing `kb` kilobytes in `max_read_buffer_kb` or `max_write_buffer_kb`. -/
def storeMaxBufferKb (st : Sub) (kb : Nat) (count : Nat) : Int × Sub :=
  if 2 ^ 32 ≤ kb * 1024 then (-einval, st)
  else (count, { st with async := { st.async with maxBufsize := .ofNat 32 (kb * 1024) } })

inductive Request where
  | bufconfig (admin : Bool) (maximumSize size : U32) (o : Allocs) (bufChange : Option Int)
      (copyOut : Bool)
  | storeBufferKb (kb : Nat) (o : Allocs) (bufChange : Option Int) (count : Nat)
  | storeMaxBufferKb (kb : Nat) (count : Nat)

def perform (st : Sub) : Request → Int × Sub
  | .bufconfig admin maximumSize size o bufChange copyOut =>
    doBufconfigIoctl st admin maximumSize size o bufChange copyOut
  | .storeBufferKb kb o bufChange count => storeBufferKb st kb o bufChange count
  | .storeMaxBufferKb kb count => storeMaxBufferKb st kb count

def resizeStep (st : Sub) (x : Request) : Except Empty Sub := .ok (perform st x).2

/-- The maximum that a request is measured against. -/
def Request.maxBufsize (st : Sub) : Request → U32
  | .bufconfig _ maximumSize .. => if maximumSize ≠ 0 then maximumSize else st.async.maxBufsize
  | _ => st.async.maxBufsize

/-- What a request asks of `resize_async_buffer`. -/
def Request.resize : Request → Option (Nat × Allocs × Int)
  | .bufconfig _ _ size o bufChange _ =>
    if size ≠ 0 then some (size.toNat, o, bufChange.getD 0) else none
  | .storeBufferKb kb o bufChange _ => some (kb * 1024, o, bufChange.getD 0)
  | .storeMaxBufferKb _ _ => none

/-- The request is well-formed, and the user may make it. -/
def Request.Allowed (st : Sub) (x : Request) : Prop :=
  (∀ n o c, x.resize = some (n, o, c) → n ≤ (x.maxBufsize st).toNat) ∧
    match x with
    | .bufconfig admin maximumSize .. => maximumSize ≠ 0 → admin
    | .storeBufferKb kb .. => kb * 1024 < 2 ^ 32
    | .storeMaxBufferKb kb .. => kb * 1024 < 2 ^ 32

def Request.copiesOut : Request → Prop
  | .bufconfig _ _ _ _ _ copyOut => copyOut
  | _ => True

/-- All the allocations for so many pages succeed. -/
def Succeeds (o : Allocs) (n : Nat) : Prop := o.pageList ∧ o.pages ∧ o.got n = n ∧ o.vmap

/-- The request is allowed, and nothing that it needs fails. -/
def Request.Sound (st : Sub) (x : Request) : Prop :=
  x.Allowed st ∧ x.copiesOut ∧
    ∀ n o c, x.resize = some (n, o, c) → Succeeds o (roundUp n / pageSize) ∧ 0 ≤ c

/-- The buffer is there or not, with all its fields, and the pages that are allocated are those in
its list. No page was freed twice. -/
structure Accounted (st : Sub) : Prop where
  mapped : st.async.buf.preallocBuf.isSome ↔ 0 < st.async.buf.preallocBufsz
  listed : st.async.buf.preallocBuf.isSome ↔ st.async.buf.bufPageList.isSome
  bufsz : st.async.buf.preallocBufsz.toNat = st.async.buf.nBufPages * pageSize
  pages : st.async.buf.pages.length = st.async.buf.nBufPages
  nodup : st.async.buf.pages.Nodup
  live : ∀ p, st.pool.live p ↔ p ∈ st.async.buf.pages
  freed : st.pool.freed.Nodup

def Recoverable (st : Sub) : Prop := ∀ x : Request, x.Sound st → 0 ≤ (perform st x).1

/-- The request leaves the pages accounted, gives the size that was asked for or fails, fails only
if something it needs does, and where it fails others can still succeed. -/
structure Proper (st : Sub) (x : Request) : Prop where
  accounted : Accounted (perform st x).2
  size : 0 ≤ (perform st x).1 → ∀ n o c, x.resize = some (n, o, c) →
    (perform st x).2.async.buf.preallocBufsz.toNat = roundUp n
  sound : x.Sound st → 0 ≤ (perform st x).1
  recoverable : (perform st x).1 < 0 → Recoverable (perform st x).2

def HasBuffer (st : Sub) : Prop := st.async.buf.preallocBuf.isSome

/-- The size can be rounded up in 32 bits, and what has to be allocated is. -/
def Suits (st : Sub) (n : Nat) (o : Allocs) (c : Int) : Prop :=
  n ≤ 2 ^ 32 - pageSize ∧
    if n = 0 then 0 ≤ c
    else Succeeds o (roundUp n / pageSize) ∨ st.async.buf.preallocBufsz.toNat = roundUp n

/-- A request that fails or resizes finds a buffer, and one that resizes suits. -/
def Fits (st : Sub) (x : Request) : Prop :=
  (HasBuffer st ∨ x.Allowed st ∧ x.copiesOut ∧ x.resize = none) ∧
    (x.Allowed st → ∀ n o c, x.resize = some (n, o, c) → Suits st n o c)

/-- The invariant of a buffer and its pages. -/
structure Paged (st : Sub) : Prop where
  ok : st.async.buf.Ok
  nonempty : ∀ ps, st.async.buf.preallocBuf = some ps → ps ≠ []
  nodup : st.async.buf.pages.Nodup
  live : ∀ p, st.pool.live p ↔ p ∈ st.async.buf.pages
  freed : st.pool.freed.Nodup
  freed_lt : ∀ p ∈ st.pool.freed, p < st.pool.next

/-- The buffer can be resized. -/
structure Held (st : Sub) : Prop extends Paged st where
  idle : st.busy = false
  unmapped : st.async.mmapCount = 0

variable {st : Sub} {x : Request} {n : Nat} {o : Allocs} {c r : Int} {b : Option Int}
  {a a' : Buffer} {pool pool' : Pool} {newSize : U32}

theorem Paged.accounted (h : Paged st) : Accounted st := by
  have hlen := h.ok.nBufPages
  cases hb : st.async.buf.preallocBuf with
  | none =>
    obtain ⟨hl, hz⟩ := h.ok.unmapped hb
    have hp : st.async.buf.pages = [] := by
      rw [Buffer.pages, hl]
      rfl
    refine ⟨by simp [hb, hz], by simp [hb, hl], ?_, hlen.symm, h.nodup, h.live, h.freed⟩
    rw [hz, hlen, hp]
    rfl
  | some ps =>
    obtain ⟨hl, hz⟩ := h.ok.mapped ps hb
    have hp := Buffer.pages_of_some hl
    have hpos := List.length_pos_iff.mpr (h.nonempty ps hb)
    refine ⟨?_, by simp [hb, hl], ?_, hlen.symm, h.nodup, h.live, h.freed⟩
    · simp only [hb, Option.isSome_some, true_iff, BitVec.lt_def]
      rw [hz]
      exact Nat.mul_pos (by decide) hpos
    · rw [hz, hlen, hp, Nat.mul_comm]

theorem Held.maxBufsize (h : Held st) (m : U32) :
    Held { st with async := { st.async with maxBufsize := m } } :=
  ⟨⟨h.ok, h.nonempty, h.nodup, h.live, h.freed, h.freed_lt⟩, h.idle, h.unmapped⟩

/-- What `comedi_buf_alloc` does keeps the pages accounted. -/
theorem Paged.realloc (h : Paged st) (hr : Realloc st.pool st.async.buf n r pool' a') :
    Paged { st with pool := pool', async := { st.async with buf := a' } } := by
  have hpages : ∀ p ∈ st.async.buf.pages, p < st.pool.next := fun p hp => ((h.live p).mpr hp).1
  have hfree : (st.pool.freed ++ st.async.buf.pages).Nodup :=
    List.nodup_append.mpr ⟨h.freed, h.nodup, fun p hp q hq he =>
      ((h.live q).mpr hq).2 (he ▸ hp)⟩
  have hlt : ∀ p ∈ st.pool.freed ++ st.async.buf.pages, p < st.pool.next := by
    intro p hp
    rcases List.mem_append.mp hp with hp | hp
    · exact h.freed_lt p hp
    · exact hpages p hp
  have hold : ∀ p, p < st.pool.next → p ∈ st.pool.freed ++ st.async.buf.pages := by
    intro p hp
    by_cases hf : p ∈ st.pool.freed
    · exact List.mem_append_left _ hf
    · exact List.mem_append_right _ ((h.live p).mp ⟨hp, hf⟩)
  have hok := hr.ok h.ok
  have hfl := hr.freed_lt h.freed_lt hpages
  cases hr with
  | same => exact ⟨h.ok, h.nonempty, h.nodup, h.live, h.freed, h.freed_lt⟩
  | emptied hz =>
    refine ⟨hok, nofun, List.nodup_nil, fun p => ?_, hfree, hfl⟩
    exact ⟨fun hp => absurd (hold p hp.1) hp.2, nofun⟩
  | failed k hz =>
    refine ⟨hok, nofun, List.nodup_nil, fun p => ⟨fun hp => ?_, nofun⟩, ?_, hfl⟩
    · refine absurd ?_ hp.2
      by_cases hnext : p < st.pool.next
      · exact List.mem_append_left _ (hold p hnext)
      · exact List.mem_append_right _ (fresh_mem.mpr ⟨by omega, hp.1⟩)
    · refine List.nodup_append.mpr ⟨hfree, fresh_nodup k, fun p hp q hq he => ?_⟩
      have h₁ := hlt p hp
      have h₂ := (fresh_mem.mp hq).1
      omega
  | replaced k hn hpos hsz =>
    refine ⟨hok, ?_, fresh_nodup k, fun p => ?_, hfree, hfl⟩
    · rintro ps hps rfl
      have hlen := congrArg List.length (Option.some.inj hps)
      rw [fresh_length] at hlen
      exact absurd hlen (Nat.ne_of_gt hpos)
    · change p < st.pool.next + k ∧ p ∉ st.pool.freed ++ st.async.buf.pages ↔ p ∈ st.pool.fresh k
      rw [fresh_mem]
      constructor
      · rintro ⟨hp, hnot⟩
        exact ⟨Nat.le_of_not_lt fun hlt' => hnot (hold p hlt'), hp⟩
      · rintro ⟨hle, hp⟩
        exact ⟨hp, fun hmem => absurd (hlt p hmem) (Nat.not_lt.mpr hle)⟩

/-- A size rounded up to a page as `resize_async_buffer` does it, in an `unsigned`. -/
def rounded (n : Nat) : Nat := (BitVec.ofNat 32 (roundUp n)).toNat

theorem roundUp_rounded (n : Nat) : roundUp (rounded n) = rounded n := by
  unfold rounded roundUp pageSize
  rw [BitVec.toNat_ofNat]
  omega

theorem rounded_of_le (h : n ≤ 2 ^ 32 - pageSize) : rounded n = roundUp n := by
  unfold rounded roundUp pageSize at *
  rw [BitVec.toNat_ofNat]
  omega

theorem rounded_of_lt (h : 2 ^ 32 - pageSize < n) (hlt : n < 2 ^ 32) : rounded n = 0 := by
  unfold rounded roundUp pageSize at *
  rw [BitVec.toNat_ofNat]
  omega

theorem roundUp_pos (h : 0 < n) : 0 < roundUp n := by
  unfold roundUp pageSize
  omega

theorem alloc_same (h : a.preallocBuf.isSome) (hz : a.preallocBufsz.toNat = roundUp n) :
    comediBufAlloc pool a n o = (0, pool, a) := if_pos ⟨h, hz⟩

theorem alloc_emptied (h : a.Ok) (hz : roundUp n = 0) (hne : a.preallocBufsz ≠ 0) :
    comediBufAlloc pool a n o = (0, pool.free a.pages, {}) := by
  have hne' : ¬ (a.preallocBuf.isSome ∧ a.preallocBufsz.toNat = roundUp n) := by
    rintro ⟨-, he⟩
    exact hne (BitVec.eq_of_toNat_eq (he.trans hz))
  unfold comediBufAlloc
  dsimp only
  rw [if_neg hne', freePageList_ok h, if_pos hz]

theorem alloc_changed (h : a.Ok) (hz : roundUp n ≠ 0) (hne : a.preallocBufsz.toNat ≠ roundUp n) :
    comediBufAlloc pool a n o = allocPages (pool.free a.pages) {} (roundUp n) o := by
  unfold comediBufAlloc
  dsimp only
  rw [if_neg fun hs => hne hs.2, freePageList_ok h, if_neg hz]

theorem allocPages_succeeds (hs : Succeeds o (n / pageSize)) :
    allocPages pool {} n o = (0, pool.take (n / pageSize), {
      preallocBuf := some (pool.fresh (n / pageSize))
      preallocBufsz := .ofNat 32 n
      bufPageList := some (pool.fresh (n / pageSize))
      nBufPages := n / pageSize }) := by
  obtain ⟨hl, hp, hgot, hv⟩ := hs
  unfold allocPages
  dsimp only
  rw [if_pos ⟨hl, hp, hgot, hv⟩, hgot]

theorem allocPages_fails (pool : Pool) (hs : ¬ Succeeds o (n / pageSize)) :
    ∃ pool', allocPages pool {} n o = (-enomem, pool', {}) := ⟨_, if_neg hs⟩

theorem resize_refused (o : Allocs) (b : Option Int) (h : Held st)
    (hr : st.async.maxBufsize < newSize ∨ ¬ HasBuffer st) :
    (resizeAsyncBuffer st newSize o b).1 < 0 ∧ (resizeAsyncBuffer st newSize o b).2 = st := by
  unfold resizeAsyncBuffer
  split
  · exact ⟨show -eperm < 0 by decide, rfl⟩
  next hle =>
  have hb : st.async.buf.preallocBuf.isNone := by
    have hno := hr.resolve_left hle
    unfold HasBuffer at hno
    simpa using hno
  rw [if_neg (by simp [h.idle]), if_neg (not_not_intro h.unmapped), if_pos hb]
  exact ⟨show -einval < 0 by decide, rfl⟩

theorem resize_reached (h : Held st) (hb : HasBuffer st)
    (hle : ¬ st.async.maxBufsize < newSize) :
    resizeAsyncBuffer st newSize o b =
      let (ret, pool, buf) := comediBufAlloc st.pool st.async.buf (rounded newSize.toNat) o
      let st := { st with pool := pool, async := { st.async with buf := buf } }
      if ret < 0 then (ret, st) else (b.getD 0, st) := by
  unfold resizeAsyncBuffer
  have hsome : ¬ st.async.buf.preallocBuf.isNone := fun hn => by
    rw [HasBuffer, Option.isNone_iff_eq_none.mp hn] at hb
    cases hb
  rw [if_neg hle, if_neg (by simp [h.idle]), if_neg (not_not_intro h.unmapped), if_neg hsome]
  rfl

theorem Held.resize (h : Held st) (newSize : U32) (o : Allocs) (b : Option Int) :
    Held (resizeAsyncBuffer st newSize o b).2 := by
  by_cases hr : st.async.maxBufsize < newSize ∨ ¬ HasBuffer st
  · rw [(resize_refused o b h hr).2]
    exact h
  rw [not_or, not_not] at hr
  rw [resize_reached h hr.2 hr.1]
  have hrealloc := comediBufAlloc_realloc st.pool h.ok (roundUp_ofNat newSize.toNat) o
  have hpaged := h.realloc hrealloc
  dsimp only
  split
  · exact ⟨hpaged, h.idle, h.unmapped⟩
  · exact ⟨hpaged, h.idle, h.unmapped⟩

/-- A resize that is refused changes nothing, and one that fails leaves no buffer. -/
theorem Paged.resize (h : Paged st) (newSize : U32) (o : Allocs) :
    Paged (resizeAsyncBuffer st newSize o none).2 ∧
      ((resizeAsyncBuffer st newSize o none).1 < 0 →
        (resizeAsyncBuffer st newSize o none).2 = st ∨
          (resizeAsyncBuffer st newSize o none).2.async.buf.preallocBufsz = 0) := by
  unfold resizeAsyncBuffer
  split
  · exact ⟨h, fun _ => .inl rfl⟩
  split
  · exact ⟨h, fun _ => .inl rfl⟩
  split
  · exact ⟨h, fun _ => .inl rfl⟩
  split
  · exact ⟨h, fun _ => .inl rfl⟩
  have hrealloc := comediBufAlloc_realloc st.pool h.ok (roundUp_ofNat newSize.toNat) o
  have hpaged := h.realloc hrealloc
  dsimp only
  generalize comediBufAlloc st.pool st.async.buf _ o = q at hrealloc hpaged ⊢
  obtain ⟨ret, pool', a'⟩ := q
  split
  · next hneg =>
    refine ⟨hpaged, fun _ => .inr ?_⟩
    cases hrealloc with
    | failed => rfl
    | same | emptied | replaced => exact absurd hneg (lt_irrefl 0)
  · exact ⟨hpaged, fun hneg => absurd hneg (lt_irrefl 0)⟩

theorem Paged.emptied (h : Paged st) (o : Allocs) :
    (comediBufAlloc st.pool st.async.buf 0 o).2.2 = {} := by
  have hrealloc := comediBufAlloc_realloc st.pool h.ok (show roundUp 0 < 2 ^ 32 by decide) o
  generalize comediBufAlloc st.pool st.async.buf 0 o = q at hrealloc ⊢
  obtain ⟨ret, pool', a'⟩ := q
  cases hrealloc with
  | failed | emptied => rfl
  | replaced n hn hpos =>
    have hz : pageSize * n = 0 := hn
    exact absurd (Nat.mul_pos (show 0 < pageSize by decide) hpos) (by omega)
  | same hb hz =>
    have hpos := BitVec.lt_def.mp (h.accounted.mapped.mp hb)
    rw [hz] at hpos
    exact absurd hpos (by decide)

theorem HasBuffer.bufsz_pos (h : Held st) (hb : HasBuffer st) :
    st.async.buf.preallocBufsz ≠ 0 := fun hz => by
  have hpos := h.accounted.mapped.mp hb
  rw [hz] at hpos
  exact absurd hpos (by decide)

/-- A size that suits is what the buffer has afterwards. -/
theorem resize_suits (h : Held st) (hb : HasBuffer st) (hle : ¬ st.async.maxBufsize < newSize)
    (hs : Suits st newSize.toNat o (b.getD 0)) :
    (resizeAsyncBuffer st newSize o b).1 = b.getD 0 ∧
      (resizeAsyncBuffer st newSize o b).2.async.buf.preallocBufsz.toNat =
        roundUp newSize.toNat ∧
      (newSize.toNat ≠ 0 → HasBuffer (resizeAsyncBuffer st newSize o b).2) := by
  obtain ⟨hn, hs⟩ := hs
  have hround := rounded_of_le hn
  have hrr := roundUp_rounded newSize.toNat
  rw [resize_reached h hb hle]
  by_cases hz : newSize.toNat = 0
  · have h0 : roundUp (rounded newSize.toNat) = 0 := by rw [hrr, hround, hz]; rfl
    rw [alloc_emptied h.ok h0 (HasBuffer.bufsz_pos h hb), hz]
    exact ⟨rfl, rfl, fun hne => absurd rfl hne⟩
  rw [if_neg hz] at hs
  by_cases hsame : st.async.buf.preallocBufsz.toNat = roundUp newSize.toNat
  · rw [alloc_same hb (by rw [hrr, hround, hsame])]
    exact ⟨rfl, hsame, fun _ => hb⟩
  have hpos := roundUp_pos (Nat.pos_of_ne_zero hz)
  rw [alloc_changed h.ok (by rw [hrr, hround]; omega) (by rwa [hrr, hround]), hrr, hround]
  rw [allocPages_succeeds (hs.resolve_right hsame)]
  exact ⟨rfl, hround, fun _ => rfl⟩

/-- A size that does not suit costs the buffer, also where 0 is returned. -/
theorem resize_loses (h : Held st) (hb : HasBuffer st) (hle : ¬ st.async.maxBufsize < newSize)
    (hs : ¬ Suits st newSize.toNat o (b.getD 0)) :
    ¬ HasBuffer (resizeAsyncBuffer st newSize o b).2 ∧
      (0 ≤ (resizeAsyncBuffer st newSize o b).1 →
        (resizeAsyncBuffer st newSize o b).2.async.buf.preallocBufsz.toNat ≠
          roundUp newSize.toNat) ∧
      (2 ^ 32 - pageSize < newSize.toNat → (resizeAsyncBuffer st newSize o b).1 = b.getD 0) := by
  have hrr := roundUp_rounded newSize.toNat
  have hlt := newSize.isLt
  rw [resize_reached h hb hle]
  by_cases hn : newSize.toNat ≤ 2 ^ 32 - pageSize
  · have hround := rounded_of_le hn
    have hs' : ¬ if newSize.toNat = 0 then 0 ≤ b.getD 0
        else Succeeds o (roundUp newSize.toNat / pageSize) ∨
          st.async.buf.preallocBufsz.toNat = roundUp newSize.toNat := fun hc => hs ⟨hn, hc⟩
    by_cases hz : newSize.toNat = 0
    · rw [if_pos hz] at hs'
      have h0 : roundUp (rounded newSize.toNat) = 0 := by rw [hrr, hround, hz]; rfl
      rw [alloc_emptied h.ok h0 (HasBuffer.bufsz_pos h hb)]
      exact ⟨nofun, fun hc => absurd hc hs', fun hlong => absurd hlong (Nat.not_lt.mpr hn)⟩
    · rw [if_neg hz, not_or] at hs'
      have hpos := roundUp_pos (Nat.pos_of_ne_zero hz)
      rw [alloc_changed h.ok (by rw [hrr, hround]; omega) (by rw [hrr, hround]; exact hs'.2), hrr,
        hround]
      obtain ⟨pool', he⟩ := allocPages_fails (st.pool.free st.async.buf.pages) hs'.1
      rw [he]
      exact ⟨nofun, fun hc => absurd hc (show ¬ 0 ≤ -enomem by decide),
        fun hlong => absurd hlong (Nat.not_lt.mpr hn)⟩
  · have h0 : roundUp (rounded newSize.toNat) = 0 := by
      rw [hrr, rounded_of_lt (Nat.lt_of_not_le hn) hlt]
    rw [alloc_emptied h.ok h0 (HasBuffer.bufsz_pos h hb)]
    refine ⟨nofun, fun _ => ?_, fun _ => rfl⟩
    exact Nat.ne_of_lt (roundUp_pos (Nat.pos_of_ne_zero fun hz => hn (hz ▸ Nat.zero_le _)))

def Request.raised (st : Sub) (x : Request) : Sub :=
  { st with async := { st.async with maxBufsize := x.maxBufsize st } }

theorem toNat_of_kb {kb : Nat} (h : kb * 1024 < 2 ^ 32) :
    (BitVec.ofNat 32 (kb * 1024)).toNat = kb * 1024 := by
  rw [BitVec.toNat_ofNat, Nat.mod_eq_of_lt h]

theorem bufconfig_answer (q : Int × Sub) (copyOut : Bool) :
    (if q.1 < 0 then (q.1, q.2) else if copyOut then (0, q.2) else (-efault, q.2)).2 = q.2 ∧
      (0 ≤ (if q.1 < 0 then (q.1, q.2) else if copyOut then (0, q.2) else (-efault, q.2)).1 ↔
        0 ≤ q.1 ∧ copyOut) := by
  split
  · next hneg => exact ⟨rfl, iff_of_false (Int.not_le.mpr hneg) fun h => absurd h.1 (by omega)⟩
  next hneg =>
  split
  · next hc => exact ⟨rfl, iff_of_true le_rfl ⟨Int.not_lt.mp hneg, hc⟩⟩
  · next hc => exact ⟨rfl, iff_of_false (show ¬ 0 ≤ -efault by decide) fun h => hc h.2⟩

theorem store_answer (q : Int × Sub) (count : Nat) :
    (if q.1 < 0 then (q.1, q.2) else ((count : Int), q.2)).2 = q.2 ∧
      (0 ≤ (if q.1 < 0 then (q.1, q.2) else ((count : Int), q.2)).1 ↔ 0 ≤ q.1) := by
  split
  · exact ⟨rfl, Iff.rfl⟩
  next hneg => exact ⟨rfl, iff_of_true (Int.natCast_nonneg count) (Int.not_lt.mp hneg)⟩

theorem raised_eq (st : Sub) (admin : Bool) (maximumSize size : U32) (o : Allocs)
    (b : Option Int) (copyOut : Bool) :
    (if maximumSize ≠ 0 then { st with async := { st.async with maxBufsize := maximumSize } }
      else st) = Request.raised st (.bufconfig admin maximumSize size o b copyOut) := by
  change _ = { st with async := { st.async with
    maxBufsize := if maximumSize ≠ 0 then maximumSize else st.async.maxBufsize } }
  split <;> rfl

/-- An allowed request that resizes does what `resize_async_buffer` does. -/
theorem perform_resize (hx : x.Allowed st) (hs : x.resize = some (n, o, c)) :
    ∃ (newSize : U32) (b : Option Int), newSize.toNat = n ∧ b.getD 0 = c ∧
      ¬ (x.raised st).async.maxBufsize < newSize ∧
      (perform st x).2 = (resizeAsyncBuffer (x.raised st) newSize o b).2 ∧
      (0 ≤ (perform st x).1 ↔
        0 ≤ (resizeAsyncBuffer (x.raised st) newSize o b).1 ∧ x.copiesOut) := by
  obtain ⟨hle, hx⟩ := hx
  have hle' := hle n o c hs
  cases x with
  | storeMaxBufferKb kb count => cases hs
  | storeBufferKb kb o b count =>
    cases hs
    refine ⟨.ofNat 32 (kb * 1024), b, toNat_of_kb hx, rfl, ?_, ?_⟩
    · rw [BitVec.not_lt, BitVec.le_def, toNat_of_kb hx]
      exact hle'
    · obtain ⟨he, hr⟩ := store_answer (resizeAsyncBuffer st (.ofNat 32 (kb * 1024)) o b) count
      simp only [perform, storeBufferKb, if_neg (Nat.not_le.mpr hx)]
      exact ⟨he, hr.trans (and_true _ ▸ Iff.rfl)⟩
  | bufconfig admin maximumSize size o' b copyOut =>
    have hne : size ≠ 0 := by
      rintro rfl
      cases hs
    rw [Request.resize, if_pos hne] at hs
    cases hs
    refine ⟨size, b, rfl, rfl, ?_, ?_⟩
    · rw [BitVec.not_lt, BitVec.le_def]
      exact hle'
    · have hadmin : ¬ (maximumSize ≠ 0 ∧ ¬ admin) := fun hc => hc.2 (hx hc.1)
      simp only [perform, doBufconfigIoctl, if_neg hadmin, if_pos hne,
        raised_eq st admin maximumSize size o b copyOut]
      exact bufconfig_answer _ copyOut

theorem perform_plain (hx : x.Allowed st) (hs : x.resize = none) :
    (perform st x).2.pool = st.pool ∧ (perform st x).2.async.buf = st.async.buf ∧
      (Held st → Held (perform st x).2) ∧ (0 ≤ (perform st x).1 ↔ x.copiesOut) := by
  obtain ⟨-, hx⟩ := hx
  cases x with
  | storeMaxBufferKb kb count =>
    simp only [perform, storeMaxBufferKb, if_neg (Nat.not_le.mpr hx)]
    exact ⟨trivial, trivial, fun h => h.maxBufsize _,
      iff_of_true (Int.natCast_nonneg count) trivial⟩
  | storeBufferKb kb o b count => cases hs
  | bufconfig admin maximumSize size o b copyOut =>
    have hz : ¬ size ≠ 0 := fun hne => by
      rw [Request.resize, if_pos hne] at hs
      cases hs
    have hadmin : ¬ (maximumSize ≠ 0 ∧ ¬ admin) := fun hc => hc.2 (hx hc.1)
    simp only [perform, doBufconfigIoctl, if_neg hadmin, if_neg hz,
      raised_eq st admin maximumSize size o b copyOut]
    obtain ⟨he, hr⟩ := bufconfig_answer
      (0, Request.raised st (.bufconfig admin maximumSize size o b copyOut)) copyOut
    dsimp only at he hr
    rw [he]
    exact ⟨rfl, rfl, fun h => h.maxBufsize _, hr.trans (and_iff_right le_rfl)⟩

theorem perform_refused (h : Held st) (hx : ¬ x.Allowed st) :
    (perform st x).2.async.buf = st.async.buf ∧ Held (perform st x).2 ∧
      (perform st x).1 < 0 := by
  cases x with
  | storeMaxBufferKb kb count =>
    have hkb : 2 ^ 32 ≤ kb * 1024 := Nat.not_lt.mp fun hlt => hx ⟨nofun, hlt⟩
    simp only [perform, storeMaxBufferKb, if_pos hkb]
    exact ⟨trivial, h, show -einval < 0 by decide⟩
  | storeBufferKb kb o b count =>
    simp only [perform, storeBufferKb]
    split
    · exact ⟨rfl, h, show -einval < 0 by decide⟩
    next hkb =>
    have hlt := Nat.not_le.mp hkb
    have hmax : st.async.maxBufsize < BitVec.ofNat 32 (kb * 1024) := by
      rw [BitVec.lt_def, toNat_of_kb hlt]
      refine Nat.not_le.mp fun hle => hx ⟨fun n o c hs => ?_, hlt⟩
      cases hs
      exact hle
    obtain ⟨hneg, he⟩ := resize_refused o b h (.inl hmax)
    rw [if_pos hneg, he]
    exact ⟨rfl, h, hneg⟩
  | bufconfig admin maximumSize size o b copyOut =>
    simp only [perform, doBufconfigIoctl]
    split
    · exact ⟨rfl, h, show -eperm < 0 by decide⟩
    next hadmin =>
    rw [raised_eq st admin maximumSize size o b copyOut]
    have hheld : Held (Request.raised st (.bufconfig admin maximumSize size o b copyOut)) :=
      h.maxBufsize _
    have hbuf : (Request.raised st (.bufconfig admin maximumSize size o b copyOut)).async.buf =
        st.async.buf := rfl
    have hperm : ¬ ∀ n o' c, (Request.bufconfig admin maximumSize size o b copyOut).resize =
        some (n, o', c) →
          n ≤ (Request.maxBufsize st (.bufconfig admin maximumSize size o b copyOut)).toNat :=
      fun hle => hx ⟨hle, fun hm => by
        by_contra hn
        exact hadmin ⟨hm, hn⟩⟩
    have hne : size ≠ 0 := by
      rintro rfl
      exact hperm nofun
    have hmax : (Request.raised st (.bufconfig admin maximumSize size o b copyOut)).async.maxBufsize
        < size := by
      rw [BitVec.lt_def]
      refine Nat.not_le.mp fun hle => hperm fun n o' c hs => ?_
      rw [Request.resize, if_pos hne] at hs
      cases hs
      exact hle
    generalize Request.raised st (.bufconfig admin maximumSize size o b copyOut) = st₁ at *
    obtain ⟨hneg, he⟩ := resize_refused o b hheld (.inl hmax)
    simp only [if_pos hne, if_pos hneg, he]
    exact ⟨hbuf, hheld, hneg⟩

theorem Held.perform (h : Held st) (x : Request) : Held (perform st x).2 := by
  by_cases hx : x.Allowed st
  · cases hs : x.resize with
    | none => exact (perform_plain hx hs).2.2.1 h
    | some q =>
      obtain ⟨newSize, b, -, -, -, he, -⟩ := perform_resize hx hs
      rw [he]
      exact Held.resize (h.maxBufsize _) newSize _ b
  · exact (perform_refused h hx).2.1

/-- Without a buffer no request for one succeeds. -/
theorem recoverable_iff (h : Held st) : Recoverable st ↔ HasBuffer st := by
  constructor
  · intro hr
    by_contra hb
    have hone : (4096 : U32) ≠ 0 := by decide
    have hs : Request.resize (.bufconfig true 0xffffffff 4096 {} none true) =
        some (4096, {}, 0) := by
      rw [Request.resize, if_pos hone]
      rfl
    have hsound : Request.Sound st (.bufconfig true 0xffffffff 4096 {} none true) := by
      refine ⟨⟨fun n o c hs' => ?_, fun _ => rfl⟩, rfl, fun n o c hs' => ?_⟩
      · rw [hs] at hs'
        cases hs'
        change 4096 ≤ (0xffffffff : U32).toNat
        decide
      · rw [hs] at hs'
        cases hs'
        exact ⟨⟨rfl, rfl, rfl, rfl⟩, le_rfl⟩
    obtain ⟨newSize, b, -, -, -, -, hret⟩ := perform_resize hsound.1 hs
    exact absurd (hret.mp (hr _ hsound)).1
      (Int.not_le.mpr (resize_refused {} b (h.maxBufsize 0xffffffff) (.inr hb)).1)
  · rintro hb x ⟨hx, hout, hs⟩
    cases hr : x.resize with
    | none => exact (perform_plain hx hr).2.2.2.mpr hout
    | some q =>
      obtain ⟨n, o, c⟩ := q
      obtain ⟨hall, hc⟩ := hs n o c hr
      obtain ⟨newSize, b, rfl, rfl, hle, -, hret⟩ := perform_resize hx hr
      refine hret.mpr ⟨?_, hout⟩
      have hheld : Held (x.raised st) := h.maxBufsize _
      by_cases hn : newSize.toNat ≤ 2 ^ 32 - pageSize
      · have hsuits : Suits (x.raised st) newSize.toNat o (b.getD 0) := by
          refine ⟨hn, ?_⟩
          split
          · exact hc
          · exact .inl hall
        rw [(resize_suits hheld hb hle hsuits).1]
        exact hc
      · rw [(resize_loses hheld hb hle fun hsuits => hn hsuits.1).2.2 (Nat.lt_of_not_le hn)]
        exact hc

theorem copiesOut_of_zero (hs : x.resize = some (0, o, c)) : x.copiesOut := by
  cases x with
  | storeBufferKb => trivial
  | storeMaxBufferKb => trivial
  | bufconfig admin maximumSize size o' b copyOut =>
    rw [Request.resize] at hs
    split at hs
    · next hne =>
      refine absurd (BitVec.eq_of_toNat_eq ?_) hne
      exact congrArg (·.1) (Option.some.inj hs)
    · cases hs

theorem fits_of_proper (h : Held st) (hp : Proper st x) : Fits st x := by
  have hkept : (perform st x).1 < 0 → HasBuffer (perform st x).2 := fun hneg =>
    (recoverable_iff (h.perform x)).mp (hp.recoverable hneg)
  by_cases hx : x.Allowed st
  · cases hs : x.resize with
    | none =>
      refine ⟨?_, fun _ n o c hs' => by cases hs.symm.trans hs'⟩
      obtain ⟨-, hbuf, -, hret⟩ := perform_plain hx hs
      by_cases hout : x.copiesOut
      · exact .inr ⟨hx, hout, hs⟩
      · have hb := hkept (Int.not_le.mp fun hc => hout (hret.mp hc))
        rw [HasBuffer, hbuf] at hb
        exact .inl hb
    | some q =>
      obtain ⟨n, o, c⟩ := q
      obtain ⟨newSize, b, rfl, rfl, hle, he, hret⟩ := perform_resize hx hs
      have hheld : Held (x.raised st) := h.maxBufsize _
      have hb : HasBuffer st := by
        by_contra hno
        obtain ⟨hneg, hsame⟩ := resize_refused o b hheld (.inr hno)
        have hb := hkept (Int.not_le.mp fun hc => absurd (hret.mp hc).1 (Int.not_le.mpr hneg))
        rw [he, hsame] at hb
        exact hno hb
      refine ⟨.inl hb, fun _ n' o' c' hs' => ?_⟩
      rw [hs] at hs'
      cases hs'
      by_contra hsuits
      obtain ⟨hlost, hsize, -⟩ := resize_loses hheld hb hle hsuits
      rw [he] at hkept
      by_cases hret' : 0 ≤ (perform st x).1
      · have hsz := hp.size hret' _ _ _ hs
        rw [he] at hsz
        exact hsize (hret.mp hret').1 hsz
      · exact hlost (hkept (Int.not_le.mp hret'))
  · obtain ⟨hbuf, -, hneg⟩ := perform_refused h hx
    have hb := hkept hneg
    rw [HasBuffer, hbuf] at hb
    exact ⟨.inl hb, fun hc => absurd hc hx⟩

theorem proper_of_fits (h : Held st) (hf : Fits st x) : Proper st x := by
  obtain ⟨hb, hsuits⟩ := hf
  have hb' : ∀ q, x.resize = some q → HasBuffer st := by
    intro q hs
    refine hb.resolve_right fun hplain => ?_
    rw [hplain.2.2] at hs
    cases hs
  refine ⟨(h.perform x).accounted, fun hret n o c hs => ?_, fun hsound => ?_, fun hneg => ?_⟩
  · have hx : x.Allowed st := by
      by_contra hx
      exact absurd hret (Int.not_le.mpr (perform_refused h hx).2.2)
    have hs' := hsuits hx n o c hs
    obtain ⟨newSize, b, rfl, rfl, hle, he, -⟩ := perform_resize hx hs
    have hheld : Held (x.raised st) := h.maxBufsize _
    rw [he]
    exact (resize_suits hheld (hb' _ hs) hle hs').2.1
  · cases hs : x.resize with
    | none => exact (perform_plain hsound.1 hs).2.2.2.mpr hsound.2.1
    | some q => exact (recoverable_iff h).mpr (hb' q hs) x hsound
  · rw [recoverable_iff (h.perform x)]
    by_cases hx : x.Allowed st
    · cases hs : x.resize with
      | none =>
        obtain ⟨-, hbuf, -, hret⟩ := perform_plain hx hs
        rw [HasBuffer, hbuf]
        exact hb.resolve_right fun hplain =>
          absurd (hret.mpr hplain.2.1) (Int.not_le.mpr hneg)
      | some q =>
        obtain ⟨n, o, c⟩ := q
        have hs' := hsuits hx n o c hs
        obtain ⟨newSize, b, rfl, rfl, hle, he, hret⟩ := perform_resize hx hs
        have hheld : Held (x.raised st) := h.maxBufsize _
        obtain ⟨hr, -, hkeep⟩ := resize_suits hheld (hb' _ hs) hle hs'
        rw [he]
        refine hkeep fun hz => ?_
        have hc := hs'.2
        rw [if_pos hz] at hc
        rw [hz] at hs
        exact absurd (hret.mpr ⟨hr ▸ hc, copiesOut_of_zero hs⟩) (Int.not_le.mpr hneg)
    · rw [HasBuffer, (perform_refused h hx).1]
      exact hb.resolve_right fun hplain => hx hplain.1

/-- The pages are accounted after every run of requests, whatever fails. A run of requests gives
the sizes that were asked for and stays recoverable exactly if every request that has to resize
finds a buffer, can be rounded up in 32 bits and gets its allocations. -/
theorem resizes_accounted (h : Held st) (xs : List Request) :
    (∃ st', run resizeStep st xs = .ok st' ∧ Accounted st') ∧
      (AllFit resizeStep Proper st xs ↔ AllFit resizeStep Fits st xs) := by
  constructor
  · have hall : AllFit resizeStep (fun _ _ => True) st xs :=
      AllFit.of_forall (fun _ _ _ => trivial) st
    obtain ⟨st', hrun, hheld⟩ :=
      run_total Held (fun st x hst _ => ⟨_, rfl, hst.perform x⟩) h hall
    exact ⟨st', hrun, hheld.accounted⟩
  · refine AllFit.iff_of_invariant Held (fun _ => True) (fun st x hst _ => ?_) ?_ h
      fun _ _ => trivial
    · exact ⟨fits_of_proper hst, proper_of_fits hst⟩
    · intro st x st' hst _ _ hstep
      cases hstep
      exact hst.perform x

/-- A subdevice without its buffer, and as `postconfig` leaves it. -/
def bare : Sub := { async := { device := 0, index := 0 } }

def attached : Sub :=
  let (_, pool, buf) := comediBufAlloc bare.pool bare.async.buf defaultBufSize {}
  { bare with pool := pool, async := { bare.async with buf := buf } }

theorem bare_held : Held bare := by
  refine ⟨⟨.empty, nofun, List.nodup_nil, fun p => ⟨fun hp => absurd hp.1 (Nat.not_lt_zero p),
    nofun⟩, List.nodup_nil, nofun⟩, rfl, rfl⟩

theorem attached_held : Held attached := by
  have hlt : roundUp defaultBufSize < 2 ^ 32 := by decide
  exact ⟨bare_held.realloc (comediBufAlloc_realloc bare.pool bare_held.ok hlt {}), rfl, rfl⟩

theorem resizes_accounted_two :
    AllFit resizeStep Proper attached
      [.bufconfig false 0 0xffffffff {} none true, .bufconfig false 0 8192 {} none true] := by
  refine (resizes_accounted attached_held _).2.mpr ?_
  have hlarge : ¬ Request.Allowed attached (.bufconfig false 0 0xffffffff {} none true) := fun h =>
    absurd (h.1 0xffffffff {} 0 rfl) (by decide)
  have hsuits : ∀ st, Suits st 8192 {} 0 := fun st =>
    ⟨by decide, .inl ⟨rfl, rfl, rfl, rfl⟩⟩
  refine ⟨⟨.inl rfl, fun h => absurd h hlarge⟩, fun st' hst => ?_⟩
  cases hst
  refine ⟨⟨.inl rfl, fun _ n o c hs => ?_⟩, fun _ _ => trivial⟩
  cases hs
  exact hsuits _

def wrapping : Request := .bufconfig true 0xffffffff 0xfffff001 {} none true

def failing : Request := .bufconfig false 0 8192 { failAt := some 1 } none true

/-- A size just above 2^32 - 4096 is rounded up to 0: the buffer is freed and 0 returned. After an
allocation that failed no request can succeed. -/
theorem resize_to_nothing :
    (perform attached wrapping).1 = 0 ∧
      (perform attached wrapping).2.async.buf.preallocBufsz = 0 ∧
      (perform attached failing).1 = -enomem ∧
      (perform (perform attached failing).2 (.bufconfig false 0 8192 {} none true)).1 =
        -einval := by decide

end Comedi.BufferResizes
