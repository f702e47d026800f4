import Comedi.BufferResizes

namespace Comedi.MiteRing

open BufPages MappedBuffers BufferResizes GuardedRuns

/-- A link of the chain that the MITE follows. Pages have the bus addresses of their numbers. -/
structure Descriptor where
  count : Nat
  addr : Nat
  next : Nat
  deriving DecidableEq, Repr

structure Ring where
  descriptors : Bool := false
  descriptorsDmaAddr : Nat := 0
  nLinks : Nat := 0

/-- Where `dma_alloc_coherent` puts an allocation. -/
structure Region where
  base : Nat
  pos : 0 < base

/-- A subdevice with its ring, and the memory of the descriptors as the bus sees it. -/
structure MiteSub where
  attached : Bool := false
  sub : Sub
  ring : Ring := {}
  mem : Nat → Option Descriptor := fun _ => none

def sizeofDescriptor : Nat := 16

/-- The descriptor `i` of `n`: the last one is linked to the first. -/
def descriptor (base n : Nat) (pages : List Nat) (i : Nat) : Descriptor where
  count := pageSize
  addr := pages.getD i 0
  next := if i + 1 = n then base else base + (i + 1) * sizeofDescriptor

/-- The place of the descriptor at an address, if one of `n` from `base` on is there. -/
def place (base n a : Nat) : Option Nat :=
  if base ≤ a ∧ (a - base) % sizeofDescriptor = 0 ∧ (a - base) / sizeofDescriptor < n
  then some ((a - base) / sizeofDescriptor) else none

/-- The descriptors are given back to `dma_free_coherent`, if there are any. -/
def freeDescriptors (st : MiteSub) : MiteSub :=
  if st.ring.descriptors
  then { st with mem := fun a =>
    if (place st.ring.descriptorsDmaAddr st.ring.nLinks a).isSome then none else st.mem a }
  else st

def miteBufChange (st : MiteSub) (alloc : Option Region) : Int × MiteSub :=
  let st := { freeDescriptors st with ring := {} }
  let async := st.sub.async.buf
  if async.preallocBufsz = 0 then (0, st)
  else
    let nLinks := async.preallocBufsz.toNat / pageSize
    match alloc with
    | none => (-enomem, st)
    | some region =>
      (0, { st with
        ring := ⟨true, region.base, nLinks⟩
        mem := fun a =>
          match place region.base nLinks a with
          | some i => some (descriptor region.base nLinks async.pages i)
          | none => st.mem a })

/-- `resize_async_buffer` with `mite_buf_change` for `buf_change`. -/
def resize (st : MiteSub) (newSize : U32) (o : Allocs) (alloc : Option Region) : Int × MiteSub :=
  let (ret, sub) := resizeAsyncBuffer st.sub newSize o none
  let st := { st with sub := sub }
  if ret < 0 then (ret, st) else miteBufChange st alloc

def miteFreeRing (st : MiteSub) : MiteSub := { freeDescriptors st with ring := {} }

/-- The driver frees its ring, `cleanup_device` the buffer. -/
def detach (st : MiteSub) : MiteSub :=
  let st := miteFreeRing st
  let (_, pool, buf) := comediBufAlloc st.sub.pool st.sub.async.buf 0 {}
  { st with
    attached := false
    sub := { st.sub with pool := pool, async := { st.sub.async with buf := buf } } }

/-- The driver allocates an empty ring, and `postconfig` a buffer. If this fails, the device is
detached. -/
def attach (st : MiteSub) (o : Allocs) (alloc : Option Region) : MiteSub :=
  let async : AsyncObj := { device := st.sub.async.device, index := st.sub.async.index }
  let (ret, pool, buf) := comediBufAlloc st.sub.pool async.buf defaultBufSize o
  let st := { st with
    attached := true
    ring := {}
    sub := { pool := pool, async := { async with buf := buf } } }
  if ret < 0 then detach st
  else
    let (ret, st) := miteBufChange st alloc
    if ret < 0 then detach st else st

inductive MiteStep where
  | attach (o : Allocs) (alloc : Option Region)
  | detach
  | resize (newSize : U32) (o : Allocs) (alloc : Option Region)
  | setMaxBufsize (size : U32)
  | setMmapCount (n : U32)
  | command (kernel : Bool)
  | setBusy (busy : Bool)

/-- `do_cmd_ioctl` wants a buffer, `comedi_command` does not ask. -/
def Reaches (st : MiteSub) (kernel : Bool) : Prop :=
  st.attached ∧ ¬ st.sub.busy ∧ (kernel ∨ st.sub.async.buf.preallocBufsz ≠ 0)

instance (st : MiteSub) (kernel : Bool) : Decidable (Reaches st kernel) :=
  inferInstanceAs (Decidable (_ ∧ _ ∧ _))

def miteStep (st : MiteSub) : MiteStep → Except Empty MiteSub
  | .attach o alloc => .ok (if st.attached then st else attach st o alloc)
  | .detach => .ok (if st.attached then detach st else st)
  | .resize newSize o alloc => .ok (if st.attached then (resize st newSize o alloc).2 else st)
  | .setMaxBufsize size => .ok { st with sub.async.maxBufsize := size }
  | .setMmapCount n => .ok { st with sub.async.mmapCount := n }
  | .command kernel => .ok (if Reaches st kernel then { st with sub.busy := true } else st)
  | .setBusy busy => .ok { st with sub.busy := busy }

/-- The descriptor that is reached from an address by following so many links. -/
def walk (mem : Nat → Option Descriptor) (a : Nat) : Nat → Option Descriptor
  | 0 => mem a
  | k + 1 => (walk mem a k).bind fun d => mem d.next

/-- `mite_prep_dma` writes `descriptors_dma_addr` to `MITE_LKAR`. -/
def lkar (st : MiteSub) : Nat := st.ring.descriptorsDmaAddr

/-- From the address in `MITE_LKAR` the MITE visits the pages of the buffer, in order, over and
over. -/
structure Walks (st : MiteSub) : Prop where
  pos : 0 < st.sub.async.buf.nBufPages
  visits : ∀ k, ∃ d, walk st.mem (lkar st) k = some d ∧ d.count = pageSize ∧
    st.sub.async.buf.pages[k % st.sub.async.buf.nBufPages]? = some d.addr
  sum : st.sub.async.buf.nBufPages * pageSize = st.sub.async.buf.preallocBufsz.toNat
  live : ∀ p ∈ st.sub.async.buf.pages, st.sub.pool.live p
  null : st.mem 0 = none

/-- A command that gets to `mite_prep_dma` finds a chain in order. -/
def Proper (st : MiteSub) : MiteStep → Prop
  | .command kernel => Reaches st kernel → Walks st
  | _ => True

/-- A command that gets to `mite_prep_dma` finds a buffer and descriptors. -/
def Fits (st : MiteSub) : MiteStep → Prop
  | .command kernel => Reaches st kernel →
      st.sub.async.buf.preallocBufsz ≠ 0 ∧ st.ring.descriptors
  | _ => True

/-- The ring is a second list of the pages. -/
structure Chain (st : MiteSub) : Prop where
  nLinks : st.ring.nLinks = st.sub.async.buf.nBufPages
  links : ∀ i < st.ring.nLinks, st.mem (st.ring.descriptorsDmaAddr + i * sizeofDescriptor) =
    some (descriptor st.ring.descriptorsDmaAddr st.ring.nLinks st.sub.async.buf.pages i)

/-- As long as there are a buffer and descriptors, they agree. -/
structure Inv (st : MiteSub) : Prop where
  paged : Paged st.sub
  detached : st.attached = false → st.sub.async.buf = {}
  null : st.mem 0 = none
  off : st.ring.descriptors = false → st.ring.descriptorsDmaAddr = 0
  chain : st.ring.descriptors = true → st.sub.async.buf.preallocBufsz ≠ 0 → Chain st

variable {st : MiteSub} {x : MiteStep} {base n : Nat} {o : Allocs} {alloc : Option Region}

theorem place_descriptor {i : Nat} (hi : i < n) :
    place base n (base + i * sizeofDescriptor) = some i := by
  have hd : base + i * sizeofDescriptor - base = i * sizeofDescriptor := Nat.add_sub_cancel_left _ _
  have hq : i * sizeofDescriptor / sizeofDescriptor = i := Nat.mul_div_cancel i (by decide)
  unfold place
  rw [hd, hq, if_pos ⟨Nat.le_add_right _ _, Nat.mul_mod_left _ _, hi⟩]

theorem place_null (hpos : 0 < base) : place base n 0 = none :=
  if_neg fun h => absurd h.1 (Nat.not_le.mpr hpos)

theorem nBufPages_eq {sub : Sub} (h : Paged sub) :
    sub.async.buf.preallocBufsz.toNat / pageSize = sub.async.buf.nBufPages := by
  rw [h.accounted.bufsz]
  exact Nat.mul_div_cancel _ (by decide)

theorem walk_chain (h : Chain st) (hpos : 0 < st.ring.nLinks) (k : Nat) :
    walk st.mem (lkar st) k = some (descriptor st.ring.descriptorsDmaAddr st.ring.nLinks
      st.sub.async.buf.pages (k % st.ring.nLinks)) := by
  induction k with
  | zero =>
    have hfirst := h.links 0 hpos
    rw [Nat.zero_mul, Nat.add_zero] at hfirst
    rw [Nat.zero_mod]
    exact hfirst
  | succ k ih =>
    have hlt := Nat.mod_lt k hpos
    have hnext : (k + 1) % st.ring.nLinks =
        if k % st.ring.nLinks + 1 = st.ring.nLinks then 0 else k % st.ring.nLinks + 1 := by
      have hdiv := Nat.div_add_mod k st.ring.nLinks
      split
      · next he =>
        have hk : k + 1 = st.ring.nLinks * (k / st.ring.nLinks + 1) := by
          rw [Nat.mul_add_one]
          omega
        rw [hk, Nat.mul_mod_right]
      · next hne =>
        have hk : k + 1 = st.ring.nLinks * (k / st.ring.nLinks) + (k % st.ring.nLinks + 1) := by
          omega
        rw [hk, Nat.mul_add_mod, Nat.mod_eq_of_lt (by omega)]
    rw [walk, ih]
    change st.mem (descriptor _ _ _ _).next = _
    rw [hnext, descriptor]
    dsimp only
    split
    · have hfirst := h.links 0 hpos
      rwa [Nat.zero_mul, Nat.add_zero] at hfirst
    · exact h.links _ (by omega)

theorem Inv.walks (h : Inv st) (hsz : st.sub.async.buf.preallocBufsz ≠ 0)
    (hd : st.ring.descriptors = true) : Walks st := by
  have hchain := h.chain hd hsz
  have hacc := h.paged.accounted
  have hpos : 0 < st.sub.async.buf.nBufPages := by
    refine Nat.pos_of_ne_zero fun hz => hsz (BitVec.eq_of_toNat_eq ?_)
    rw [hacc.bufsz, hz]
    rfl
  refine ⟨hpos, fun k => ?_, hacc.bufsz.symm, fun p hp => (hacc.live p).mpr hp, h.null⟩
  refine ⟨_, walk_chain hchain (hchain.nLinks ▸ hpos) k, rfl, ?_⟩
  have hlt : k % st.sub.async.buf.nBufPages < st.sub.async.buf.pages.length := by
    rw [hacc.pages]
    exact Nat.mod_lt k hpos
  rw [hchain.nLinks, List.getElem?_eq_getElem hlt]
  simp [descriptor, List.getElem?_eq_getElem hlt]

theorem proper_iff (h : Inv st) : Proper st x ↔ Fits st x := by
  cases x with
  | command kernel =>
    refine forall_congr' fun _ => ⟨fun hw => ⟨fun hz => ?_, ?_⟩, fun hf => h.walks hf.1 hf.2⟩
    · have hsum := hw.sum
      rw [hz] at hsum
      exact absurd (Nat.mul_pos hw.pos (show 0 < pageSize by decide)) (by rw [hsum]; decide)
    · by_contra hoff
      obtain ⟨d, hd, -⟩ := hw.visits 0
      rw [walk, lkar, h.off (by simpa using hoff), h.null] at hd
      cases hd
  | _ => exact Iff.rfl

theorem freeDescriptors_sub (st : MiteSub) : (freeDescriptors st).sub = st.sub := by
  unfold freeDescriptors
  split <;> rfl

theorem freeDescriptors_attached (st : MiteSub) :
    (freeDescriptors st).attached = st.attached := by
  unfold freeDescriptors
  split <;> rfl

theorem freeDescriptors_null (h : st.mem 0 = none) : (freeDescriptors st).mem 0 = none := by
  unfold freeDescriptors
  split
  · dsimp only
    rw [h, ite_self]
  · exact h

/-- A subdevice with an empty ring. -/
theorem Inv.of_empty (hp : Paged st.sub) (ha : st.attached = false → st.sub.async.buf = {})
    (hn : st.mem 0 = none) (hr : st.ring = {}) : Inv st := by
  refine ⟨hp, ha, hn, fun _ => by rw [hr], fun h => ?_⟩
  rw [hr] at h
  cases h

/-- After `mite_buf_change` the ring agrees with the buffer, or is empty. -/
theorem miteBufChange_inv (st : MiteSub) (hp : Paged st.sub)
    (ha : st.attached = false → st.sub.async.buf = {}) (hn : st.mem 0 = none) (alloc : Option Region) : Inv (miteBufChange st alloc).2 := by
  have hempty : Inv { freeDescriptors st with ring := {} } := by
    refine .of_empty ?_ ?_ (freeDescriptors_null hn) rfl
    · exact (freeDescriptors_sub st).symm ▸ hp
    · exact fun h => (congrArg (·.async.buf) (freeDescriptors_sub st)).trans
        (ha ((freeDescriptors_attached st).symm.trans h))
  unfold miteBufChange
  dsimp only
  split
  · exact hempty
  split
  · exact hempty
  next region =>
  refine ⟨hempty.paged, hempty.detached, ?_, nofun, fun _ _ => ⟨nBufPages_eq hempty.paged, ?_⟩⟩
  · dsimp only
    rw [place_null region.pos]
    exact hempty.null
  · intro i hi
    dsimp only at hi ⊢
    rw [place_descriptor hi]

theorem resize_inv (h : Inv st) (hatt : st.attached = true) (newSize : U32) (o : Allocs)
    (alloc : Option Region) : Inv (resize st newSize o alloc).2 := by
  obtain ⟨hp, hfail⟩ := h.paged.resize newSize o
  have hdet : st.attached = false → (resizeAsyncBuffer st.sub newSize o none).2.async.buf = {} :=
    fun hc => absurd (hatt.symm.trans hc) (by decide)
  unfold resize
  dsimp only
  split
  · next hneg =>
    rcases hfail hneg with he | hz
    · rw [he]
      exact h
    · exact ⟨hp, hdet, h.null, h.off, fun _ hne => absurd hz hne⟩
  · exact miteBufChange_inv { st with sub := _ } hp hdet h.null alloc

theorem detach_inv (hp : Paged st.sub) (hn : st.mem 0 = none) : Inv (detach st) := by
  have hp' : Paged (miteFreeRing st).sub := (freeDescriptors_sub st).symm ▸ hp
  have hr := comediBufAlloc_realloc (miteFreeRing st).sub.pool hp'.ok
    (show roundUp 0 < 2 ^ 32 by decide) {}
  exact .of_empty (hp'.realloc hr) (fun _ => hp'.emptied {}) (freeDescriptors_null hn) rfl

/-- Wherever there is a buffer there are descriptors. -/
def Listed (st : MiteSub) : Prop :=
  st.sub.async.buf.preallocBufsz ≠ 0 → st.ring.descriptors = true

theorem miteBufChange_listed (st : MiteSub) (ha : alloc.isSome) :
    Listed (miteBufChange st alloc).2 := by
  obtain ⟨region, rfl⟩ := Option.isSome_iff_exists.mp ha
  unfold miteBufChange
  dsimp only
  split
  · next hz => exact fun hne => absurd hz hne
  · exact fun _ => rfl

theorem detach_listed (hp : Paged st.sub) : Listed (detach st) := by
  have hp' : Paged (miteFreeRing st).sub := (freeDescriptors_sub st).symm ▸ hp
  intro hne
  exact absurd (congrArg Buffer.preallocBufsz (hp'.emptied {})) hne

theorem attach_inv (h : Inv st) (hatt : st.attached = false) (o : Allocs)
    (alloc : Option Region) :
    Inv (attach st o alloc) ∧ (alloc.isSome → Listed (attach st o alloc)) := by
  have hfresh : Paged { pool := st.sub.pool, async := {
      device := st.sub.async.device, index := st.sub.async.index } } := by
    have hb := h.detached hatt
    have hp := h.paged
    refine ⟨.empty, nofun, List.nodup_nil, fun p => ?_, hp.freed, hp.freed_lt⟩
    rw [hp.live, hb]
  have hr := comediBufAlloc_realloc st.sub.pool hfresh.ok (show roundUp defaultBufSize < 2 ^ 32 by
    decide) o
  have hp := hfresh.realloc hr
  unfold attach
  dsimp only
  split
  · exact ⟨detach_inv hp h.null, fun _ => detach_listed hp⟩
  have hring := miteBufChange_inv { st with attached := true, ring := {}, sub := _ } hp nofun
    h.null alloc
  split
  · exact ⟨detach_inv hring.paged hring.null, fun _ => detach_listed hring.paged⟩
  · exact ⟨hring, fun ha => miteBufChange_listed _ ha⟩

theorem Inv.update (h : Inv st) (busy : Bool) (maxBufsize mmapCount : U32) :
    Inv { st with sub := { st.sub with
      busy := busy
      async := { st.sub.async with maxBufsize := maxBufsize, mmapCount := mmapCount } } } := by
  have hp := h.paged
  exact ⟨⟨hp.ok, hp.nonempty, hp.nodup, hp.live, hp.freed, hp.freed_lt⟩, h.detached, h.null, h.off,
    fun hd hz => ⟨(h.chain hd hz).nLinks, (h.chain hd hz).links⟩⟩

theorem step_inv (h : Inv st) (x : MiteStep) :
    ∃ st', miteStep st x = .ok st' ∧ Inv st' := by
  cases x with
  | attach o alloc =>
    refine ⟨_, rfl, ?_⟩
    split
    · exact h
    · next hatt => exact (attach_inv h (by simpa using hatt) o alloc).1
  | detach =>
    refine ⟨_, rfl, ?_⟩
    split
    · exact detach_inv h.paged h.null
    · exact h
  | resize newSize o alloc =>
    refine ⟨_, rfl, ?_⟩
    split
    · next hatt => exact resize_inv h hatt newSize o alloc
    · exact h
  | setMaxBufsize size => exact ⟨_, rfl, h.update _ _ _⟩
  | setMmapCount n => exact ⟨_, rfl, h.update _ _ _⟩
  | setBusy busy => exact ⟨_, rfl, h.update _ _ _⟩
  | command kernel =>
    refine ⟨_, rfl, ?_⟩
    split
    · exact h.update _ _ _
    · exact h

/-- A subdevice before its device is attached for the first time. -/
def unattached : MiteSub := { sub := bare }

theorem unattached_inv : Inv unattached :=
  .of_empty bare_held.toPaged (fun _ => rfl) rfl rfl

/-- Every descriptor list that is wanted is allocated. -/
def MiteStep.Allocates : MiteStep → Prop
  | .attach _ alloc | .resize _ _ alloc => alloc.isSome
  | _ => True

/-- A command of the kernel finds a buffer. -/
def FindsBuffer (st : MiteSub) : MiteStep → Prop
  | .command kernel => Reaches st kernel → st.sub.async.buf.preallocBufsz ≠ 0
  | _ => True

theorem step_listed (h : Inv st) (hl : Listed st) (hx : x.Allocates) {st' : MiteSub}
    (hstep : miteStep st x = .ok st') : Listed st' := by
  cases x with
  | attach o alloc =>
    cases hstep
    split
    · exact hl
    · next hatt => exact (attach_inv h (by simpa using hatt) o alloc).2 hx
  | detach =>
    cases hstep
    split
    · exact detach_listed h.paged
    · exact hl
  | resize newSize o alloc =>
    cases hstep
    split
    · obtain ⟨-, hfail⟩ := h.paged.resize newSize o
      unfold resize
      dsimp only
      split
      · next hneg =>
        rcases hfail hneg with he | hz
        · rw [he]
          exact hl
        · exact fun hne => absurd hz hne
      · exact miteBufChange_listed _ hx
    · exact hl
  | setMaxBufsize size | setMmapCount n | setBusy busy =>
    cases hstep
    exact hl
  | command kernel =>
    cases hstep
    split
    · exact hl
    · exact hl

/-- A command that gets to `mite_prep_dma` finds a chain in order exactly if it finds a buffer and
descriptors. If no allocation of descriptors fails, only commands of the kernel have to look. -/
theorem chain_in_order (xs : List MiteStep) :
    (AllFit miteStep Proper unattached xs ↔ AllFit miteStep Fits unattached xs) ∧
      ((∀ x ∈ xs, x.Allocates) →
        (AllFit miteStep Proper unattached xs ↔ AllFit miteStep FindsBuffer unattached xs)) := by
  have hkeep : ∀ st x st', Inv st → miteStep st x = .ok st' → Inv st' := by
    intro st x st' h hstep
    obtain ⟨st₁, h₁, hinv⟩ := step_inv h x
    rw [hstep] at h₁
    cases h₁
    exact hinv
  constructor
  · exact AllFit.iff_of_invariant Inv (fun _ => True) (fun st x h _ => proper_iff h)
      (fun st x st' h _ _ hstep => hkeep st x st' h hstep) unattached_inv fun _ _ => trivial
  · refine AllFit.iff_of_invariant (fun st => Inv st ∧ Listed st) MiteStep.Allocates ?_ ?_
      ⟨unattached_inv, fun hne => absurd rfl hne⟩
    · rintro st x ⟨h, hl⟩ -
      rw [proper_iff h]
      cases x with
      | command kernel => exact forall_congr' fun _ => ⟨And.left, fun hz => ⟨hz, hl hz⟩⟩
      | _ => exact Iff.rfl
    · rintro st x st' ⟨h, hl⟩ hx - hstep
      exact ⟨hkeep st x st' h hstep, step_listed h hl hx hstep⟩

def firstRegion : Region := ⟨4096, by decide⟩

theorem chain_in_order_attached :
    AllFit miteStep Proper unattached [.attach {} (some firstRegion), .command false] := by
  refine (chain_in_order _).1.mpr ⟨trivial, fun st hst => ⟨?_, fun _ _ => trivial⟩⟩
  cases hst
  exact fun _ => ⟨by decide, rfl⟩

/-- The second page cannot be allocated, or the descriptors for two pages. -/
def unpaged : List MiteStep :=
  [.attach {} (some firstRegion), .resize 8192 { failAt := some 1 } none, .command true]

def unlisted : List MiteStep :=
  [.attach {} (some firstRegion), .resize 8192 {} none, .command false]

/-- A page that cannot be allocated leaves the old descriptors behind for a command of the kernel;
descriptors that cannot be allocated leave none for any command. -/
theorem stale_chain :
    ¬ AllFit miteStep Proper unattached unpaged ∧
      ¬ AllFit miteStep Proper unattached unlisted := by
  constructor
  · intro h
    have hw := ((h.2 _ rfl).2 _ rfl).1 (by decide)
    exact absurd hw.pos (by decide)
  · intro h
    have hw := ((h.2 _ rfl).2 _ rfl).1 (by decide)
    obtain ⟨d, hd, -⟩ := hw.visits 0
    cases hd

end Comedi.MiteRing
