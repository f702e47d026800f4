import Comedi.BufPages
import Comedi.GuardedRuns
import Comedi.Poll

namespace Comedi.MappedBuffers

open BufPages Poll GuardedRuns

/-- A `comedi_async`, with the device and the number of its subdevice. -/
structure AsyncObj where
  device : Nat
  index : Nat
  buf : Buffer := {}
  maxBufsize : U32 := 65536
  mmapCount : U32 := 0

structure MapSubdevice where
  async : Option Nat := none
  busy : Bool := false
  cmdRead : Bool := false
  cmdWrite : Bool := false
  deriving DecidableEq, Repr

structure MapDevice where
  attached : Bool := false
  driver : Option Nat := none
  subdevices : List MapSubdevice := []
  readSubdev : Option Nat := none
  writeSubdev : Option Nat := none
  deriving DecidableEq, Repr

/-- A mapping that `comedi_mmap` has made or that was made from such a one: its `vm_private_data`
with the device behind it, the pages that were remapped, and the whole page list of the time. -/
structure Mapping where
  async : Nat
  device : Nat
  pages : List Nat
  list : List Nat
  deriving DecidableEq, Repr

/-- The structures in memory by the number of their allocation, the board entries of
`comedi_file_info_table`, and the mappings. A structure that was freed is not there any more. -/
structure Kernel where
  pool : Pool := {}
  next : Nat := 0
  asyncs : Nat → Option AsyncObj := fun _ => none
  devices : Nat → Option MapDevice := fun _ => none
  boards : Nat → Option Nat := fun _ => none
  maps : List Mapping := []

def comediNumBoardMinors : Nat := 0x30

def MapDevice.asyncAt (dev : MapDevice) (k : Nat) : Option Nat :=
  dev.subdevices[k]?.bind (·.async)

def MapDevice.setAsync (dev : MapDevice) (k id : Nat) : MapDevice :=
  { dev with subdevices := dev.subdevices.modify k fun s => { s with async := some id } }

def Kernel.setDevice (st : Kernel) (d : Nat) (dev : MapDevice) : Kernel :=
  { st with devices := Function.update st.devices d (some dev) }

/-- `comedi_buf_alloc` on the buffer of an async. -/
def reallocBuf (st : Kernel) (id newSize : Nat) (o : Allocs) : Int × Kernel :=
  match st.asyncs id with
  | none => (-einval, st)
  | some a =>
    let (ret, pool, buf) := comediBufAlloc st.pool a.buf newSize o
    (ret, { st with
      pool := pool
      asyncs := Function.update st.asyncs id (some { a with buf := buf }) })

def freeAsync (st : Kernel) (id : Nat) : Kernel :=
  let st := (reallocBuf st id 0 {}).2
  { st with asyncs := Function.update st.asyncs id none }

def cleanupDevice (st : Kernel) (d : Nat) : Kernel :=
  match st.devices d with
  | none => st
  | some dev => ((dev.subdevices.filterMap (·.async)).foldl freeAsync st).setDevice d {}

def comediDeviceDetach (st : Kernel) (d : Nat) : Kernel :=
  match st.devices d with
  | none => st
  | some dev => if dev.attached then cleanupDevice st d else st

/-- What a driver's `attach` has made of a subdevice, and what the allocations for it give. -/
structure SubSpec where
  unused : Bool := false
  doCmd : Bool := true
  cmdRead : Bool := true
  cmdWrite : Bool := false
  kzalloc : Bool := true
  allocs : Allocs := {}
  bufChange : Option Int := none

def SubSpec.subdevice (spec : SubSpec) : MapSubdevice :=
  { cmdRead := spec.cmdRead, cmdWrite := spec.cmdWrite }

def defaultBufSize : Nat := 64 * 1024

/-- A new async for subdevice `k` of `d`, as `kzalloc` leaves it. -/
def Kernel.addAsync (st : Kernel) (d k : Nat) : Kernel :=
  { st with
    next := st.next + 1
    asyncs := Function.update st.asyncs st.next (some { device := d, index := k })
    devices := Function.update st.devices d ((st.devices d).map fun dev => dev.setAsync k st.next) }

def postconfigSubdevice (st : Kernel) (d k : Nat) (spec : SubSpec) : Int × Kernel :=
  if spec.unused ∨ ¬ spec.doCmd then (0, st)
  else if ¬ spec.kzalloc then (-enomem, st)
  else
    let (ret, st') := reallocBuf (st.addAsync d k) st.next defaultBufSize spec.allocs
    if ret < 0 then (-enomem, st')
    else
      match spec.bufChange with
      | none => (0, st')
      | some r => (if r < 0 then r else 0, st')

def postconfig (st : Kernel) (d : Nat) : List SubSpec → Nat → Int × Kernel
  | [], _ => (0, st)
  | spec :: specs, k =>
    let (ret, st) := postconfigSubdevice st d k spec
    if ret < 0 then (ret, st) else postconfig st d specs (k + 1)

/-- The driver that recognizes the board, and what its `attach` returns and sets up. -/
structure Attach where
  driver : Option Nat := some 0
  ret : Int := 0
  subdevices : List SubSpec := []
  readSubdev : Option Nat := none
  writeSubdev : Option Nat := none

def Attach.device (p : Attach) : MapDevice where
  driver := p.driver
  subdevices := p.subdevices.map SubSpec.subdevice
  readSubdev := p.readSubdev
  writeSubdev := p.writeSubdev

def Kernel.setAttached (st : Kernel) (d : Nat) : Kernel :=
  { st with
    devices := Function.update st.devices d ((st.devices d).map ({ · with attached := true })) }

def comediDeviceAttach (st : Kernel) (d : Nat) (p : Attach) : Int × Kernel :=
  match st.devices d with
  | none => (-enodev, st)
  | some dev =>
    if dev.attached then (-ebusy, st)
    else if p.driver.isNone then (-eio, st)
    else if p.ret < 0 then (p.ret, cleanupDevice (st.setDevice d p.device) d)
    else
      let (ret, st) := postconfig (st.setDevice d p.device) d p.subdevices 0
      if ret < 0 then (ret, cleanupDevice st d) else (0, st.setAttached d)

def isDeviceBusy (st : Kernel) (dev : MapDevice) : Bool :=
  dev.attached && dev.subdevices.any fun s =>
    s.busy || ((s.async.bind st.asyncs).any fun a => a.mmapCount ≠ 0)

/-- The first free board minor. -/
def freeMinor (st : Kernel) : Option Nat :=
  (List.range comediNumBoardMinors).find? fun i => (st.boards i).isNone

def comediFreeBoardMinor (st : Kernel) (minor : Nat) : Kernel :=
  match st.boards minor with
  | none => st
  | some d =>
    let st := comediDeviceDetach { st with boards := Function.update st.boards minor none } d
    { st with devices := Function.update st.devices d none }

/-- The minor and the device that `comedi_alloc_board_minor` has made, if it has. -/
def comediAllocBoardMinor (st : Kernel) (sysfs : Bool) : Option (Nat × Nat) × Kernel :=
  match freeMinor st with
  | none => (none, st)
  | some i =>
    let d := st.next
    let st := { st with
      next := st.next + 1
      devices := Function.update st.devices d (some {})
      boards := Function.update st.boards i (some d) }
    if sysfs then (some (i, d), st) else (none, comediFreeBoardMinor st i)

def comediAutoConfig (st : Kernel) (sysfs kmalloc : Bool) (p : Attach) : Kernel :=
  match comediAllocBoardMinor st sysfs with
  | (none, st) => st
  | (some (minor, d), st) =>
    if kmalloc then
      let (ret, st) := comediDeviceAttach st d p
      if ret < 0 then comediFreeBoardMinor st minor else st
    else comediFreeBoardMinor st minor

/-- One turn of the loop of `comedi_driver_unregister`. -/
def unregisterFrom (drv : Nat) (st : Kernel) (minor : Nat) : Kernel :=
  match (st.boards minor).bind fun d => (st.devices d).map (d, ·) with
  | none => st
  | some (d, dev) =>
    if dev.attached ∧ dev.driver = some drv then comediDeviceDetach st d else st

def comediDriverUnregister (st : Kernel) (drv : Nat) : Kernel :=
  (List.range comediNumBoardMinors).foldl (unregisterFrom drv) st

def resizeAsyncBuffer (st : Kernel) (s : MapSubdevice) (id : Nat) (a : AsyncObj) (newSize : U32)
    (o : Allocs) (bufChange : Option Int) : Int × Kernel :=
  if a.maxBufsize < newSize then (-eperm, st)
  else if s.busy then (-ebusy, st)
  else if a.mmapCount ≠ 0 then (-ebusy, st)
  else if a.buf.preallocBuf.isNone then (-einval, st)
  else
    let (ret, st) := reallocBuf st id (BitVec.ofNat 32 (roundUp newSize.toNat)).toNat o
    if ret < 0 then (ret, st) else (bufChange.getD 0, st)

/-- The async of a subdevice, by its number. -/
def Kernel.find (st : Kernel) (d k : Nat) : Option (MapDevice × MapSubdevice × Nat × AsyncObj) := do
  let dev ← st.devices d
  let s ← dev.subdevices[k]?
  let id ← s.async
  let a ← st.asyncs id
  return (dev, s, id, a)

def setMaxBufsize (st : Kernel) (id : Nat) (a : AsyncObj) (size : U32) : Kernel :=
  { st with asyncs := Function.update st.asyncs id (some { a with maxBufsize := size }) }

def doBufconfigIoctl (st : Kernel) (d k : Nat) (admin : Bool) (maximumSize size : U32) (o : Allocs)
    (bufChange : Option Int) : Kernel :=
  match st.find d k with
  | none => st
  | some (dev, s, id, a) =>
    if ¬ dev.attached then st
    else if maximumSize ≠ 0 ∧ ¬ admin then st
    else
      let a := if maximumSize ≠ 0 then { a with maxBufsize := maximumSize } else a
      let st := if maximumSize ≠ 0 then setMaxBufsize st id a a.maxBufsize else st
      if size ≠ 0 then (resizeAsyncBuffer st s id a size o bufChange).2 else st

def comediMmap (st : Kernel) (d : Nat) (info : FileInfo) (write : Bool) (size pgoff : Nat)
    (failAt : Option Nat) : Int × Kernel :=
  match st.devices d with
  | none => (-enodev, st)
  | some dev =>
    if ¬ dev.attached then (-enodev, st)
    else
      let k := if write then info.writeSubdevice <|> dev.writeSubdev
        else info.readSubdevice <|> dev.readSubdev
      match k.bind fun k => st.find d k with
      | none => (-einval, st)
      | some (_, _, id, a) =>
        if pgoff ≠ 0 then (-einval, st)
        else if a.buf.preallocBufsz.toNat < size then (-efault, st)
        else if size % pageSize ≠ 0 then (-efault, st)
        else if failAt.any (· < size / pageSize) then (-eagain, st)
        else
          (0, { st with
            asyncs := Function.update st.asyncs id (some { a with mmapCount := a.mmapCount + 1 })
            maps := st.maps ++
              [⟨id, d, a.buf.pages.take (size / pageSize), a.buf.pages⟩] })

def addMmapCount (st : Kernel) (id : Nat) (n : U32) : Kernel :=
  { st with
    asyncs := Function.update st.asyncs id
      ((st.asyncs id).map fun a => { a with mmapCount := a.mmapCount + n }) }

def comediVmOpen (st : Kernel) (m : Mapping) : Kernel := addMmapCount st m.async 1

def comediVmClose (st : Kernel) (m : Mapping) : Kernel := addMmapCount st m.async (-1)

inductive MapStep where
  | allocBoard (sysfs : Bool)
  | devconfigAttach (d : Nat) (p : Attach) (moduleGet : Bool)
  | devconfigDetach (d : Nat)
  | autoConfig (sysfs kmalloc : Bool) (p : Attach)
  | autoUnconfig (minor : Nat)
  | driverUnregister (drv : Nat)
  | bufconfig (d k : Nat) (admin : Bool) (maximumSize size : U32) (o : Allocs)
      (bufChange : Option Int)
  | storeBufferKb (d : Nat) (info : FileInfo) (write : Bool) (kb : Nat) (o : Allocs)
      (bufChange : Option Int)
  | storeMaxBufferKb (d : Nat) (info : FileInfo) (write : Bool) (kb : Nat)
  | mmap (d : Nat) (info : FileInfo) (write : Bool) (size pgoff : Nat) (failAt : Option Nat)
  | copyMapping (i : Nat)
  | removeMapping (i : Nat)
  | setBusy (d k : Nat) (busy : Bool)

/-- The subdevice that a sysfs attribute of a read or a write buffer is about. -/
def attributeSubdevice (dev : MapDevice) (info : FileInfo) (write : Bool) : Option Nat :=
  (if write then info.writeSubdevice <|> dev.writeSubdev
    else info.readSubdevice <|> dev.readSubdev).filter fun k =>
      (dev.subdevices[k]?).any fun s => if write then s.cmdWrite else s.cmdRead

/-- Storing `kb` kilobytes in such an attribute. -/
def storeAttribute (st : Kernel) (d : Nat) (info : FileInfo) (write : Bool) (kb : Nat)
    (f : MapSubdevice → Nat → AsyncObj → U32 → Kernel) : Kernel :=
  if 2 ^ 32 ≤ kb * 1024 then st
  else
    match (st.devices d).bind fun dev =>
      (attributeSubdevice dev info write).bind fun k => st.find d k with
    | none => st
    | some (_, s, id, a) => f s id a (.ofNat 32 (kb * 1024))

def mapStep (st : Kernel) : MapStep → Kernel
  | .allocBoard sysfs => (comediAllocBoardMinor st sysfs).2
  | .devconfigAttach d p moduleGet =>
    let (ret, st) := comediDeviceAttach st d p
    if ret = 0 ∧ ¬ moduleGet then comediDeviceDetach st d else st
  | .devconfigDetach d =>
    match st.devices d with
    | none => st
    | some dev => if isDeviceBusy st dev then st else comediDeviceDetach st d
  | .autoConfig sysfs kmalloc p => comediAutoConfig st sysfs kmalloc p
  | .autoUnconfig minor => comediFreeBoardMinor st minor
  | .driverUnregister drv => comediDriverUnregister st drv
  | .bufconfig d k admin maximumSize size o bufChange =>
    doBufconfigIoctl st d k admin maximumSize size o bufChange
  | .storeBufferKb d info write kb o bufChange =>
    storeAttribute st d info write kb fun s id a size =>
      (resizeAsyncBuffer st s id a size o bufChange).2
  | .storeMaxBufferKb d info write kb =>
    storeAttribute st d info write kb fun _ id a size => setMaxBufsize st id a size
  | .mmap d info write size pgoff failAt => (comediMmap st d info write size pgoff failAt).2
  | .copyMapping i =>
    match st.maps[i]? with
    | none => st
    | some m => { comediVmOpen st m with maps := st.maps ++ [m] }
  | .removeMapping i =>
    match st.maps[i]? with
    | none => st
    | some m => { comediVmClose st m with maps := st.maps.eraseIdx i }
  | .setBusy d k busy =>
    { st with
      devices := Function.update st.devices d ((st.devices d).map fun dev =>
        { dev with subdevices := dev.subdevices.modify k fun s => { s with busy := busy } }) }

/-- No device is taken away or detached from its driver under a mapping, and `mmap_count` does not
wrap round. -/
def Undisturbed (st : Kernel) : MapStep → Prop
  | .autoUnconfig minor => ∀ d, st.boards minor = some d → ∀ m ∈ st.maps, m.device ≠ d
  | .driverUnregister drv => ∀ m ∈ st.maps, ∀ dev, st.devices m.device = some dev →
      dev.driver ≠ some drv
  | .mmap _ _ _ _ _ _ | .copyMapping _ => st.maps.length + 1 < 2 ^ 32
  | _ => True

def Kernel.mappings (st : Kernel) (id : Nat) : Nat := st.maps.countP (·.async = id)

/-- The counts are right, and of what a mapping points to and maps nothing is freed or replaced. -/
structure MapsAlive (st : Kernel) : Prop where
  count : ∀ id a, st.asyncs id = some a → a.mmapCount.toNat = st.mappings id
  alive : ∀ m ∈ st.maps, ∃ a dev, st.asyncs m.async = some a ∧ a.device = m.device ∧
    st.devices m.device = some dev ∧ dev.asyncAt a.index = some m.async ∧
    a.buf.pages = m.list ∧ m.pages <+: m.list ∧ ∀ p ∈ m.list, st.pool.live p

/-- Every async is where its subdevice points to it, with pages of its own that are not freed. -/
structure Inv (st : Kernel) : Prop where
  asyncLt : ∀ id a, st.asyncs id = some a → id < st.next
  deviceLt : ∀ d dev, st.devices d = some dev → d < st.next
  owner : ∀ id a, st.asyncs id = some a →
    ∃ dev, st.devices a.device = some dev ∧ dev.asyncAt a.index = some id
  owned : ∀ d dev k id, st.devices d = some dev → dev.asyncAt k = some id →
    ∃ a, st.asyncs id = some a ∧ a.device = d ∧ a.index = k
  bufOk : ∀ id a, st.asyncs id = some a → a.buf.Ok
  live : ∀ id a p, st.asyncs id = some a → p ∈ a.buf.pages → st.pool.live p
  apart : ∀ id a id' a' p, st.asyncs id = some a → st.asyncs id' = some a' → p ∈ a.buf.pages →
    p ∈ a'.buf.pages → id = id'
  freedLt : ∀ p ∈ st.pool.freed, p < st.pool.next
  boardOk : ∀ i d, st.boards i = some d → (st.devices d).isSome
  boardInj : ∀ i j d, st.boards i = some d → st.boards j = some d → i = j
  maps : ∀ m ∈ st.maps, ∃ a, st.asyncs m.async = some a ∧ a.device = m.device ∧
    a.buf.pages = m.list ∧ m.pages <+: m.list
  count : ∀ id a, st.asyncs id = some a → a.mmapCount.toNat = st.mappings id

/-- Devices that are not attached have no asyncs. -/
def Idle (st : Kernel) : Prop :=
  ∀ d dev, st.devices d = some dev → dev.attached = false → ∀ k, dev.asyncAt k = none

variable {st st' : Kernel} {dev : MapDevice} {a : AsyncObj} {d id k : Nat}

theorem Inv.mapsAlive (h : Inv st) : MapsAlive st where
  count := h.count
  alive m hm := by
    obtain ⟨a, ha, hd, hl, hp⟩ := h.maps m hm
    obtain ⟨dev, hdev, hk⟩ := h.owner _ a ha
    refine ⟨a, dev, ha, hd, hd ▸ hdev, hk, hl, hp, fun p hmem => h.live _ a p ha ?_⟩
    rwa [hl]

theorem mem_asyncs : id ∈ dev.subdevices.filterMap (·.async) ↔ ∃ k, dev.asyncAt k = some id := by
  rw [List.mem_filterMap]
  constructor
  · rintro ⟨s, hs, hid⟩
    obtain ⟨k, hk⟩ := List.mem_iff_getElem?.mp hs
    exact ⟨k, by rw [MapDevice.asyncAt, hk]; exact hid⟩
  · rintro ⟨k, hk⟩
    obtain ⟨s, hs, hid⟩ := Option.bind_eq_some_iff.mp hk
    exact ⟨s, List.mem_of_getElem? hs, hid⟩

/-- Some asyncs are freed, with their pages and nothing else. -/
structure Freed (st st' : Kernel) (ids : List Nat) : Prop where
  gone : ∀ id ∈ ids, st'.asyncs id = none
  kept : ∀ id, id ∉ ids → st'.asyncs id = st.asyncs id
  next : st'.next = st.next
  devices : st'.devices = st.devices
  boards : st'.boards = st.boards
  maps : st'.maps = st.maps
  poolNext : st'.pool.next = st.pool.next
  freed : ∀ p ∈ st'.pool.freed, p ∈ st.pool.freed ∨
    ∃ id ∈ ids, ∃ a, st.asyncs id = some a ∧ p ∈ a.buf.pages

theorem freeAsync_freed (hok : ∀ a, st.asyncs id = some a → a.buf.Ok) :
    Freed st (freeAsync st id) [id] := by
  unfold freeAsync reallocBuf
  cases ha : st.asyncs id with
  | none =>
    refine ⟨?_, ?_, rfl, rfl, rfl, rfl, rfl, fun p hp => .inl hp⟩
    · intro id' hm
      rw [List.mem_singleton.mp hm]
      exact Function.update_self _ _ _
    · intro id' hm
      exact Function.update_of_ne (fun he => hm (List.mem_singleton.mpr he)) _ _
  | some a =>
    obtain ⟨hnext, hfreed⟩ := comediBufAlloc_zero st.pool (hok a ha) {}
    refine ⟨?_, ?_, rfl, rfl, rfl, rfl, hnext, ?_⟩
    · intro id' hm
      rw [List.mem_singleton.mp hm]
      exact Function.update_self _ _ _
    · intro id' hm
      have hne : id' ≠ id := fun he => hm (List.mem_singleton.mpr he)
      exact (Function.update_of_ne hne _ _).trans (Function.update_of_ne hne _ _)
    · intro p hp
      exact (hfreed p hp).imp_right fun hmem => ⟨_, List.mem_singleton_self _, a, ha, hmem⟩

theorem Freed.trans {st₁ st₂ : Kernel} {ids ids' : List Nat} (h : Freed st st₁ ids)
    (h' : Freed st₁ st₂ ids') : Freed st st₂ (ids ++ ids') where
  gone id hm := by
    by_cases hid : id ∈ ids'
    · exact h'.gone id hid
    · rw [h'.kept id hid]
      exact h.gone id ((List.mem_append.mp hm).resolve_right hid)
  kept id hm := by
    rw [List.mem_append, not_or] at hm
    rw [h'.kept id hm.2, h.kept id hm.1]
  next := h'.next.trans h.next
  devices := h'.devices.trans h.devices
  boards := h'.boards.trans h.boards
  maps := h'.maps.trans h.maps
  poolNext := h'.poolNext.trans h.poolNext
  freed p hp := by
    rcases h'.freed p hp with hp | ⟨id, hid, a, ha, hmem⟩
    · exact (h.freed p hp).imp_right fun ⟨id, hid, hx⟩ => ⟨id, List.mem_append_left _ hid, hx⟩
    · by_cases hm : id ∈ ids
      · rw [h.gone id hm] at ha
        cases ha
      · rw [h.kept id hm] at ha
        exact .inr ⟨id, List.mem_append_right _ hid, a, ha, hmem⟩

theorem freeAsyncs_freed (hok : ∀ id a, st.asyncs id = some a → a.buf.Ok) (ids : List Nat) :
    Freed st (ids.foldl freeAsync st) ids := by
  induction ids generalizing st with
  | nil => exact ⟨nofun, fun _ _ => rfl, rfl, rfl, rfl, rfl, rfl, fun p hp => .inl hp⟩
  | cons id ids ih =>
    have h₁ := freeAsync_freed (hok id)
    refine h₁.trans (ih fun id' a ha => ?_)
    by_cases he : id' ∈ [id]
    · rw [h₁.gone id' he] at ha
      cases ha
    · rw [h₁.kept id' he] at ha
      exact hok id' a ha

theorem cleanupDevice_eq (h : st.devices d = some dev) :
    cleanupDevice st d = ((dev.subdevices.filterMap (·.async)).foldl freeAsync st).setDevice d {} := by
  simp only [cleanupDevice, h]

@[simp] theorem setDevice_self (st : Kernel) (d : Nat) (dev : MapDevice) :
    (st.setDevice d dev).devices d = some dev := Function.update_self _ _ _

theorem setDevice_of_ne {d' : Nat} (h : d' ≠ d) (st : Kernel) (dev : MapDevice) :
    (st.setDevice d dev).devices d' = st.devices d' := Function.update_of_ne h _ _

/-- A device that is cleaned up while it is not mapped. -/
theorem Inv.cleanup (h : Inv st) (hd : st.devices d = some dev)
    (hmaps : ∀ m ∈ st.maps, m.device ≠ d) : Inv (cleanupDevice st d) := by
  rw [cleanupDevice_eq hd]
  have hf := freeAsyncs_freed h.bufOk (dev.subdevices.filterMap (·.async))
  generalize (dev.subdevices.filterMap (·.async)).foldl freeAsync st = st₁ at hf
  have hkept : ∀ id a, st₁.asyncs id = some a → st.asyncs id = some a ∧ a.device ≠ d := by
    intro id a ha
    by_cases hm : id ∈ dev.subdevices.filterMap (·.async)
    · rw [hf.gone id hm] at ha
      cases ha
    · rw [hf.kept id hm] at ha
      refine ⟨ha, fun he => hm ?_⟩
      obtain ⟨dev', hdev', hk⟩ := h.owner id a ha
      rw [he, hd] at hdev'
      cases hdev'
      exact mem_asyncs.mpr ⟨_, hk⟩
  have hdevices : ∀ d' dev', (st₁.setDevice d {}).devices d' = some dev' →
      d' = d ∧ dev' = {} ∨ d' ≠ d ∧ st.devices d' = some dev' := by
    intro d' dev' hx
    by_cases he : d' = d
    · rw [he, setDevice_self] at hx
      exact .inl ⟨he, (Option.some.inj hx).symm⟩
    · rw [setDevice_of_ne he, hf.devices] at hx
      exact .inr ⟨he, hx⟩
  have hother : ∀ d', d' ≠ d → (st₁.setDevice d {}).devices d' = st.devices d' := by
    intro d' he
    rw [setDevice_of_ne he, hf.devices]
  refine ⟨?_, ?_, ?_, ?_, ?_, ?_, ?_, ?_, ?_, ?_, ?_, ?_⟩
  · intro id a ha
    exact hf.next.symm ▸ h.asyncLt id a (hkept id a ha).1
  · intro d' dev' hx
    change d' < st₁.next
    rw [hf.next]
    rcases hdevices d' dev' hx with ⟨rfl, -⟩ | ⟨-, hx⟩
    · exact h.deviceLt _ dev hd
    · exact h.deviceLt d' dev' hx
  · intro id a ha
    obtain ⟨ha, hne⟩ := hkept id a ha
    rw [hother _ hne]
    exact h.owner id a ha
  · intro d' dev' k id hx hk
    rcases hdevices d' dev' hx with ⟨-, rfl⟩ | ⟨hne, hx⟩
    · cases hk
    · obtain ⟨a, ha, had, hak⟩ := h.owned d' dev' k id hx hk
      refine ⟨a, ?_, had, hak⟩
      rw [← ha]
      refine hf.kept id fun hm => ?_
      obtain ⟨k', hk'⟩ := mem_asyncs.mp hm
      obtain ⟨a', ha', had', -⟩ := h.owned d dev k' id hd hk'
      cases ha.symm.trans ha'
      exact hne (had.symm.trans had')
  · intro id a ha
    exact h.bufOk id a (hkept id a ha).1
  · intro id a p ha hp
    obtain ⟨ha, hne⟩ := hkept id a ha
    obtain ⟨hlt, hnf⟩ := h.live id a p ha hp
    refine ⟨hf.poolNext.symm ▸ hlt, fun hfr => ?_⟩
    rcases hf.freed p hfr with hfr | ⟨id', hm, a', ha', hp'⟩
    · exact hnf hfr
    · obtain rfl := h.apart id a id' a' p ha ha' hp hp'
      cases ha.symm.trans ha'
      obtain ⟨k', hk'⟩ := mem_asyncs.mp hm
      obtain ⟨a'', ha'', had, -⟩ := h.owned d dev k' id hd hk'
      cases ha.symm.trans ha''
      exact hne had
  · intro id a id' a' p ha ha'
    exact h.apart id a id' a' p (hkept id a ha).1 (hkept id' a' ha').1
  · intro p hp
    change p < st₁.pool.next
    rw [hf.poolNext]
    rcases hf.freed p hp with hp | ⟨id, -, a, ha, hmem⟩
    · exact h.freedLt p hp
    · exact (h.live id a p ha hmem).1
  · intro i d' hb
    have hb' : st.boards i = some d' := hf.boards ▸ hb
    by_cases he : d' = d
    · rw [he, setDevice_self]
      rfl
    · rw [hother d' he]
      exact h.boardOk i d' hb'
  · intro i j d' hi hj
    exact h.boardInj i j d' (hf.boards ▸ hi) (hf.boards ▸ hj)
  · intro m hm
    have hm' : m ∈ st.maps := hf.maps ▸ hm
    obtain ⟨a, ha, had, hx⟩ := h.maps m hm'
    refine ⟨a, ?_, had, hx⟩
    rw [← ha]
    refine hf.kept _ fun hmem => ?_
    obtain ⟨k', hk'⟩ := mem_asyncs.mp hmem
    obtain ⟨a', ha', had', -⟩ := h.owned d dev k' _ hd hk'
    cases ha.symm.trans ha'
    exact hmaps m hm' (had.symm.trans had')
  · intro id a ha
    have hc := h.count id a (hkept id a ha).1
    rw [hc, Kernel.mappings, Kernel.mappings]
    exact congrArg (List.countP _) hf.maps.symm

/-- What happens to the buffer of one async that is not mapped. -/
theorem Inv.realloc (h : Inv st) (ha : st.asyncs id = some a) (hmaps : ∀ m ∈ st.maps, m.async ≠ id)
    {newSize : Nat} {r : Int} {pool' : Pool} {buf' : Buffer}
    (hr : Realloc st.pool a.buf newSize r pool' buf') :
    Inv { st with
      pool := pool'
      asyncs := Function.update st.asyncs id (some { a with buf := buf' }) } := by
  have hnext := hr.next_le
  have hold : ∀ id' a', Function.update st.asyncs id (some { a with buf := buf' }) id' = some a' →
      id' = id ∧ a' = { a with buf := buf' } ∨ id' ≠ id ∧ st.asyncs id' = some a' := by
    intro id' a' hx
    by_cases he : id' = id
    · rw [he, Function.update_self] at hx
      exact .inl ⟨he, (Option.some.inj hx).symm⟩
    · rw [Function.update_of_ne he] at hx
      exact .inr ⟨he, hx⟩
  have hlive : ∀ id' a' p, id' ≠ id → st.asyncs id' = some a' → p ∈ a'.buf.pages →
      pool'.live p := by
    intro id' a' p hne ha' hp
    obtain ⟨hlt, hnf⟩ := h.live id' a' p ha' hp
    refine ⟨by omega, fun hf => ?_⟩
    rcases hr.freed hf with hf | hf | hf
    · exact hnf hf
    · exact hne (h.apart id' a' id a p ha' ha hp hf)
    · omega
  have hnew : ∀ p ∈ buf'.pages, pool'.live p ∧ (p ∈ a.buf.pages ∨ st.pool.next ≤ p) := by
    intro p hp
    rcases hr.pages hp with ⟨he, hp⟩ | ⟨hge, hlt, hf⟩
    · rw [he]
      exact ⟨h.live id a p ha hp, .inl hp⟩
    · refine ⟨⟨hlt, fun hfr => ?_⟩, .inr hge⟩
      rcases hf hfr with hp | hp
      · have := h.freedLt p hp
        omega
      · have := (h.live id a p ha hp).1
        omega
  have hapart : ∀ id' a' p, id' ≠ id → st.asyncs id' = some a' → p ∈ a'.buf.pages →
      p ∉ buf'.pages := by
    intro id' a' p hne ha' hp hp'
    rcases (hnew p hp').2 with hp' | hge
    · exact hne (h.apart id' a' id a p ha' ha hp hp')
    · have := (h.live id' a' p ha' hp).1
      omega
  refine ⟨?_, h.deviceLt, ?_, ?_, ?_, ?_, ?_, ?_, h.boardOk, h.boardInj, ?_, ?_⟩
  · intro id' a' hx
    rcases hold id' a' hx with ⟨rfl, -⟩ | ⟨-, hx⟩
    · exact h.asyncLt _ a ha
    · exact h.asyncLt id' a' hx
  · intro id' a' hx
    rcases hold id' a' hx with ⟨rfl, rfl⟩ | ⟨-, hx⟩
    · exact h.owner _ a ha
    · exact h.owner id' a' hx
  · intro d dev k id' hd hk
    obtain ⟨a', ha', hx⟩ := h.owned d dev k id' hd hk
    by_cases he : id' = id
    · rw [he] at ha' ⊢
      cases ha.symm.trans ha'
      exact ⟨_, Function.update_self _ _ _, hx⟩
    · exact ⟨a', (Function.update_of_ne he _ _).trans ha', hx⟩
  · intro id' a' hx
    rcases hold id' a' hx with ⟨rfl, rfl⟩ | ⟨-, hx⟩
    · exact hr.ok (h.bufOk _ a ha)
    · exact h.bufOk id' a' hx
  · intro id' a' p hx hp
    rcases hold id' a' hx with ⟨-, rfl⟩ | ⟨hne, hx⟩
    · exact (hnew p hp).1
    · exact hlive id' a' p hne hx hp
  · intro id₁ a₁ id₂ a₂ p h₁ h₂ hp₁ hp₂
    rcases hold id₁ a₁ h₁ with ⟨he₁, rfl⟩ | ⟨hne₁, h₁⟩
    · rcases hold id₂ a₂ h₂ with ⟨he₂, -⟩ | ⟨hne₂, h₂⟩
      · exact he₁.trans he₂.symm
      · exact absurd hp₁ (hapart id₂ a₂ p hne₂ h₂ hp₂)
    · rcases hold id₂ a₂ h₂ with ⟨-, rfl⟩ | ⟨-, h₂⟩
      · exact absurd hp₂ (hapart id₁ a₁ p hne₁ h₁ hp₁)
      · exact h.apart id₁ a₁ id₂ a₂ p h₁ h₂ hp₁ hp₂
  · intro p hp
    exact hr.freed_lt h.freedLt (fun p hp => (h.live id a p ha hp).1) p hp
  · intro m hm
    obtain ⟨a', ha', hx⟩ := h.maps m hm
    exact ⟨a', (Function.update_of_ne (hmaps m hm) _ _).trans ha', hx⟩
  · intro id' a' hx
    rcases hold id' a' hx with ⟨rfl, rfl⟩ | ⟨-, hx⟩
    · exact h.count _ a ha
    · exact h.count id' a' hx

/-- Only device `d` and its asyncs are touched. -/
structure Confined (st st' : Kernel) (d : Nat) : Prop where
  others : ∀ d', d' ≠ d → st'.devices d' = st.devices d'
  boards : st'.boards = st.boards
  maps : st'.maps = st.maps

theorem Confined.refl (st : Kernel) (d : Nat) : Confined st st d := ⟨fun _ _ => rfl, rfl, rfl⟩

theorem Confined.trans {st₁ st₂ : Kernel} (h : Confined st st₁ d) (h' : Confined st₁ st₂ d) :
    Confined st st₂ d :=
  ⟨fun d' hne => (h'.others d' hne).trans (h.others d' hne), h'.boards.trans h.boards,
    h'.maps.trans h.maps⟩

theorem Inv.reallocBuf (h : Inv st) (hmaps : ∀ m ∈ st.maps, m.async ≠ id) {newSize : Nat}
    (hlt : roundUp newSize < 2 ^ 32) (o : Allocs) :
    Inv (reallocBuf st id newSize o).2 ∧ (reallocBuf st id newSize o).2.devices = st.devices ∧
      (reallocBuf st id newSize o).2.boards = st.boards ∧
      (reallocBuf st id newSize o).2.maps = st.maps := by
  unfold MappedBuffers.reallocBuf
  cases ha : st.asyncs id with
  | none => exact ⟨h, rfl, rfl, rfl⟩
  | some a =>
    exact ⟨h.realloc ha hmaps (comediBufAlloc_realloc _ (h.bufOk id a ha) hlt o), rfl, rfl, rfl⟩

theorem setAsync_asyncAt (dev : MapDevice) {j : Nat} (hk : k < dev.subdevices.length) :
    (dev.setAsync k id).asyncAt j = if j = k then some id else dev.asyncAt j := by
  unfold MapDevice.setAsync MapDevice.asyncAt
  by_cases he : j = k
  · rw [if_pos he, he, List.getElem?_modify_eq, List.getElem?_eq_getElem hk]
    rfl
  · rw [if_neg he, List.getElem?_modify_ne _ _ (Ne.symm he)]

theorem Inv.addAsync (h : Inv st) (hd : st.devices d = some dev) (hk : k < dev.subdevices.length)
    (hfree : dev.asyncAt k = none) : Inv (st.addAsync d k) := by
  have hasyncs : ∀ id' a', (st.addAsync d k).asyncs id' = some a' →
      id' = st.next ∧ a' = { device := d, index := k } ∨ id' < st.next ∧ st.asyncs id' = some a' := by
    intro id' a' hx
    change Function.update st.asyncs st.next (some { device := d, index := k }) id' = some a' at hx
    by_cases he : id' = st.next
    · rw [he, Function.update_self] at hx
      exact .inl ⟨he, (Option.some.inj hx).symm⟩
    · rw [Function.update_of_ne he] at hx
      exact .inr ⟨h.asyncLt id' a' hx, hx⟩
  have hself : (st.addAsync d k).devices d = some (dev.setAsync k st.next) := by
    rw [Kernel.addAsync, hd]
    exact Function.update_self _ _ _
  have hother : ∀ d', d' ≠ d → (st.addAsync d k).devices d' = st.devices d' := fun d' he =>
    Function.update_of_ne he _ _
  have hpages : ({} : Buffer).pages = [] := rfl
  have hnomap : ∀ m ∈ st.maps, m.async ≠ st.next := by
    intro m hm he
    obtain ⟨a, ha, -⟩ := h.maps m hm
    exact absurd (he ▸ h.asyncLt _ a ha) (lt_irrefl _)
  refine ⟨?_, ?_, ?_, ?_, ?_, ?_, ?_, h.freedLt, ?_, h.boardInj, ?_, ?_⟩
  · intro id' a' hx
    change id' < st.next + 1
    rcases hasyncs id' a' hx with ⟨rfl, -⟩ | ⟨hlt, -⟩ <;> omega
  · intro d' dev' hx
    change d' < st.next + 1
    by_cases he : d' = d
    · have := h.deviceLt d dev hd
      omega
    · rw [hother d' he] at hx
      have := h.deviceLt d' dev' hx
      omega
  · intro id' a' hx
    rcases hasyncs id' a' hx with ⟨rfl, rfl⟩ | ⟨hlt, hx⟩
    · refine ⟨_, hself, ?_⟩
      rw [setAsync_asyncAt dev hk, if_pos rfl]
    · obtain ⟨dev', hdev', hk'⟩ := h.owner id' a' hx
      by_cases he : a'.device = d
      · rw [he] at hdev' ⊢
        cases hd.symm.trans hdev'
        refine ⟨_, hself, ?_⟩
        rw [setAsync_asyncAt dev hk, if_neg, hk']
        intro hi
        rw [hi, hfree] at hk'
        cases hk'
      · exact ⟨dev', (hother _ he).trans hdev', hk'⟩
  · intro d' dev' k' id' hx hk'
    by_cases he : d' = d
    · rw [he, hself] at hx
      cases hx
      rw [setAsync_asyncAt dev hk] at hk'
      split at hk'
      · next hi =>
        cases hk'
        exact ⟨_, Function.update_self _ _ _, he.symm, hi.symm⟩
      · obtain ⟨a', ha', had, hak⟩ := h.owned d dev k' id' hd hk'
        refine ⟨a', ?_, had.trans he.symm, hak⟩
        exact (Function.update_of_ne (Nat.ne_of_lt (h.asyncLt id' a' ha')) _ _).trans ha'
    · rw [hother d' he] at hx
      obtain ⟨a', ha', hy⟩ := h.owned d' dev' k' id' hx hk'
      exact ⟨a', (Function.update_of_ne (Nat.ne_of_lt (h.asyncLt id' a' ha')) _ _).trans ha', hy⟩
  · intro id' a' hx
    rcases hasyncs id' a' hx with ⟨-, rfl⟩ | ⟨-, hx⟩
    · exact .empty
    · exact h.bufOk id' a' hx
  · intro id' a' p hx hp
    rcases hasyncs id' a' hx with ⟨-, rfl⟩ | ⟨-, hx⟩
    · cases hp
    · exact h.live id' a' p hx hp
  · intro id₁ a₁ id₂ a₂ p h₁ h₂ hp₁ hp₂
    rcases hasyncs id₁ a₁ h₁ with ⟨-, rfl⟩ | ⟨-, h₁⟩
    · cases hp₁
    · rcases hasyncs id₂ a₂ h₂ with ⟨-, rfl⟩ | ⟨-, h₂⟩
      · cases hp₂
      · exact h.apart id₁ a₁ id₂ a₂ p h₁ h₂ hp₁ hp₂
  · intro i d' hb
    by_cases he : d' = d
    · rw [he, hself]
      rfl
    · rw [hother d' he]
      exact h.boardOk i d' hb
  · intro m hm
    obtain ⟨a', ha', hx⟩ := h.maps m hm
    exact ⟨a', (Function.update_of_ne (Nat.ne_of_lt (h.asyncLt _ a' ha')) _ _).trans ha', hx⟩
  · intro id' a' hx
    rcases hasyncs id' a' hx with ⟨rfl, rfl⟩ | ⟨-, hx⟩
    · refine (List.countP_eq_zero.mpr fun m hm => ?_).symm
      simpa using hnomap m hm
    · exact h.count id' a' hx

/-- A device that is being set up: not mapped, with no asyncs from subdevice `k` on. -/
structure Fresh (st : Kernel) (d n k : Nat) : Prop where
  device : ∃ dev, st.devices d = some dev ∧ dev.subdevices.length = n ∧ ∀ j, k ≤ j →
    dev.asyncAt j = none
  maps : ∀ m ∈ st.maps, m.device ≠ d

theorem Fresh.next {n : Nat} (h : Fresh st d n k) : Fresh st d n (k + 1) :=
  ⟨h.device.imp fun _ hd => ⟨hd.1, hd.2.1, fun j hj => hd.2.2 j (by omega)⟩, h.maps⟩

theorem Inv.postconfigSubdevice {n : Nat} (h : Inv st) (hf : Fresh st d n k) (hk : k < n)
    (spec : SubSpec) :
    Inv (postconfigSubdevice st d k spec).2 ∧ Fresh (postconfigSubdevice st d k spec).2 d n (k + 1) ∧
      Confined st (postconfigSubdevice st d k spec).2 d := by
  have hnext := hf.next
  obtain ⟨⟨dev, hd, hn, hnone⟩, hmaps⟩ := hf
  unfold MappedBuffers.postconfigSubdevice
  split
  · exact ⟨h, hnext, .refl st d⟩
  split
  · exact ⟨h, hnext, .refl st d⟩
  have hk' : k < dev.subdevices.length := by rw [hn]; exact hk
  have hadd := h.addAsync hd hk' (hnone k le_rfl)
  have hnomap : ∀ m ∈ (st.addAsync d k).maps, m.async ≠ st.next := by
    intro m hm he
    obtain ⟨a, ha, -⟩ := h.maps m hm
    exact absurd (he ▸ h.asyncLt _ a ha) (lt_irrefl _)
  obtain ⟨hinv, hdev, hb, hm⟩ :=
    hadd.reallocBuf hnomap (show roundUp defaultBufSize < 2 ^ 32 by decide) spec.allocs
  generalize MappedBuffers.reallocBuf (st.addAsync d k) st.next defaultBufSize spec.allocs = r
    at hinv hdev hb hm
  have hself : r.2.devices d = some (dev.setAsync k st.next) := by
    rw [hdev, Kernel.addAsync, hd]
    exact Function.update_self _ _ _
  have hfresh : Fresh r.2 d n (k + 1) := by
    refine ⟨⟨_, hself, ?_, fun j hj => ?_⟩, fun m hmem => hmaps m (by rwa [hm] at hmem)⟩
    · simp only [MapDevice.setAsync, List.length_modify, hn]
    · rw [setAsync_asyncAt dev hk', if_neg (by omega), hnone j (by omega)]
  have hconf : Confined st r.2 d := by
    refine ⟨fun d' hne => ?_, hb, hm⟩
    rw [hdev]
    exact Function.update_of_ne hne _ _
  dsimp only
  split
  · exact ⟨hinv, hfresh, hconf⟩
  · split
    · exact ⟨hinv, hfresh, hconf⟩
    · exact ⟨hinv, hfresh, hconf⟩

theorem Inv.postconfig {n : Nat} (specs : List SubSpec) (h : Inv st) (hf : Fresh st d n k)
    (hn : k + specs.length = n) :
    Inv (postconfig st d specs k).2 ∧ (∃ j, Fresh (postconfig st d specs k).2 d n j) ∧
      Confined st (postconfig st d specs k).2 d := by
  induction specs generalizing st k with
  | nil => exact ⟨h, ⟨k, hf⟩, .refl st d⟩
  | cons spec specs ih =>
    rw [List.length_cons] at hn
    obtain ⟨h₁, hf₁, hc₁⟩ := h.postconfigSubdevice hf (by omega) spec
    unfold MappedBuffers.postconfig
    dsimp only
    split
    · exact ⟨h₁, ⟨_, hf₁⟩, hc₁⟩
    · obtain ⟨h₂, hf₂, hc₂⟩ := ih h₁ hf₁ (by omega)
      exact ⟨h₂, hf₂, hc₁.trans hc₂⟩

theorem cleanup_confined (hok : ∀ id a, st.asyncs id = some a → a.buf.Ok)
    (hd : st.devices d = some dev) :
    Confined st (cleanupDevice st d) d ∧ (cleanupDevice st d).devices d = some {} := by
  rw [cleanupDevice_eq hd]
  have hf := freeAsyncs_freed hok (dev.subdevices.filterMap (·.async))
  refine ⟨⟨fun d' hne => ?_, hf.boards, hf.maps⟩, setDevice_self _ _ _⟩
  rw [setDevice_of_ne hne, hf.devices]

/-- A change of the tables that moves no async. -/
theorem Inv.retable (h : Inv st) {next' : Nat} {devices' : Nat → Option MapDevice}
    {boards' : Nat → Option Nat} (hnext : st.next ≤ next')
    (hlt : ∀ d dev, devices' d = some dev → d < next')
    (hat : ∀ d k, (devices' d).bind (·.asyncAt k) = (st.devices d).bind (·.asyncAt k))
    (hb : ∀ i d, boards' i = some d → (devices' d).isSome)
    (hinj : ∀ i j d, boards' i = some d → boards' j = some d → i = j) :
    Inv { st with next := next', devices := devices', boards := boards' } where
  asyncLt id a ha := Nat.lt_of_lt_of_le (h.asyncLt id a ha) hnext
  deviceLt := hlt
  owner id a ha := by
    obtain ⟨dev, hd, hk⟩ := h.owner id a ha
    have hat' := hat a.device a.index
    rw [hd, Option.bind_some, hk] at hat'
    exact Option.bind_eq_some_iff.mp hat'
  owned d dev k id hd hk := by
    have hsome : (devices' d).bind (·.asyncAt k) = some id := Option.bind_eq_some_iff.mpr ⟨dev, hd, hk⟩
    rw [hat] at hsome
    obtain ⟨dev', hd', hk'⟩ := Option.bind_eq_some_iff.mp hsome
    exact h.owned d dev' k id hd' hk'
  bufOk := h.bufOk
  live := h.live
  apart := h.apart
  freedLt := h.freedLt
  boardOk := hb
  boardInj := hinj
  maps := h.maps
  count := h.count

/-- A change of one device that moves no async. -/
theorem Inv.update (h : Inv st) (hd : st.devices d = some dev) {dev' : MapDevice}
    (hat : ∀ k, dev'.asyncAt k = dev.asyncAt k) : Inv (st.setDevice d dev') := by
  refine h.retable le_rfl ?_ ?_ ?_ h.boardInj
  · intro d' dev₁ hx
    by_cases he : d' = d
    · rw [he]
      exact h.deviceLt d dev hd
    · rw [Function.update_of_ne he] at hx
      exact h.deviceLt d' dev₁ hx
  · intro d' k
    by_cases he : d' = d
    · rw [he, Function.update_self, hd]
      exact hat k
    · rw [Function.update_of_ne he]
  · intro i d' hb
    by_cases he : d' = d
    · rw [he, Function.update_self]
      rfl
    · rw [Function.update_of_ne he]
      exact h.boardOk i d' hb

theorem Inv.unmapped_of_idle (h : Inv st) (hd : st.devices d = some dev)
    (hnone : ∀ k, dev.asyncAt k = none) : ∀ m ∈ st.maps, m.device ≠ d := by
  intro m hm he
  obtain ⟨a, ha, had, -⟩ := h.maps m hm
  obtain ⟨dev', hdev', hk⟩ := h.owner _ a ha
  rw [had, he, hd] at hdev'
  cases hdev'
  rw [hnone] at hk
  cases hk

theorem Attach.asyncAt (p : Attach) (k : Nat) : p.device.asyncAt k = none := by
  rw [MapDevice.asyncAt, Attach.device, List.getElem?_map]
  cases p.subdevices[k]? with
  | none => rfl
  | some spec => rfl

theorem setAttached_eq (hd : st.devices d = some dev) :
    st.setAttached d = st.setDevice d { dev with attached := true } := by
  rw [Kernel.setAttached, hd]
  rfl

/-- What is kept over whole runs. -/
structure Kept (st : Kernel) : Prop extends Inv st where
  idle : Idle st

theorem Kept.unmapped (h : Kept st) (hd : st.devices d = some dev) (hatt : dev.attached = false) :
    ∀ m ∈ st.maps, m.device ≠ d :=
  h.unmapped_of_idle hd (h.idle d dev hd hatt)

theorem Kept.cleanup (h : Inv st) (hidle : ∀ d' dev', d' ≠ d → st.devices d' = some dev' →
    dev'.attached = false → ∀ k, dev'.asyncAt k = none) (hd : st.devices d = some dev)
    (hmaps : ∀ m ∈ st.maps, m.device ≠ d) :
    Kept (cleanupDevice st d) ∧ Confined st (cleanupDevice st d) d := by
  obtain ⟨hc, hself⟩ := cleanup_confined h.bufOk hd
  refine ⟨⟨h.cleanup hd hmaps, fun d' dev' hx hatt k => ?_⟩, hc⟩
  by_cases he : d' = d
  · rw [he, hself] at hx
    cases hx
    rfl
  · rw [hc.others d' he] at hx
    exact hidle d' dev' he hx hatt k

theorem Kept.detach (h : Kept st) (hmaps : ∀ m ∈ st.maps, m.device ≠ d) :
    Kept (comediDeviceDetach st d) ∧ Confined st (comediDeviceDetach st d) d := by
  unfold comediDeviceDetach
  cases hd : st.devices d with
  | none => exact ⟨h, .refl st d⟩
  | some dev =>
    dsimp only
    split
    · exact Kept.cleanup h.toInv (fun d' dev' _ => h.idle d' dev') hd hmaps
    · exact ⟨h, .refl st d⟩

theorem Kept.attach (h : Kept st) (d : Nat) (p : Attach) :
    Kept (comediDeviceAttach st d p).2 ∧ Confined st (comediDeviceAttach st d p).2 d := by
  unfold comediDeviceAttach
  cases hd : st.devices d with
  | none => exact ⟨h, .refl st d⟩
  | some dev =>
    dsimp only
    split
    · exact ⟨h, .refl st d⟩
    next hatt =>
    split
    · exact ⟨h, .refl st d⟩
    rw [Bool.not_eq_true] at hatt
    have hmaps := h.unmapped hd hatt
    have hnone := h.idle d dev hd hatt
    have hset : Inv (st.setDevice d p.device) :=
      h.toInv.update hd fun k => (p.asyncAt k).trans (hnone k).symm
    have hsetc : Confined st (st.setDevice d p.device) d :=
      ⟨fun d' hne => setDevice_of_ne hne _ _, rfl, rfl⟩
    have hrest : ∀ st₁, Confined st st₁ d → ∀ d' dev', d' ≠ d → st₁.devices d' = some dev' →
        dev'.attached = false → ∀ k, dev'.asyncAt k = none := by
      intro st₁ hc d' dev' hne hx
      rw [hc.others d' hne] at hx
      exact h.idle d' dev' hx
    split
    · obtain ⟨hk, hc⟩ := Kept.cleanup hset (hrest _ hsetc) (setDevice_self _ _ _) hmaps
      exact ⟨hk, hsetc.trans hc⟩
    have hfresh : Fresh (st.setDevice d p.device) d p.subdevices.length 0 :=
      ⟨⟨_, setDevice_self _ _ _, List.length_map _, fun j _ => p.asyncAt j⟩, hmaps⟩
    obtain ⟨hinv, ⟨j, ⟨dev₁, hdev₁, -⟩, hmaps₁⟩, hc⟩ :=
      hset.postconfig p.subdevices hfresh (Nat.zero_add _)
    generalize postconfig (st.setDevice d p.device) d p.subdevices 0 = r at *
    have hc' := hsetc.trans hc
    split
    · obtain ⟨hk, hcl⟩ := Kept.cleanup hinv (hrest _ hc') hdev₁ hmaps₁
      exact ⟨hk, hc'.trans hcl⟩
    · rw [setAttached_eq hdev₁]
      have hatt₁ : Confined r.2 (r.2.setDevice d { dev₁ with attached := true }) d :=
        ⟨fun d' hne => setDevice_of_ne hne _ _, rfl, rfl⟩
      refine ⟨⟨hinv.update hdev₁ fun k => rfl, fun d' dev' hx hfalse => ?_⟩, hc'.trans hatt₁⟩
      by_cases he : d' = d
      · rw [he, setDevice_self] at hx
        cases hx
        cases hfalse
      · exact hrest _ (hc'.trans hatt₁) d' dev' he hx hfalse

theorem detach_unattached (hd : (comediDeviceDetach st d).devices d = some dev)
    (hok : ∀ id a, st.asyncs id = some a → a.buf.Ok) : dev.attached = false := by
  unfold comediDeviceDetach at hd
  cases h : st.devices d with
  | none =>
    rw [h] at hd
    exact absurd (h.symm.trans hd) nofun
  | some dev₀ =>
    rw [h] at hd
    dsimp only at hd
    split at hd
    · rw [(cleanup_confined hok h).2] at hd
      cases hd
      rfl
    · next hatt =>
      cases h.symm.trans hd
      exact Bool.not_eq_true _ ▸ hatt

/-- A board minor is given up while its device is not mapped. -/
theorem Kept.freeBoard (h : Kept st) {minor : Nat}
    (hmaps : ∀ d, st.boards minor = some d → ∀ m ∈ st.maps, m.device ≠ d) :
    Kept (comediFreeBoardMinor st minor) ∧ (comediFreeBoardMinor st minor).maps = st.maps := by
  unfold comediFreeBoardMinor
  cases hb : st.boards minor with
  | none => exact ⟨h, rfl⟩
  | some d =>
    dsimp only
    have hout : ∀ i d', Function.update st.boards minor none i = some d' →
        i ≠ minor ∧ st.boards i = some d' := by
      intro i d' hi
      by_cases he : i = minor
      · rw [he, Function.update_self] at hi
        cases hi
      · rw [Function.update_of_ne he] at hi
        exact ⟨he, hi⟩
    have h₁ : Kept { st with boards := Function.update st.boards minor none } :=
      ⟨h.toInv.retable le_rfl h.deviceLt (fun _ _ => rfl)
        (fun i d' hi => h.boardOk i d' (hout i d' hi).2)
        (fun i j d' hi hj => h.boardInj i j d' (hout i d' hi).2 (hout j d' hj).2), h.idle⟩
    obtain ⟨h₂, hc⟩ := h₁.detach (hmaps d hb)
    have hidle : ∀ dev k, (comediDeviceDetach
        { st with boards := Function.update st.boards minor none } d).devices d = some dev →
        dev.asyncAt k = none := fun dev k hdev =>
      h₂.idle d dev hdev (detach_unattached hdev h₁.bufOk) k
    generalize comediDeviceDetach { st with boards := Function.update st.boards minor none } d = st₂
      at h₂ hc hidle
    refine ⟨⟨h₂.toInv.retable le_rfl ?_ ?_ ?_ h₂.boardInj, ?_⟩, hc.maps⟩
    · intro d' dev hx
      by_cases he : d' = d
      · rw [he, Function.update_self] at hx
        cases hx
      · rw [Function.update_of_ne he] at hx
        exact h₂.deviceLt d' dev hx
    · intro d' k
      by_cases he : d' = d
      · rw [he, Function.update_self]
        cases hx : st₂.devices d with
        | none => rfl
        | some dev => exact (hidle dev k hx).symm
      · rw [Function.update_of_ne he]
    · intro i d' hi
      have hne : d' ≠ d := by
        rintro rfl
        rw [hc.boards] at hi
        obtain ⟨hne, hi⟩ := hout i d' hi
        exact hne (h.boardInj i minor d' hi hb)
      rw [Function.update_of_ne hne]
      exact h₂.boardOk i d' hi
    · intro d' dev hx
      by_cases he : d' = d
      · rw [he] at hx
        exact absurd ((Function.update_self d none st₂.devices).symm.trans hx) nofun
      · exact h₂.idle d' dev ((Function.update_of_ne he _ _).symm.trans hx)

theorem Inv.maps_lt (h : Inv st) : ∀ m ∈ st.maps, m.device ≠ st.next := by
  intro m hm he
  obtain ⟨a, ha, had, -⟩ := h.maps m hm
  obtain ⟨dev, hdev, -⟩ := h.owner _ a ha
  have := h.deviceLt _ dev hdev
  omega

/-- A new board minor belongs to a device that nothing maps. -/
theorem Kept.allocBoard (h : Kept st) (sysfs : Bool) :
    Kept (comediAllocBoardMinor st sysfs).2 ∧ (comediAllocBoardMinor st sysfs).2.maps = st.maps ∧
      ∀ i d, (comediAllocBoardMinor st sysfs).1 = some (i, d) →
        d = st.next ∧ (comediAllocBoardMinor st sysfs).2.boards i = some d := by
  unfold comediAllocBoardMinor
  cases hf : freeMinor st with
  | none => exact ⟨h, rfl, nofun⟩
  | some i =>
    have hi : st.boards i = none := by
      have := List.find?_some hf
      exact Option.isNone_iff_eq_none.mp this
    dsimp only
    let st₁ : Kernel := { st with
      next := st.next + 1
      devices := Function.update st.devices st.next (some {})
      boards := Function.update st.boards i (some st.next) }
    have hdev : ∀ d dev, st₁.devices d = some dev →
        d = st.next ∧ dev = {} ∨ d < st.next ∧ st.devices d = some dev := by
      intro d dev hx
      change Function.update st.devices st.next (some {}) d = some dev at hx
      by_cases he : d = st.next
      · rw [he, Function.update_self] at hx
        exact .inl ⟨he, (Option.some.inj hx).symm⟩
      · rw [Function.update_of_ne he] at hx
        exact .inr ⟨h.deviceLt d dev hx, hx⟩
    have hboard : ∀ j d, st₁.boards j = some d → j = i ∧ d = st.next ∨
        d < st.next ∧ st.boards j = some d := by
      intro j d hx
      change Function.update st.boards i (some st.next) j = some d at hx
      by_cases he : j = i
      · rw [he, Function.update_self] at hx
        exact .inl ⟨he, (Option.some.inj hx).symm⟩
      · rw [Function.update_of_ne he] at hx
        obtain ⟨dev, hd⟩ := Option.isSome_iff_exists.mp (h.boardOk j d hx)
        exact .inr ⟨h.deviceLt d dev hd, hx⟩
    have h₁ : Kept st₁ := by
      refine ⟨h.toInv.retable (Nat.le_succ _) ?_ ?_ ?_ ?_, ?_⟩
      · intro d dev hx
        rcases hdev d dev hx with ⟨rfl, -⟩ | ⟨hlt, -⟩ <;> omega
      · intro d k
        by_cases he : d = st.next
        · have hnone : st.devices d = none := by
            cases hx : st.devices d with
            | none => rfl
            | some dev => exact absurd (he ▸ h.deviceLt d dev hx) (lt_irrefl _)
          rw [hnone, he, Function.update_self]
          rfl
        · rw [Function.update_of_ne he]
      · intro j d hx
        rcases hboard j d hx with ⟨-, rfl⟩ | ⟨hlt, hx⟩
        · rw [Function.update_self]
          rfl
        · rw [Function.update_of_ne (Nat.ne_of_lt hlt)]
          exact h.boardOk j d hx
      · intro j j' d hx hx'
        rcases hboard j d hx with ⟨rfl, hd⟩ | ⟨hlt, hx⟩
        · rcases hboard j' d hx' with ⟨rfl, -⟩ | ⟨hlt, -⟩
          · rfl
          · omega
        · rcases hboard j' d hx' with ⟨-, hd⟩ | ⟨-, hx'⟩
          · omega
          · exact h.boardInj j j' d hx hx'
      · intro d dev hx hatt k
        rcases hdev d dev hx with ⟨-, rfl⟩ | ⟨-, hx⟩
        · rfl
        · exact h.idle d dev hx hatt k
    have hself : st₁.boards i = some st.next := Function.update_self _ _ _
    cases sysfs with
    | true =>
      refine ⟨h₁, rfl, ?_⟩
      rintro j d hx
      cases hx
      exact ⟨rfl, hself⟩
    | false =>
      obtain ⟨h₂, hm⟩ := h₁.freeBoard (fun d (hd : st₁.boards i = some d) => by
        cases hself.symm.trans hd
        exact h.maps_lt)
      exact ⟨h₂, hm, nofun⟩

theorem Kept.autoConfig (h : Kept st) (sysfs kmalloc : Bool) (p : Attach) :
    Kept (comediAutoConfig st sysfs kmalloc p) := by
  obtain ⟨h₁, hm₁, hnew⟩ := h.allocBoard sysfs
  unfold comediAutoConfig
  generalize comediAllocBoardMinor st sysfs = r at h₁ hm₁ hnew
  obtain ⟨_ | ⟨minor, d⟩, st₁⟩ := r
  · exact h₁
  obtain ⟨rfl, hb⟩ := hnew minor d rfl
  have hfree : ∀ st₂, Kept st₂ → st₂.boards = st₁.boards → st₂.maps = st₁.maps →
      Kept (comediFreeBoardMinor st₂ minor) := by
    intro st₂ h₂ hb₂ hm₂
    refine (h₂.freeBoard fun d hd => ?_).1
    rw [hb₂] at hd
    cases hb.symm.trans hd
    rw [hm₂.trans hm₁]
    exact h.maps_lt
  dsimp only
  cases kmalloc with
  | false => exact hfree st₁ h₁ rfl rfl
  | true =>
    obtain ⟨h₂, hc⟩ := h₁.attach st.next p
    rw [if_pos rfl]
    split
    · exact hfree _ h₂ hc.boards hc.maps
    · exact h₂

/-- No mapped device belongs to the driver. -/
def OfOthers (st : Kernel) (drv : Nat) : Prop :=
  ∀ m ∈ st.maps, ∀ dev, st.devices m.device = some dev → dev.driver ≠ some drv

theorem Kept.unregisterFrom (h : Kept st) {drv : Nat} (hm : OfOthers st drv) (minor : Nat) :
    Kept (unregisterFrom drv st minor) ∧ OfOthers (unregisterFrom drv st minor) drv := by
  unfold MappedBuffers.unregisterFrom
  split
  · exact ⟨h, hm⟩
  next d dev hx =>
  split
  · next hdrv =>
    obtain ⟨d', -, hd⟩ := Option.bind_eq_some_iff.mp hx
    obtain ⟨dev', hd, he⟩ := Option.map_eq_some_iff.mp hd
    cases he
    have hmaps : ∀ m ∈ st.maps, m.device ≠ d := fun m hmem he =>
      hm m hmem dev (he ▸ hd) hdrv.2
    obtain ⟨h', hc⟩ := h.detach hmaps
    refine ⟨h', fun m hmem => ?_⟩
    rw [hc.maps] at hmem
    rw [hc.others _ (hmaps m hmem)]
    exact hm m hmem
  · exact ⟨h, hm⟩

theorem Kept.driverUnregister (h : Kept st) {drv : Nat} (hm : OfOthers st drv) :
    Kept (comediDriverUnregister st drv) := by
  unfold comediDriverUnregister
  generalize List.range comediNumBoardMinors = minors
  induction minors generalizing st with
  | nil => exact h
  | cons minor minors ih =>
    obtain ⟨h', hm'⟩ := h.unregisterFrom hm minor
    exact ih h' hm'

/-- The count and the limit of an async, and the mappings of it, may change. -/
theorem Inv.recount (h : Inv st) (ha : st.asyncs id = some a) (a' : AsyncObj)
    (hdev : a'.device = a.device) (hidx : a'.index = a.index) (hbuf : a'.buf = a.buf)
    {maps' : List Mapping}
    (hmaps : ∀ m ∈ maps', m ∈ st.maps ∨ m.async = id ∧ m.device = a.device ∧
      a.buf.pages = m.list ∧ m.pages <+: m.list)
    (hcount : a'.mmapCount.toNat = maps'.countP (·.async = id))
    (hother : ∀ id', id' ≠ id → maps'.countP (·.async = id') = st.mappings id') :
    Inv { st with asyncs := Function.update st.asyncs id (some a'), maps := maps' } := by
  have hold : ∀ id₁ a₁, Function.update st.asyncs id (some a') id₁ = some a₁ →
      ∃ a₂, st.asyncs id₁ = some a₂ ∧ a₁.device = a₂.device ∧ a₁.index = a₂.index ∧
        a₁.buf = a₂.buf := by
    intro id₁ a₁ hx
    by_cases he : id₁ = id
    · rw [he, Function.update_self] at hx
      cases hx
      exact ⟨a, he ▸ ha, hdev, hidx, hbuf⟩
    · rw [Function.update_of_ne he] at hx
      exact ⟨a₁, hx, rfl, rfl, rfl⟩
  have hnew : ∀ id₁ a₁, st.asyncs id₁ = some a₁ →
      ∃ a₂, Function.update st.asyncs id (some a') id₁ = some a₂ ∧ a₂.device = a₁.device ∧
        a₂.index = a₁.index ∧ a₂.buf = a₁.buf := by
    intro id₁ a₁ hx
    by_cases he : id₁ = id
    · rw [he] at hx ⊢
      cases ha.symm.trans hx
      exact ⟨a', Function.update_self _ _ _, hdev, hidx, hbuf⟩
    · exact ⟨a₁, (Function.update_of_ne he _ _).trans hx, rfl, rfl, rfl⟩
  refine ⟨?_, h.deviceLt, ?_, ?_, ?_, ?_, ?_, h.freedLt, h.boardOk, h.boardInj, ?_, ?_⟩
  · intro id₁ a₁ hx
    obtain ⟨a₂, h₂, -⟩ := hold id₁ a₁ hx
    exact h.asyncLt id₁ a₂ h₂
  · intro id₁ a₁ hx
    obtain ⟨a₂, h₂, hd, hi, -⟩ := hold id₁ a₁ hx
    rw [hd, hi]
    exact h.owner id₁ a₂ h₂
  · intro d dev k id₁ hd hk
    obtain ⟨a₁, h₁, hd₁, hk₁⟩ := h.owned d dev k id₁ hd hk
    obtain ⟨a₂, h₂, hd₂, hk₂, -⟩ := hnew id₁ a₁ h₁
    exact ⟨a₂, h₂, hd₂.trans hd₁, hk₂.trans hk₁⟩
  · intro id₁ a₁ hx
    obtain ⟨a₂, h₂, -, -, hb⟩ := hold id₁ a₁ hx
    rw [hb]
    exact h.bufOk id₁ a₂ h₂
  · intro id₁ a₁ p hx hp
    obtain ⟨a₂, h₂, -, -, hb⟩ := hold id₁ a₁ hx
    rw [hb] at hp
    exact h.live id₁ a₂ p h₂ hp
  · intro id₁ a₁ id₂ a₂ p hx₁ hx₂ hp₁ hp₂
    obtain ⟨b₁, h₁, -, -, hb₁⟩ := hold id₁ a₁ hx₁
    obtain ⟨b₂, h₂, -, -, hb₂⟩ := hold id₂ a₂ hx₂
    rw [hb₁] at hp₁
    rw [hb₂] at hp₂
    exact h.apart id₁ b₁ id₂ b₂ p h₁ h₂ hp₁ hp₂
  · intro m hm
    rcases hmaps m hm with hm | ⟨he, hd, hl, hp⟩
    · obtain ⟨a₁, h₁, hd₁, hl₁, hp₁⟩ := h.maps m hm
      obtain ⟨a₂, h₂, hd₂, -, hb₂⟩ := hnew _ a₁ h₁
      exact ⟨a₂, h₂, hd₂.trans hd₁, by rw [hb₂, hl₁], hp₁⟩
    · refine ⟨a', ?_, hdev.trans hd.symm, by rw [hbuf, hl], hp⟩
      rw [he]
      exact Function.update_self _ _ _
  · intro id₁ a₁ hx
    by_cases he : id₁ = id
    · rw [he] at hx ⊢
      cases (Function.update_self id (some a') st.asyncs).symm.trans hx
      exact hcount
    · rw [show ({ st with asyncs := Function.update st.asyncs id (some a'), maps := maps' } :
        Kernel).mappings id₁ = st.mappings id₁ from hother id₁ he]
      exact h.count id₁ a₁ ((Function.update_of_ne he _ _).symm.trans hx)

theorem Kept.setMaxBufsize (h : Kept st) (ha : st.asyncs id = some a) (size : U32) :
    Kept (setMaxBufsize st id a size) :=
  ⟨h.toInv.recount ha { a with maxBufsize := size } rfl rfl rfl (fun _ hm => .inl hm)
    (h.count id a ha) (fun _ _ => rfl), h.idle⟩

theorem roundUp_ofNat (n : Nat) : roundUp (BitVec.ofNat 32 (roundUp n)).toNat < 2 ^ 32 := by
  rw [BitVec.toNat_ofNat]
  unfold roundUp pageSize
  omega

theorem Kept.resize (h : Kept st) (ha : st.asyncs id = some a) (s : MapSubdevice) (newSize : U32)
    (o : Allocs) (bufChange : Option Int) :
    Kept (resizeAsyncBuffer st s id a newSize o bufChange).2 := by
  unfold resizeAsyncBuffer
  split
  · exact h
  split
  · exact h
  split
  · exact h
  next hcount =>
  split
  · exact h
  have hmaps : ∀ m ∈ st.maps, m.async ≠ id := by
    intro m hm he
    rw [not_not] at hcount
    have hz := h.count id a ha
    rw [hcount] at hz
    exact List.countP_eq_zero.mp hz.symm m hm (by simpa using he)
  obtain ⟨hinv, hdev, -, -⟩ := h.toInv.reallocBuf hmaps (roundUp_ofNat newSize.toNat) o
  have hk : Kept (MappedBuffers.reallocBuf st id (BitVec.ofNat 32 (roundUp newSize.toNat)).toNat o).2 :=
    ⟨hinv, by intro d dev hx; rw [hdev] at hx; exact h.idle d dev hx⟩
  dsimp only
  split
  · exact hk
  · exact hk

theorem find_some {s : MapSubdevice} (h : st.find d k = some (dev, s, id, a)) :
    st.devices d = some dev ∧ dev.subdevices[k]? = some s ∧ s.async = some id ∧
      st.asyncs id = some a := by
  obtain ⟨dev', hd, h⟩ := Option.bind_eq_some_iff.mp h
  obtain ⟨s', hs, h⟩ := Option.bind_eq_some_iff.mp h
  obtain ⟨id', hid, h⟩ := Option.bind_eq_some_iff.mp h
  obtain ⟨a', ha, h⟩ := Option.bind_eq_some_iff.mp h
  cases h
  exact ⟨hd, hs, hid, ha⟩

theorem Kept.bufconfig (h : Kept st) (d k : Nat) (admin : Bool) (maximumSize size : U32)
    (o : Allocs) (bufChange : Option Int) :
    Kept (doBufconfigIoctl st d k admin maximumSize size o bufChange) := by
  unfold doBufconfigIoctl
  split
  · exact h
  next dev s id a hf =>
  obtain ⟨-, -, -, ha⟩ := find_some hf
  split
  · exact h
  split
  · exact h
  by_cases hmax : maximumSize = 0
  · simp only [hmax, ne_eq, not_true, if_false]
    split
    · exact h.resize ha s size o bufChange
    · exact h
  · simp only [if_pos hmax]
    have h' := h.setMaxBufsize ha maximumSize
    split
    · exact h'.resize (Function.update_self _ _ _) s size o bufChange
    · exact h'

theorem Kept.storeAttribute (h : Kept st) {info : FileInfo} {write : Bool} {kb : Nat}
    {f : MapSubdevice → Nat → AsyncObj → U32 → Kernel}
    (hf : ∀ s id a size, st.asyncs id = some a → Kept (f s id a size)) :
    Kept (storeAttribute st d info write kb f) := by
  unfold MappedBuffers.storeAttribute
  split
  · exact h
  split
  · exact h
  · next dev s id a hx =>
    obtain ⟨dev', -, hx⟩ := Option.bind_eq_some_iff.mp hx
    obtain ⟨k, -, hx⟩ := Option.bind_eq_some_iff.mp hx
    exact hf s id a _ (find_some hx).2.2.2

theorem Kept.mmap (h : Kept st) (hlt : st.maps.length + 1 < 2 ^ 32) (d : Nat) (info : FileInfo)
    (write : Bool) (size pgoff : Nat) (failAt : Option Nat) :
    Kept (comediMmap st d info write size pgoff failAt).2 := by
  unfold comediMmap
  split
  · exact h
  next dev hd =>
  split
  · exact h
  dsimp only
  split
  · exact h
  next dev' s id a hx =>
  obtain ⟨k, -, hx⟩ := Option.bind_eq_some_iff.mp hx
  obtain ⟨hd', hs, hid, ha⟩ := find_some hx
  split
  · exact h
  split
  · exact h
  split
  · exact h
  split
  · exact h
  obtain ⟨a', ha', had, -⟩ := h.owned d dev' k id hd' (by rw [MapDevice.asyncAt, hs]; exact hid)
  cases ha.symm.trans ha'
  have hle : st.mappings id ≤ st.maps.length := List.countP_le_length
  have hc := h.count id a ha
  refine ⟨h.toInv.recount ha { a with mmapCount := a.mmapCount + 1 } rfl rfl rfl ?_ ?_ ?_,
    h.idle⟩
  · intro m hm
    rcases List.mem_append.mp hm with hm | hm
    · exact .inl hm
    · rw [List.mem_singleton.mp hm]
      exact .inr ⟨rfl, had.symm, rfl, List.take_prefix _ _⟩
  · have h1 : (1 : U32).toNat = 1 := rfl
    rw [List.countP_append, List.countP_singleton, if_pos (by simp)]
    change (a.mmapCount + 1).toNat = st.mappings id + 1
    rw [BitVec.toNat_add, h1, hc, Nat.mod_eq_of_lt (by omega)]
  · intro id' hne
    rw [List.countP_append, List.countP_singleton, if_neg (by simpa using Ne.symm hne)]
    rfl

theorem Kept.copyMapping (h : Kept st) (hlt : st.maps.length + 1 < 2 ^ 32) {m : Mapping}
    (hm : m ∈ st.maps) : Kept { comediVmOpen st m with maps := st.maps ++ [m] } := by
  obtain ⟨a, ha, had, hl, hp⟩ := h.maps m hm
  have hle : st.mappings m.async ≤ st.maps.length := List.countP_le_length
  have hc := h.count _ a ha
  unfold comediVmOpen addMmapCount
  rw [ha]
  refine ⟨h.toInv.recount ha { a with mmapCount := a.mmapCount + 1 } rfl rfl rfl ?_ ?_ ?_,
    h.idle⟩
  · intro m' hm'
    rcases List.mem_append.mp hm' with hm' | hm'
    · exact .inl hm'
    · rw [List.mem_singleton.mp hm']
      exact .inl hm
  · have h1 : (1 : U32).toNat = 1 := rfl
    rw [List.countP_append, List.countP_singleton, if_pos (by simp)]
    change (a.mmapCount + 1).toNat = st.mappings m.async + 1
    rw [BitVec.toNat_add, h1, hc, Nat.mod_eq_of_lt (by omega)]
  · intro id' hne
    rw [List.countP_append, List.countP_singleton, if_neg (by simpa using Ne.symm hne)]
    rfl

theorem countP_eraseIdx {β : Type} (q : β → Bool) {l : List β} {i : Nat} {x : β} (hx : l[i]? = some x) :
    (l.eraseIdx i).countP q = l.countP q - if q x then 1 else 0 := by
  obtain ⟨hi, rfl⟩ := List.getElem?_eq_some_iff.mp hx
  have hsplit : l = l.take i ++ l[i] :: l.drop (i + 1) := by
    rw [List.getElem_cons_drop, List.take_append_drop]
  have hc : l.countP q = (l.take i).countP q + ((if q l[i] then 1 else 0) + (l.drop (i + 1)).countP q) := by
    conv => lhs; rw [hsplit, List.countP_append, List.countP_cons]
    rw [Nat.add_comm (List.countP q (List.drop (i + 1) l))]
  rw [List.eraseIdx_eq_take_drop_succ, List.countP_append, hc]
  omega

theorem Kept.removeMapping (h : Kept st) {i : Nat} {m : Mapping} (hi : st.maps[i]? = some m) :
    Kept { comediVmClose st m with maps := st.maps.eraseIdx i } := by
  have hm : m ∈ st.maps := List.mem_of_getElem? hi
  obtain ⟨a, ha, had, hl, hp⟩ := h.maps m hm
  have hc := h.count _ a ha
  have hpos : 0 < st.mappings m.async :=
    List.countP_pos_iff.mpr ⟨m, hm, by simp⟩
  unfold comediVmClose addMmapCount
  rw [ha]
  refine ⟨h.toInv.recount ha { a with mmapCount := a.mmapCount + -1 } rfl rfl rfl ?_ ?_ ?_,
    h.idle⟩
  · exact fun m' hm' => .inl (List.mem_of_mem_eraseIdx hm')
  · rw [countP_eraseIdx _ hi, if_pos (by simp)]
    change (a.mmapCount + -1).toNat = st.mappings m.async - 1
    have h1 : (-1 : U32).toNat = 2 ^ 32 - 1 := rfl
    have := a.mmapCount.isLt
    rw [BitVec.toNat_add, h1]
    omega
  · intro id' hne
    rw [countP_eraseIdx _ hi, if_neg (by simpa using Ne.symm hne)]
    rfl

theorem Kept.setBusy (h : Kept st) (d k : Nat) (busy : Bool) :
    Kept (mapStep st (.setBusy d k busy)) := by
  cases hd : st.devices d with
  | none =>
    have he : Function.update st.devices d none = st.devices := by
      rw [← hd, Function.update_eq_self]
    simp only [mapStep, hd, Option.map_none, he]
    exact h
  | some dev =>
    let dev' : MapDevice :=
      { dev with subdevices := dev.subdevices.modify k fun s => { s with busy := busy } }
    have hat : ∀ j, dev'.asyncAt j = dev.asyncAt j := by
      intro j
      change (dev.subdevices.modify k fun s => { s with busy := busy })[j]?.bind (·.async) = _
      rw [List.getElem?_modify, MapDevice.asyncAt]
      cases dev.subdevices[j]? with
      | none => rfl
      | some s =>
        by_cases he : k = j
        · simp [he]
        · simp [he]
    have hst : mapStep st (.setBusy d k busy) = st.setDevice d dev' := by
      simp only [mapStep, hd, Option.map_some]
      rfl
    rw [hst]
    refine ⟨h.toInv.update hd hat, fun d' dev₁ hx hatt j => ?_⟩
    by_cases he : d' = d
    · rw [he, setDevice_self] at hx
      cases hx
      rw [hat]
      exact h.idle d dev hd hatt j
    · rw [setDevice_of_ne he] at hx
      exact h.idle d' dev₁ hx hatt j

/-- A device that is not busy is not mapped. -/
theorem Kept.unmapped_of_idle_device (h : Kept st) (hd : st.devices d = some dev)
    (hatt : dev.attached = true) (hbusy : isDeviceBusy st dev = false) :
    ∀ m ∈ st.maps, m.device ≠ d := by
  intro m hm he
  obtain ⟨a, ha, had, -⟩ := h.maps m hm
  obtain ⟨dev', hdev', hk⟩ := h.owner _ a ha
  rw [had, he, hd] at hdev'
  cases hdev'
  obtain ⟨s, hs, hid⟩ := Option.bind_eq_some_iff.mp hk
  rw [isDeviceBusy, hatt, Bool.true_and] at hbusy
  have hsub := List.any_eq_false.mp hbusy s (List.mem_of_getElem? hs)
  have hcount : a.mmapCount = 0 := by
    rw [hid, Option.bind_some, ha] at hsub
    simp only [Option.any_some, Bool.or_eq_true, decide_eq_true_eq, not_or, not_not] at hsub
    exact hsub.2
  have hz := h.count _ a ha
  rw [hcount] at hz
  exact List.countP_eq_zero.mp hz.symm m hm (by simp)

theorem Kept.devconfigAttach (h : Kept st) (d : Nat) (p : Attach) (moduleGet : Bool) :
    Kept (mapStep st (.devconfigAttach d p moduleGet)) := by
  obtain ⟨h', hc⟩ := h.attach d p
  have hfail : (comediDeviceAttach st d p).1 = 0 → ∀ m ∈ st.maps, m.device ≠ d := by
    intro hz
    unfold comediDeviceAttach at hz
    cases hd : st.devices d with
    | none =>
      rw [hd] at hz
      change -enodev = 0 at hz
      exact absurd hz (by decide)
    | some dev =>
      rw [hd] at hz
      dsimp only at hz
      split at hz
      · change -ebusy = 0 at hz
        exact absurd hz (by decide)
      · next hatt => exact h.unmapped hd (by simpa using hatt)
  simp only [mapStep]
  generalize comediDeviceAttach st d p = r at h' hc hfail
  split
  · next hx => exact (h'.detach fun m hm => hfail hx.1 m (hc.maps ▸ hm)).1
  · exact h'

theorem mapStep_kept (h : Kept st) {x : MapStep} (hx : Undisturbed st x) : Kept (mapStep st x) := by
  cases x with
  | allocBoard sysfs => exact (h.allocBoard sysfs).1
  | devconfigAttach d p moduleGet => exact h.devconfigAttach d p moduleGet
  | devconfigDetach d =>
    simp only [mapStep]
    split
    · exact h
    next dev hd =>
    split
    · exact h
    · next hbusy =>
      cases hatt : dev.attached with
      | false =>
        rw [comediDeviceDetach, hd]
        simpa only [hatt, Bool.false_eq_true, if_false] using h
      | true =>
        exact (h.detach (h.unmapped_of_idle_device hd hatt (by simpa using hbusy))).1
  | autoConfig sysfs kmalloc p => exact h.autoConfig sysfs kmalloc p
  | autoUnconfig minor => exact (h.freeBoard hx).1
  | driverUnregister drv => exact h.driverUnregister hx
  | bufconfig d k admin maximumSize size o bufChange =>
    exact h.bufconfig d k admin maximumSize size o bufChange
  | storeBufferKb d info write kb o bufChange =>
    exact h.storeAttribute fun s id a size ha => h.resize ha s size o bufChange
  | storeMaxBufferKb d info write kb =>
    exact h.storeAttribute fun s id a size ha => h.setMaxBufsize ha size
  | mmap d info write size pgoff failAt => exact h.mmap hx d info write size pgoff failAt
  | copyMapping i =>
    simp only [mapStep]
    split
    · exact h
    · next m hi => exact h.copyMapping hx (List.mem_of_getElem? hi)
  | removeMapping i =>
    simp only [mapStep]
    split
    · exact h
    · next m hi => exact h.removeMapping hi
  | setBusy d k busy => exact h.setBusy d k busy

theorem Kept.start : Kept {} :=
  ⟨⟨nofun, nofun, nofun, nofun, nofun, nofun, nofun, nofun, nofun, nofun, nofun, nofun⟩, nofun⟩

/-- `mapStep` as a step that never faults. -/
def mapRun (st : Kernel) (x : MapStep) : Except Empty Kernel := .ok (mapStep st x)

/-- As long as no device is unplugged and no driver is unregistered under a mapping, every
`mmap_count` is right, and what is mapped stays where it is. -/
theorem maps_stay_alive {steps : List MapStep} (hfit : AllFit mapRun Undisturbed {} steps)
    (hrun : GuardedRuns.run mapRun {} steps = .ok st) : MapsAlive st := by
  have h := run_keeps Kept (fun st x st' h hx he => by
    cases he
    exact mapStep_kept h hx) Kept.start hfit hrun
  exact h.mapsAlive

/-- A device with one input subdevice. -/
def sampled : Attach where
  subdevices := [{}]
  readSubdev := some 0

/-- The device is configured, mapped and unplugged. -/
def unplugged : List MapStep :=
  [.autoConfig true true sampled, .mmap 0 boardFile false 4096 0 none, .autoUnconfig 0]

/-- A mapping is copied, the original is removed, and the device stays as long as the copy. -/
def copied : List MapStep :=
  [.autoConfig true true sampled, .mmap 0 boardFile false 4096 0 none, .copyMapping 0,
    .removeMapping 0, .devconfigDetach 0]

def mapped (steps : List MapStep) : Kernel := steps.foldl mapStep {}

theorem maps_of_copy : (mapped copied).maps.length = 1 ∧ MapsAlive (mapped copied) := by
  have hfit : AllFit mapRun Undisturbed {} copied :=
    .cons trivial rfl (.cons (show 0 + 1 < 2 ^ 32 by decide) rfl
      (.cons (show 1 + 1 < 2 ^ 32 by decide) rfl (.cons trivial rfl (.cons trivial rfl trivial))))
  exact ⟨rfl, maps_stay_alive hfit rfl⟩

/-- After the device is unplugged or its driver unregistered, the mapping is still there and what
it points to is not. -/
theorem unplug_frees_mapped :
    ((mapped unplugged).maps.length = 1 ∧ ¬ MapsAlive (mapped unplugged)) ∧
      ¬ MapsAlive (mapped [.autoConfig true true sampled, .mmap 0 boardFile false 4096 0 none,
        .driverUnregister 0]) := by
  have hgone : ∀ (st : Kernel) (m : Mapping), st.maps[0]? = some m → st.asyncs m.async = none →
      ¬ MapsAlive st := by
    intro st m hm hnone h
    obtain ⟨a, dev, ha, -⟩ := h.alive m (List.mem_of_getElem? hm)
    rw [hnone] at ha
    cases ha
  exact ⟨⟨rfl, hgone _ ⟨1, 0, [0], List.range 16⟩ rfl rfl⟩,
    hgone _ ⟨1, 0, [0], List.range 16⟩ rfl rfl⟩

end Comedi.MappedBuffers
