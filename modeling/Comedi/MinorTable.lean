import Comedi.DataModel
import Comedi.GuardedRuns
import Comedi.Tables
import Mathlib.Data.List.Nodup

namespace Comedi.MinorTable

open GuardedRuns Tables

def comediNumMinors : Nat := 0x100
def comediNumBoardMinors : Nat := 0x30
def comediFirstSubdeviceMinor : Nat := comediNumBoardMinors

/-- A `comedi_device_file_info`, by the number of its allocation. -/
structure Info where
  id : Nat
  device : Nat
  readSubdevice : Option Nat := none
  writeSubdevice : Option Nat := none
  deriving DecidableEq, Repr

/-- Where `comedi_device_attach` is with a device: nothing is attached, `postconfig` is at a
subdevice, or the device is attached. -/
inductive Phase where
  | idle
  | configuring (k : Nat)
  | attached
  deriving DecidableEq, Repr

structure TableDevice where
  minor : Int := -1
  phase : Phase := .idle
  subdevices : List Nat := []
  deriving DecidableEq, Repr

structure TableSubdevice where
  device : Nat
  minor : Int := -1
  deriving DecidableEq, Repr

/-- `comedi_file_info_table` with the devices and subdevices that are allocated. In `freeing` are
the devices that `comedi_free_board_minor` has taken out of the table and not freed yet, and in
`frees` the entries that were freed, each with the subdevice it was freed for. -/
structure Minors where
  next : Nat := 0
  table : Nat → Option Info := fun _ => none
  devices : Nat → Option TableDevice := fun _ => none
  subs : Nat → Option TableSubdevice := fun _ => none
  freeing : List Nat := []
  frees : List (Option Nat × Info) := []

/-- The entry is replaced by `NULL`, and what it pointed to is freed. -/
def Minors.remove (st : Minors) (who : Option Nat) (i : Nat) : Minors :=
  { st with
    table := Function.update st.table i none
    frees := ((st.table i).toList.map fun info => (who, info)) ++ st.frees }

def comediFreeSubdeviceMinor (st : Minors) (sid : Nat) : Minors :=
  match st.subs sid with
  | none => st
  | some s => if s.minor < 0 then st else st.remove (some sid) s.minor.toNat

def Minors.setSub (st : Minors) (sid : Nat) (s : TableSubdevice) : Minors :=
  { st with subs := Function.update st.subs sid (some s) }

def Minors.setDevice (st : Minors) (d : Nat) (dev : TableDevice) : Minors :=
  { st with devices := Function.update st.devices d (some dev) }

/-- A new entry. -/
def Minors.insert (st : Minors) (i d : Nat) (sid : Option Nat) : Minors :=
  { st with
    next := st.next + 1
    table := Function.update st.table i (some ⟨st.next, d, sid, sid⟩) }

/-- `retval` is the error of the first attribute that cannot be created, or 0. -/
def comediAllocSubdeviceMinor (st : Minors) (sid : Nat) (s : TableSubdevice) (kmalloc : Bool)
    (retval : Int) : Int × Minors :=
  if ¬ kmalloc then (-enomem, st)
  else
    match firstFree st.table comediFirstSubdeviceMinor comediNumMinors with
    | none => (-ebusy, st)
    | some i =>
      let st := (st.insert i s.device (some sid)).setSub sid { s with minor := i }
      if retval ≠ 0 then (retval, comediFreeSubdeviceMinor st sid) else (i, st)

def cleanupDevice (st : Minors) (d : Nat) : Minors :=
  match st.devices d with
  | none => st
  | some dev =>
    let st := dev.subdevices.foldl comediFreeSubdeviceMinor st
    { st with
      subs := fun sid => if sid ∈ dev.subdevices then none else st.subs sid
      devices := Function.update st.devices d
        (some { dev with phase := .idle, subdevices := [] }) }

/-- `alloc_subdevices`, called by the `attach` of the driver. -/
def allocSubdevices (st : Minors) (d n : Nat) (dev : TableDevice) : Minors :=
  { st with
    next := st.next + n
    subs := fun sid => if st.next ≤ sid ∧ sid < st.next + n then some ⟨d, -1⟩ else st.subs sid
    devices := Function.update st.devices d
      (some { dev with phase := .configuring 0, subdevices := List.range' st.next n }) }

/-- What `postconfig` finds in a subdevice, and what the calls it makes for it return. -/
structure PostconfigTurn where
  unused : Bool := false
  doCmd : Bool := true
  kzalloc : Bool := true
  bufAlloc : Int := 0
  bufChange : Option Int := none
  kmalloc : Bool := true
  retval : Int := 0

/-- One turn of the loop of `postconfig`, which does not look at what `comedi_alloc_subdevice_minor`
returns. -/
def postconfigTurn (st : Minors) (sid : Nat) (s : TableSubdevice) (t : PostconfigTurn) :
    Int × Minors :=
  if t.unused ∨ ¬ t.doCmd then (0, st)
  else if ¬ t.kzalloc ∨ t.bufAlloc < 0 then (-enomem, st)
  else if t.bufChange.any (· < 0) then (t.bufChange.getD 0, st)
  else (0, (comediAllocSubdeviceMinor st sid s t.kmalloc t.retval).2)

def comediDeviceCleanup (st : Minors) (d : Nat) : Minors :=
  match st.devices d with
  | none => st
  | some dev => if dev.phase = .attached then cleanupDevice st d else st

/-- The part of `comedi_free_board_minor` on the table. -/
def comediFreeBoardMinor (st : Minors) (i : Nat) : Minors :=
  match st.table i with
  | none => st
  | some info => { st.remove none i with freeing := info.device :: st.freeing }

/-- The rest of it, under the mutex of the device. -/
def freeDevice (st : Minors) (d : Nat) : Minors :=
  let st := comediDeviceCleanup st d
  { st with
    devices := Function.update st.devices d none
    freeing := st.freeing.filter (· ≠ d) }

def comediAllocBoardMinor (st : Minors) (kzalloc : Bool) (retval : Int) : Int × Minors :=
  if ¬ kzalloc then (-enomem, st)
  else
    match firstFree st.table 0 comediNumBoardMinors with
    | none => (-ebusy, st)
    | some i =>
      let d := st.next
      let st := ({ st with next := d + 1 }.setDevice d { minor := i }).insert i d none
      if retval ≠ 0 then (retval, freeDevice (comediFreeBoardMinor st i) d) else (i, st)

/-- The steps of the callers. A device is attached in several of them, `attach`, a `turn` for each
subdevice and `attached`, and a `cleanup` when it fails or is detached. -/
inductive MinorStep where
  | allocBoardMinor (kzalloc : Bool) (retval : Int)
  | freeBoardMinor (i : Nat)
  | freeDevice (d : Nat)
  | attach (d n : Nat)
  | turn (d : Nat) (t : PostconfigTurn)
  | attached (d : Nat)
  | cleanup (d : Nat)

def minorStep (st : Minors) : MinorStep → Minors
  | .allocBoardMinor kzalloc retval => (comediAllocBoardMinor st kzalloc retval).2
  | .freeBoardMinor i => if i < comediNumBoardMinors then comediFreeBoardMinor st i else st
  | .freeDevice d =>
    match st.devices d with
    | none => st
    | some dev =>
      match dev.phase with
      | .configuring _ => st
      | _ => if d ∈ st.freeing then freeDevice st d else st
  | .attach d n =>
    match st.devices d with
    | none => st
    | some dev => if dev.phase = .idle then allocSubdevices st d n dev else st
  | .turn d t =>
    match st.devices d with
    | none => st
    | some dev =>
      match dev.phase with
      | .configuring k =>
        match dev.subdevices[k]?.bind fun sid => (st.subs sid).map (sid, ·) with
        | none => st
        | some (sid, s) =>
          let st := st.setDevice d { dev with phase := .configuring (k + 1) }
          let (ret, st) := postconfigTurn st sid s t
          if ret < 0 then cleanupDevice st d else st
      | _ => st
  | .attached d =>
    match st.devices d with
    | none => st
    | some dev =>
      if dev.phase = .configuring dev.subdevices.length
      then st.setDevice d { dev with phase := .attached } else st
  | .cleanup d =>
    match st.devices d with
    | none => st
    | some dev => if dev.phase = .idle then st else cleanupDevice st d

/-- Every entry of the table is that of one board or of one subdevice that has its number as
minor; what is freed is freed once, and for the subdevice it is of. -/
structure MinorsOwned (st : Minors) : Prop where
  owner : ∀ i info, st.table i = some info →
    (i < comediNumBoardMinors ∧ info.readSubdevice = none ∧
      ∃ dev, st.devices info.device = some dev ∧ dev.minor = i) ∨
    (comediFirstSubdeviceMinor ≤ i ∧ i < comediNumMinors ∧
      ∃ sid s dev, info.readSubdevice = some sid ∧ st.subs sid = some s ∧ s.minor = i ∧
        s.device = info.device ∧ st.devices info.device = some dev ∧ sid ∈ dev.subdevices)
  apart : ∀ i j x y, st.table i = some x → st.table j = some y → x.device = y.device →
    x.readSubdevice = y.readSubdevice → i = j
  freedOwn : ∀ f ∈ st.frees, f.2.readSubdevice = f.1
  freedOnce : (st.frees.map (·.2.id)).Nodup
  freedGone : ∀ f ∈ st.frees, ∀ i info, st.table i = some info → info.id ≠ f.2.id

def PostconfigTurn.allocates (t : PostconfigTurn) : Bool :=
  !t.unused && t.doCmd && t.kzalloc && 0 ≤ t.bufAlloc && !t.bufChange.any (· < 0) && t.kmalloc

/-- No subdevice is given a minor that another one still has from an entry that was freed. -/
def Unrecorded (st : Minors) : MinorStep → Prop
  | .turn _ t => t.allocates = true → ∀ i,
      firstFree st.table comediFirstSubdeviceMinor comediNumMinors = some i →
      ∀ sid s, st.subs sid = some s → s.minor ≠ i
  | _ => True

/-- Every `comedi_device_file_info` is in the table once or freed once. -/
structure Ledger (st : Minors) : Prop where
  lt : ∀ i x, st.table i = some x → x.id < st.next
  inj : ∀ i j x y, st.table i = some x → st.table j = some y → x.id = y.id → i = j
  freedLt : ∀ f ∈ st.frees, f.2.id < st.next
  gone : ∀ f ∈ st.frees, ∀ i x, st.table i = some x → x.id ≠ f.2.id
  once : (st.frees.map (·.2.id)).Nodup
  own : ∀ f ∈ st.frees, f.2.readSubdevice = f.1

/-- Who the entries belong to; the minors that the subdevices have are different, whether their
entries are there or not. -/
structure Owners (st : Minors) : Prop where
  boards : ∀ i x, st.table i = some x → x.readSubdevice = none → i < comediNumBoardMinors ∧
    x.device ∉ st.freeing ∧ ∃ dev, st.devices x.device = some dev ∧ dev.minor = i
  entries : ∀ i x sid, st.table i = some x → x.readSubdevice = some sid →
    comediFirstSubdeviceMinor ≤ i ∧ i < comediNumMinors ∧
      ∃ s, st.subs sid = some s ∧ s.minor = i ∧ s.device = x.device
  subs : ∀ sid s, st.subs sid = some s → sid < st.next ∧
    ∃ dev, st.devices s.device = some dev ∧ sid ∈ dev.subdevices
  devices : ∀ d dev, st.devices d = some dev → d < st.next ∧ dev.subdevices.Nodup ∧
    ∀ sid ∈ dev.subdevices, ∃ s, st.subs sid = some s ∧ s.device = d
  range : ∀ sid s, st.subs sid = some s → 0 ≤ s.minor → (comediFirstSubdeviceMinor : Int) ≤ s.minor
  distinct : ∀ sid sid' s s', st.subs sid = some s → st.subs sid' = some s' → 0 ≤ s.minor →
    s.minor = s'.minor → sid = sid'
  idle : ∀ d dev, st.devices d = some dev → dev.phase = .idle → dev.subdevices = []
  fresh : ∀ d dev k j sid s, st.devices d = some dev → dev.phase = .configuring k → k ≤ j →
    dev.subdevices[j]? = some sid → st.subs sid = some s → s.minor < 0
  freeingLt : ∀ d ∈ st.freeing, d < st.next

structure Kept (st : Minors) : Prop where
  ledger : Ledger st
  owners : Owners st

variable {st st' : Minors} {d i n sid : Nat} {dev : TableDevice} {s : TableSubdevice}

theorem Kept.minorsOwned (h : Kept st) : MinorsOwned st where
  owner i x hx := by
    cases hr : x.readSubdevice with
    | none =>
      obtain ⟨hlt, -, hdev⟩ := h.owners.boards i x hx hr
      exact .inl ⟨hlt, rfl, hdev⟩
    | some sid =>
      obtain ⟨hlo, hhi, s, hs, hm, hd⟩ := h.owners.entries i x sid hx hr
      obtain ⟨-, dev, hdev, hmem⟩ := h.owners.subs sid s hs
      exact .inr ⟨hlo, hhi, sid, s, dev, rfl, hs, hm, hd, hd ▸ hdev, hmem⟩
  apart i j x y hx hy hd hr := by
    cases hrx : x.readSubdevice with
    | none =>
      obtain ⟨-, -, dev, hdev, hm⟩ := h.owners.boards i x hx hrx
      obtain ⟨-, -, dev', hdev', hm'⟩ := h.owners.boards j y hy (hr.symm.trans hrx)
      rw [← hd, hdev] at hdev'
      cases hdev'
      exact_mod_cast hm.symm.trans hm'
    | some sid =>
      obtain ⟨-, -, s, hs, hm, -⟩ := h.owners.entries i x sid hx hrx
      obtain ⟨-, -, s', hs', hm', -⟩ := h.owners.entries j y sid hy (hr.symm.trans hrx)
      cases hs.symm.trans hs'
      exact_mod_cast hm.symm.trans hm'
  freedOwn := h.ledger.own
  freedOnce := h.ledger.once
  freedGone := h.ledger.gone

theorem Ledger.congr (h : Ledger st) (ht : st'.table = st.table) (hf : st'.frees = st.frees)
    (hn : st.next ≤ st'.next) : Ledger st' where
  lt i x hx := lt_of_lt_of_le (h.lt i x (ht ▸ hx)) hn
  inj i j x y hx hy he := h.inj i j x y (ht ▸ hx) (ht ▸ hy) he
  freedLt f hmem := lt_of_lt_of_le (h.freedLt f (hf ▸ hmem)) hn
  gone f hmem i x hx := h.gone f (hf ▸ hmem) i x (ht ▸ hx)
  once := hf ▸ h.once
  own f hmem := h.own f (hf ▸ hmem)

theorem Ledger.insert (h : Ledger st) (i d : Nat) (sid : Option Nat) :
    Ledger (st.insert i d sid) where
  lt j x hx := by
    rcases update_some_eq.mp hx with ⟨-, rfl⟩ | ⟨-, hx⟩
    · exact Nat.lt_succ_self _
    · exact Nat.lt_succ_of_lt (h.lt j x hx)
  inj j j' x y hx hy he := by
    rcases update_some_eq.mp hx with ⟨hj, rfl⟩ | ⟨-, hx⟩
    · rcases update_some_eq.mp hy with ⟨hj', -⟩ | ⟨-, hy⟩
      · rw [hj, hj']
      · exact absurd he (h.lt j' y hy).ne'
    · rcases update_some_eq.mp hy with ⟨-, rfl⟩ | ⟨-, hy⟩
      · exact absurd he (h.lt j x hx).ne
      · exact h.inj j j' x y hx hy he
  freedLt f hmem := Nat.lt_succ_of_lt (h.freedLt f hmem)
  gone f hmem j x hx := by
    rcases update_some_eq.mp hx with ⟨-, rfl⟩ | ⟨-, hx⟩
    · exact (h.freedLt f hmem).ne'
    · exact h.gone f hmem j x hx
  once := h.once
  own := h.own

/-- An entry may be removed for the subdevice it is of. -/
theorem Ledger.remove (h : Ledger st) {who : Option Nat} {i : Nat}
    (hown : ∀ x, st.table i = some x → x.readSubdevice = who) : Ledger (st.remove who i) := by
  have hmem : ∀ f ∈ (st.remove who i).frees, f ∈ st.frees ∨
      ∃ x, st.table i = some x ∧ f = (who, x) := by
    intro f hf
    rcases List.mem_append.mp hf with hf | hf
    · obtain ⟨x, hx, rfl⟩ := List.mem_map.mp hf
      exact .inr ⟨x, Option.mem_toList.mp hx, rfl⟩
    · exact .inl hf
  refine ⟨?_, ?_, ?_, ?_, ?_, ?_⟩
  · intro j x hx
    exact h.lt j x (update_none_eq.mp hx).2
  · intro j j' x y hx hy
    exact h.inj j j' x y (update_none_eq.mp hx).2 (update_none_eq.mp hy).2
  · intro f hf
    rcases hmem f hf with hf | ⟨x, hx, rfl⟩
    · exact h.freedLt f hf
    · exact h.lt i x hx
  · intro f hf j y hy
    obtain ⟨hne, hy⟩ := update_none_eq.mp hy
    rcases hmem f hf with hf | ⟨x, hx, rfl⟩
    · exact h.gone f hf j y hy
    · exact fun he => hne (h.inj j i y x hy hx he)
  · cases hx : st.table i with
    | none =>
      have hf : (st.remove who i).frees = st.frees := by
        simp only [Minors.remove, hx]
        rfl
      rw [hf]
      exact h.once
    | some x =>
      have hf : (st.remove who i).frees = (who, x) :: st.frees := by
        simp only [Minors.remove, hx]
        rfl
      rw [hf, List.map_cons, List.nodup_cons]
      refine ⟨?_, h.once⟩
      rw [List.mem_map]
      rintro ⟨f, hmem, he⟩
      exact h.gone f hmem i x hx he.symm
  · intro f hf
    rcases hmem f hf with hf | ⟨x, hx, rfl⟩
    · exact h.own f hf
    · exact hown x hx

/-- With fewer entries, and fewer devices on their way out. -/
theorem Owners.mono (h : Owners st) (ht : ∀ i x, st'.table i = some x → st.table i = some x)
    (hs : st'.subs = st.subs) (hd : st'.devices = st.devices) (hn : st'.next = st.next)
    (hf : st'.freeing = st.freeing) : Owners st' where
  boards i x hx hr := by
    rw [hf, hd]
    exact h.boards i x (ht i x hx) hr
  entries i x sid hx hr := by
    rw [hs]
    exact h.entries i x sid (ht i x hx) hr
  subs sid s hx := by
    rw [hn, hd]
    exact h.subs sid s (hs ▸ hx)
  devices d dev hx := by
    rw [hn, hs]
    exact h.devices d dev (hd ▸ hx)
  range sid s hx := h.range sid s (hs ▸ hx)
  distinct sid sid' s s' hx hx' := h.distinct sid sid' s s' (hs ▸ hx) (hs ▸ hx')
  idle d dev hx := h.idle d dev (hd ▸ hx)
  fresh d dev k j sid s hx hp hk hj hsub := h.fresh d dev k j sid s (hd ▸ hx) hp hk hj (hs ▸ hsub)
  freeingLt d hmem := hn ▸ h.freeingLt d (hf ▸ hmem)

/-- What is in the table under the minor of a subdevice is the entry of that subdevice. -/
theorem Owners.entry_of_sub (h : Owners st) (hs : st.subs sid = some s) (hpos : 0 ≤ s.minor)
    {x : Info} (hx : st.table s.minor.toNat = some x) : x.readSubdevice = some sid := by
  have hrange := h.range sid s hs hpos
  cases hr : x.readSubdevice with
  | none =>
    obtain ⟨hlt, -⟩ := h.boards _ x hx hr
    change s.minor.toNat < comediFirstSubdeviceMinor at hlt
    omega
  | some sid' =>
    obtain ⟨-, -, s', hs', hm, -⟩ := h.entries _ x sid' hx hr
    rw [h.distinct sid sid' s s' hs hs' hpos (by omega)]

/-- What `comedi_free_subdevice_minor` leaves as it is. -/
structure Trimmed (st st' : Minors) : Prop where
  table : ∀ i x, st'.table i = some x → st.table i = some x
  subs : st'.subs = st.subs
  devices : st'.devices = st.devices
  next : st'.next = st.next
  freeing : st'.freeing = st.freeing

theorem Kept.freeSubdeviceMinor (h : Kept st) (sid : Nat) :
    Kept (comediFreeSubdeviceMinor st sid) ∧ Trimmed st (comediFreeSubdeviceMinor st sid) ∧
      ∀ i x, (comediFreeSubdeviceMinor st sid).table i = some x → x.readSubdevice ≠ some sid := by
  unfold comediFreeSubdeviceMinor
  cases hs : st.subs sid with
  | none =>
    refine ⟨h, ⟨fun _ _ hx => hx, rfl, rfl, rfl, rfl⟩, fun i x hx hr => ?_⟩
    obtain ⟨-, -, s, hs', -⟩ := h.owners.entries i x sid hx hr
    cases hs.symm.trans hs'
  | some s =>
    dsimp only
    split
    · next hneg =>
      refine ⟨h, ⟨fun _ _ hx => hx, rfl, rfl, rfl, rfl⟩, fun i x hx hr => ?_⟩
      obtain ⟨-, -, s', hs', hm, -⟩ := h.owners.entries i x sid hx hr
      cases hs.symm.trans hs'
      omega
    · next hpos =>
      have htrim : Trimmed st (st.remove (some sid) s.minor.toNat) :=
        ⟨fun i x hx => (update_none_eq.mp hx).2, rfl, rfl, rfl, rfl⟩
      refine ⟨⟨h.ledger.remove fun x hx => h.owners.entry_of_sub hs (not_lt.mp hpos) hx,
        h.owners.mono htrim.table rfl rfl rfl rfl⟩, htrim, fun i x hx hr => ?_⟩
      obtain ⟨hne, hx⟩ := update_none_eq.mp hx
      obtain ⟨-, -, s', hs', hm, -⟩ := h.owners.entries i x sid hx hr
      cases hs.symm.trans hs'
      omega

theorem Trimmed.trans {st₁ : Minors} (h : Trimmed st st₁) (h' : Trimmed st₁ st') :
    Trimmed st st' where
  table i x hx := h.table i x (h'.table i x hx)
  subs := h'.subs.trans h.subs
  devices := h'.devices.trans h.devices
  next := h'.next.trans h.next
  freeing := h'.freeing.trans h.freeing

theorem Kept.freeSubdeviceMinors (h : Kept st) (sids : List Nat) :
    Kept (sids.foldl comediFreeSubdeviceMinor st) ∧
      Trimmed st (sids.foldl comediFreeSubdeviceMinor st) ∧
      ∀ sid ∈ sids, ∀ i x, (sids.foldl comediFreeSubdeviceMinor st).table i = some x →
        x.readSubdevice ≠ some sid := by
  induction sids generalizing st with
  | nil => exact ⟨h, ⟨fun _ _ hx => hx, rfl, rfl, rfl, rfl⟩, nofun⟩
  | cons sid sids ih =>
    obtain ⟨h₁, htrim, hgone⟩ := h.freeSubdeviceMinor sid
    obtain ⟨h₂, htrim', hgone'⟩ := ih h₁
    rw [List.foldl_cons]
    refine ⟨h₂, htrim.trans htrim', fun sid' hmem => ?_⟩
    rcases List.mem_cons.mp hmem with rfl | hmem
    · exact fun i x hx => hgone i x (htrim'.table i x hx)
    · exact hgone' sid' hmem

/-- A device that is cleaned up takes its subdevices and their entries with it. -/
theorem Kept.cleanupDevice (h : Kept st) (d : Nat) : Kept (cleanupDevice st d) := by
  unfold MinorTable.cleanupDevice
  cases hd : st.devices d with
  | none => exact h
  | some dev =>
    obtain ⟨h₁, htrim, hgone⟩ := h.freeSubdeviceMinors dev.subdevices
    dsimp only
    generalize dev.subdevices.foldl comediFreeSubdeviceMinor st = st₁ at h₁ htrim hgone
    have hd₁ : st₁.devices d = some dev := by rw [htrim.devices, hd]
    have hsub : ∀ sid s, (if sid ∈ dev.subdevices then none else st₁.subs sid) = some s →
        sid ∉ dev.subdevices ∧ st₁.subs sid = some s := by
      intro sid s hx
      split at hx
      · cases hx
      · next hmem => exact ⟨hmem, hx⟩
    have hout : ∀ sid s, sid ∉ dev.subdevices → st₁.subs sid = some s → s.device ≠ d := by
      intro sid s hmem hs he
      obtain ⟨-, dev', hdev', hmem'⟩ := h₁.owners.subs sid s hs
      rw [he, hd₁] at hdev'
      cases hdev'
      exact hmem hmem'
    refine ⟨h₁.ledger.congr rfl rfl le_rfl, ⟨?_, ?_, ?_, ?_, ?_, ?_, ?_, ?_, ?_⟩⟩
    · intro i x hx hr
      obtain ⟨hlt, hf, dev', hdev', hm⟩ := h₁.owners.boards i x hx hr
      refine ⟨hlt, hf, ?_⟩
      by_cases he : x.device = d
      · rw [he, hd₁] at hdev'
        cases hdev'
        exact ⟨_, update_some_eq.mpr (.inl ⟨he, rfl⟩), hm⟩
      · exact ⟨dev', update_some_eq.mpr (.inr ⟨he, hdev'⟩), hm⟩
    · intro i x sid hx hr
      have hmem : sid ∉ dev.subdevices := fun hmem => hgone sid hmem i x hx hr
      obtain ⟨hlo, hhi, s, hs, hm, hsd⟩ := h₁.owners.entries i x sid hx hr
      exact ⟨hlo, hhi, s, (if_neg hmem).trans hs, hm, hsd⟩
    · intro sid s hx
      obtain ⟨hmem, hs⟩ := hsub sid s hx
      obtain ⟨hlt, dev', hdev', hmem'⟩ := h₁.owners.subs sid s hs
      exact ⟨hlt, dev', update_some_eq.mpr (.inr ⟨hout sid s hmem hs, hdev'⟩), hmem'⟩
    · intro d' dev' hx
      rcases update_some_eq.mp hx with ⟨rfl, rfl⟩ | ⟨hne, hx⟩
      · exact ⟨(h₁.owners.devices _ dev hd₁).1, List.nodup_nil, nofun⟩
      · obtain ⟨hlt, hnodup, hall⟩ := h₁.owners.devices d' dev' hx
        refine ⟨hlt, hnodup, fun sid hmem' => ?_⟩
        obtain ⟨s, hs, hsd⟩ := hall sid hmem'
        have hmem : sid ∉ dev.subdevices := by
          intro hmem
          obtain ⟨-, -, hown⟩ := h₁.owners.devices d dev hd₁
          obtain ⟨s', hs', hsd'⟩ := hown sid hmem
          cases hs.symm.trans hs'
          exact hne (hsd.symm.trans hsd')
        exact ⟨s, (if_neg hmem).trans hs, hsd⟩
    · intro sid s hx
      exact h₁.owners.range sid s (hsub sid s hx).2
    · intro sid sid' s s' hx hx'
      exact h₁.owners.distinct sid sid' s s' (hsub sid s hx).2 (hsub sid' s' hx').2
    · intro d' dev' hx hp
      rcases update_some_eq.mp hx with ⟨-, rfl⟩ | ⟨hne, hx⟩
      · rfl
      · exact h₁.owners.idle d' dev' hx hp
    · intro d' dev' k j sid s hx hp hk hj hs
      rcases update_some_eq.mp hx with ⟨-, rfl⟩ | ⟨hne, hx⟩
      · cases hp
      · exact h₁.owners.fresh d' dev' k j sid s hx hp hk hj (hsub sid s hs).2
    · exact h₁.owners.freeingLt

theorem cleanupDevice_device (hd : st.devices d = some dev) :
    (MinorTable.cleanupDevice st d).devices d =
      some { dev with phase := .idle, subdevices := [] } := by
  rw [MinorTable.cleanupDevice, hd]
  exact Function.update_self _ _ _

theorem cleanupDevice_freeing (h : Kept st) (d : Nat) :
    (MinorTable.cleanupDevice st d).freeing = st.freeing := by
  unfold MinorTable.cleanupDevice
  split
  · rfl
  · exact (h.freeSubdeviceMinors _).2.1.freeing

/-- A device may be freed when it has no subdevices left and no board points to it. -/
theorem Kept.dropDevice (h : Kept st) (hsubs : ∀ dev, st.devices d = some dev → dev.subdevices = [])
    (hboard : ∀ i x, st.table i = some x → x.readSubdevice = none → x.device ≠ d) :
    Kept { st with
      devices := Function.update st.devices d none
      freeing := st.freeing.filter (· ≠ d) } := by
  have hout : ∀ sid s, st.subs sid = some s → s.device ≠ d := by
    intro sid s hs he
    obtain ⟨-, dev, hdev, hmem⟩ := h.owners.subs sid s hs
    rw [hsubs dev (he ▸ hdev)] at hmem
    exact absurd hmem List.not_mem_nil
  refine ⟨h.ledger.congr rfl rfl le_rfl, ⟨?_, h.owners.entries, ?_, ?_, h.owners.range,
    h.owners.distinct, ?_, ?_, ?_⟩⟩
  · intro i x hx hr
    obtain ⟨hlt, hf, dev, hdev, hm⟩ := h.owners.boards i x hx hr
    exact ⟨hlt, fun hmem => hf (List.mem_filter.mp hmem).1, dev,
      update_none_eq.mpr ⟨hboard i x hx hr, hdev⟩, hm⟩
  · intro sid s hs
    obtain ⟨hlt, dev, hdev, hmem⟩ := h.owners.subs sid s hs
    exact ⟨hlt, dev, update_none_eq.mpr ⟨hout sid s hs, hdev⟩, hmem⟩
  · intro d' dev hx
    exact h.owners.devices d' dev (update_none_eq.mp hx).2
  · intro d' dev hx
    exact h.owners.idle d' dev (update_none_eq.mp hx).2
  · intro d' dev k j sid s hx
    exact h.owners.fresh d' dev k j sid s (update_none_eq.mp hx).2
  · intro d' hmem
    exact h.owners.freeingLt d' (List.mem_filter.mp hmem).1

theorem Kept.freeDevice (h : Kept st) (hmem : d ∈ st.freeing)
    (hphase : ∀ dev k, st.devices d = some dev → dev.phase ≠ .configuring k) :
    Kept (freeDevice st d) := by
  have hboard : ∀ st' : Minors, Kept st' → st'.freeing = st.freeing → ∀ i x,
      st'.table i = some x → x.readSubdevice = none → x.device ≠ d := by
    intro st' h' hf i x hx hr he
    exact (h'.owners.boards i x hx hr).2.1 (he ▸ hf ▸ hmem)
  unfold MinorTable.freeDevice comediDeviceCleanup
  cases hd : st.devices d with
  | none =>
    exact h.dropDevice (fun dev hx => (Option.some_ne_none dev (hx.symm.trans hd)).elim)
      (hboard st h rfl)
  | some dev =>
    dsimp only
    split
    · refine (h.cleanupDevice d).dropDevice ?_
        (hboard _ (h.cleanupDevice d) (cleanupDevice_freeing h d))
      intro dev' hx
      rw [cleanupDevice_device hd] at hx
      cases hx
      rfl
    · next hne =>
      refine h.dropDevice ?_ (hboard st h rfl)
      intro dev' hx
      cases hd.symm.trans hx
      cases hp : dev.phase with
      | idle => exact h.owners.idle d dev hd hp
      | configuring k => exact absurd hp (hphase dev k hd)
      | attached => exact absurd hp hne

/-- The entry of a board is taken out; its device is not in the table any more. -/
theorem Kept.freeBoardMinor (h : Kept st) {i : Nat} (hi : i < comediNumBoardMinors) :
    Kept (comediFreeBoardMinor st i) := by
  unfold comediFreeBoardMinor
  cases hx : st.table i with
  | none => exact h
  | some x =>
    have hboard : x.readSubdevice = none := by
      cases hr : x.readSubdevice with
      | none => rfl
      | some sid =>
        obtain ⟨hlo, -⟩ := h.owners.entries i x sid hx hr
        exact absurd hi (not_lt.mpr hlo)
    obtain ⟨-, hnot, dev, hdev, hm⟩ := h.owners.boards i x hx hboard
    have hledger : Ledger (st.remove none i) := h.ledger.remove fun y hy => by
      cases hx.symm.trans hy
      exact hboard
    refine ⟨hledger.congr rfl rfl le_rfl, ⟨?_, ?_, h.owners.subs, h.owners.devices, h.owners.range,
      h.owners.distinct, h.owners.idle, h.owners.fresh, ?_⟩⟩
    · intro j y hy hr
      obtain ⟨hne, hy⟩ := update_none_eq.mp hy
      obtain ⟨hlt, hf, dev', hdev', hm'⟩ := h.owners.boards j y hy hr
      refine ⟨hlt, fun hmem => ?_, dev', hdev', hm'⟩
      rcases List.mem_cons.mp hmem with he | hmem
      · rw [he, hdev] at hdev'
        cases hdev'
        exact hne (by exact_mod_cast hm'.symm.trans hm)
      · exact hf hmem
    · intro j y sid hy hr
      exact h.owners.entries j y sid (update_none_eq.mp hy).2 hr
    · intro d hmem
      rcases List.mem_cons.mp hmem with rfl | hmem
      · exact (h.owners.devices _ dev hdev).1
      · exact h.owners.freeingLt d hmem

theorem Kept.setPhase (h : Kept st) (hd : st.devices d = some dev) {p : Phase}
    (hidle : p ≠ .idle) (hfresh : ∀ k j sid s, p = .configuring k → k ≤ j →
      dev.subdevices[j]? = some sid → st.subs sid = some s → s.minor < 0) :
    Kept (st.setDevice d { dev with phase := p }) := by
  refine ⟨h.ledger.congr rfl rfl le_rfl, ⟨?_, h.owners.entries, ?_, ?_, h.owners.range,
    h.owners.distinct, ?_, ?_, h.owners.freeingLt⟩⟩
  · intro i x hx hr
    obtain ⟨hlt, hf, dev', hdev', hm⟩ := h.owners.boards i x hx hr
    refine ⟨hlt, hf, ?_⟩
    by_cases he : x.device = d
    · rw [he, hd] at hdev'
      cases hdev'
      exact ⟨_, update_some_eq.mpr (.inl ⟨he, rfl⟩), hm⟩
    · exact ⟨dev', update_some_eq.mpr (.inr ⟨he, hdev'⟩), hm⟩
  · intro sid s hs
    obtain ⟨hlt, dev', hdev', hmem⟩ := h.owners.subs sid s hs
    refine ⟨hlt, ?_⟩
    by_cases he : s.device = d
    · rw [he, hd] at hdev'
      cases hdev'
      exact ⟨_, update_some_eq.mpr (.inl ⟨he, rfl⟩), hmem⟩
    · exact ⟨dev', update_some_eq.mpr (.inr ⟨he, hdev'⟩), hmem⟩
  · intro d' dev' hx
    rcases update_some_eq.mp hx with ⟨rfl, rfl⟩ | ⟨-, hx⟩
    · exact h.owners.devices _ dev hd
    · exact h.owners.devices d' dev' hx
  · intro d' dev' hx hp
    rcases update_some_eq.mp hx with ⟨-, rfl⟩ | ⟨-, hx⟩
    · exact absurd hp hidle
    · exact h.owners.idle d' dev' hx hp
  · intro d' dev' k j sid s hx hp hk hj hs
    rcases update_some_eq.mp hx with ⟨-, rfl⟩ | ⟨-, hx⟩
    · exact hfresh k j sid s hp hk hj hs
    · exact h.owners.fresh d' dev' k j sid s hx hp hk hj hs

/-- A subdevice that has no minor yet gets one that no other has. -/
theorem Kept.insertSub (h : Kept st) (hs : st.subs sid = some s) (hneg : s.minor < 0)
    (hpast : ∀ d dev k j, st.devices d = some dev → dev.phase = .configuring k → k ≤ j →
      dev.subdevices[j]? ≠ some sid)
    (hi : comediFirstSubdeviceMinor ≤ i ∧ i < comediNumMinors)
    (hun : ∀ sid s, st.subs sid = some s → s.minor ≠ i) :
    Kept ((st.insert i s.device (some sid)).setSub sid { s with minor := i }) := by
  refine ⟨(h.ledger.insert i s.device (some sid)).congr rfl rfl le_rfl,
    ⟨?_, ?_, ?_, ?_, ?_, ?_, h.owners.idle, ?_, ?_⟩⟩
  · intro j x hx hr
    rcases update_some_eq.mp hx with ⟨-, rfl⟩ | ⟨-, hx⟩
    · cases hr
    · exact h.owners.boards j x hx hr
  · intro j x sid' hx hr
    rcases update_some_eq.mp hx with ⟨rfl, rfl⟩ | ⟨-, hx⟩
    · cases hr
      exact ⟨hi.1, hi.2, _, update_some_eq.mpr (.inl ⟨rfl, rfl⟩), rfl, rfl⟩
    · obtain ⟨hlo, hhi, s', hs', hm, hsd⟩ := h.owners.entries j x sid' hx hr
      refine ⟨hlo, hhi, s', update_some_eq.mpr (.inr ⟨?_, hs'⟩), hm, hsd⟩
      rintro rfl
      cases hs.symm.trans hs'
      omega
  · intro sid' s' hx
    rcases update_some_eq.mp hx with ⟨rfl, rfl⟩ | ⟨-, hx⟩
    · obtain ⟨hlt, hdev⟩ := h.owners.subs _ s hs
      exact ⟨Nat.lt_succ_of_lt hlt, hdev⟩
    · obtain ⟨hlt, hdev⟩ := h.owners.subs sid' s' hx
      exact ⟨Nat.lt_succ_of_lt hlt, hdev⟩
  · intro d dev hd
    obtain ⟨hlt, hnodup, hall⟩ := h.owners.devices d dev hd
    refine ⟨Nat.lt_succ_of_lt hlt, hnodup, fun sid' hmem => ?_⟩
    obtain ⟨s', hs', hsd⟩ := hall sid' hmem
    by_cases he : sid' = sid
    · rw [he, hs] at hs'
      cases hs'
      exact ⟨_, update_some_eq.mpr (.inl ⟨he, rfl⟩), hsd⟩
    · exact ⟨s', update_some_eq.mpr (.inr ⟨he, hs'⟩), hsd⟩
  · intro sid' s' hx hpos
    rcases update_some_eq.mp hx with ⟨-, rfl⟩ | ⟨-, hx⟩
    · change (comediFirstSubdeviceMinor : Int) ≤ i
      exact_mod_cast hi.1
    · exact h.owners.range sid' s' hx hpos
  · intro sid₁ sid₂ s₁ s₂ hx₁ hx₂ hpos he
    rcases update_some_eq.mp hx₁ with ⟨h₁, rfl⟩ | ⟨-, hx₁⟩
    · rcases update_some_eq.mp hx₂ with ⟨h₂, -⟩ | ⟨-, hx₂⟩
      · rw [h₁, h₂]
      · exact absurd he.symm (hun sid₂ s₂ hx₂)
    · rcases update_some_eq.mp hx₂ with ⟨-, rfl⟩ | ⟨-, hx₂⟩
      · exact absurd he (hun sid₁ s₁ hx₁)
      · exact h.owners.distinct sid₁ sid₂ s₁ s₂ hx₁ hx₂ hpos he
  · intro d dev k j sid' s' hd hp hk hj hx
    rcases update_some_eq.mp hx with ⟨rfl, -⟩ | ⟨-, hx⟩
    · exact absurd hj (hpast d dev k j hd hp hk)
    · exact h.owners.fresh d dev k j sid' s' hd hp hk hj hx
  · intro d hmem
    exact Nat.lt_succ_of_lt (h.owners.freeingLt d hmem)

theorem Kept.allocSubdeviceMinor (h : Kept st) (hs : st.subs sid = some s) (hneg : s.minor < 0)
    (hpast : ∀ d dev k j, st.devices d = some dev → dev.phase = .configuring k → k ≤ j →
      dev.subdevices[j]? ≠ some sid)
    {kmalloc : Bool} (hun : kmalloc = true → ∀ i,
      firstFree st.table comediFirstSubdeviceMinor comediNumMinors = some i →
      ∀ sid s, st.subs sid = some s → s.minor ≠ i) (retval : Int) :
    Kept (comediAllocSubdeviceMinor st sid s kmalloc retval).2 := by
  unfold comediAllocSubdeviceMinor
  split
  · exact h
  next hk =>
  split
  · exact h
  next i hi =>
  obtain ⟨-, hlo, hhi⟩ := firstFree_spec hi
  have h₁ := h.insertSub hs hneg hpast ⟨hlo, hhi⟩ (hun (not_not.mp hk) i hi)
  dsimp only
  split
  · exact (h₁.freeSubdeviceMinor sid).1
  · exact h₁

theorem Kept.postconfigTurn (h : Kept st) (hs : st.subs sid = some s) (hneg : s.minor < 0)
    (hpast : ∀ d dev k j, st.devices d = some dev → dev.phase = .configuring k → k ≤ j →
      dev.subdevices[j]? ≠ some sid)
    {t : PostconfigTurn} (hun : t.allocates = true → ∀ i,
      firstFree st.table comediFirstSubdeviceMinor comediNumMinors = some i →
      ∀ sid s, st.subs sid = some s → s.minor ≠ i) :
    Kept (postconfigTurn st sid s t).2 := by
  unfold MinorTable.postconfigTurn
  split
  · exact h
  next hused =>
  split
  · exact h
  next halloc =>
  split
  · exact h
  next hchange =>
  refine h.allocSubdeviceMinor hs hneg hpast (fun hk => hun ?_) t.retval
  rw [not_or, Bool.not_eq_true, not_not] at hused
  rw [not_or, not_not] at halloc
  rw [PostconfigTurn.allocates, hused.1, hused.2, halloc.1, hk, Bool.not_eq_true _ |>.mp hchange,
    decide_eq_true (not_lt.mp halloc.2)]
  rfl

/-- `attach` of the driver has subdevices allocated that have no minors. -/
theorem Kept.allocSubdevices (h : Kept st) (hd : st.devices d = some dev) (hp : dev.phase = .idle)
    (n : Nat) : Kept (allocSubdevices st d n dev) := by
  have hempty := h.owners.idle d dev hd hp
  have hold : ∀ sid, sid < st.next → (if st.next ≤ sid ∧ sid < st.next + n then
      some (⟨d, -1⟩ : TableSubdevice) else st.subs sid) = st.subs sid :=
    fun sid hlt => if_neg fun hx => absurd hlt (not_lt.mpr hx.1)
  have hnone : ¬ (0 : Int) ≤ -1 := by decide
  have hsub : ∀ sid s, (if st.next ≤ sid ∧ sid < st.next + n then
      some (⟨d, -1⟩ : TableSubdevice) else st.subs sid) = some s →
      (sid ∈ List.range' st.next n ∧ s = ⟨d, -1⟩) ∨ st.subs sid = some s := by
    intro sid s hx
    split at hx
    · next hr => exact .inl ⟨List.mem_range'_1.mpr hr, (Option.some.inj hx).symm⟩
    · exact .inr hx
  refine ⟨h.ledger.congr rfl rfl (Nat.le_add_right _ _), ⟨?_, ?_, ?_, ?_, ?_, ?_, ?_, ?_, ?_⟩⟩
  · intro i x hx hr
    obtain ⟨hlt, hf, dev', hdev', hm⟩ := h.owners.boards i x hx hr
    refine ⟨hlt, hf, ?_⟩
    by_cases he : x.device = d
    · rw [he, hd] at hdev'
      cases hdev'
      exact ⟨_, update_some_eq.mpr (.inl ⟨he, rfl⟩), hm⟩
    · exact ⟨dev', update_some_eq.mpr (.inr ⟨he, hdev'⟩), hm⟩
  · intro i x sid hx hr
    obtain ⟨hlo, hhi, s, hs, hm, hsd⟩ := h.owners.entries i x sid hx hr
    exact ⟨hlo, hhi, s, (hold sid (h.owners.subs sid s hs).1).trans hs, hm, hsd⟩
  · intro sid s hx
    rcases hsub sid s hx with ⟨hmem, rfl⟩ | hs
    · have hlt := (List.mem_range'_1.mp hmem).2
      exact ⟨hlt, _, update_some_eq.mpr (.inl ⟨rfl, rfl⟩), hmem⟩
    · obtain ⟨hlt, dev', hdev', hmem⟩ := h.owners.subs sid s hs
      refine ⟨Nat.lt_add_right _ hlt, dev', update_some_eq.mpr (.inr ⟨?_, hdev'⟩), hmem⟩
      intro he
      rw [he, hd] at hdev'
      cases hdev'
      rw [hempty] at hmem
      exact absurd hmem List.not_mem_nil
  · intro d' dev' hx
    rcases update_some_eq.mp hx with ⟨rfl, rfl⟩ | ⟨-, hx⟩
    · refine ⟨Nat.lt_add_right _ (h.owners.devices _ dev hd).1, List.nodup_range', ?_⟩
      intro sid hmem
      exact ⟨_, if_pos (List.mem_range'_1.mp hmem), rfl⟩
    · obtain ⟨hlt, hnodup, hall⟩ := h.owners.devices d' dev' hx
      refine ⟨Nat.lt_add_right _ hlt, hnodup, fun sid hmem => ?_⟩
      obtain ⟨s, hs, hsd⟩ := hall sid hmem
      exact ⟨s, (hold sid (h.owners.subs sid s hs).1).trans hs, hsd⟩
  · intro sid s hx hpos
    rcases hsub sid s hx with ⟨-, rfl⟩ | hs
    · exact absurd hpos hnone
    · exact h.owners.range sid s hs hpos
  · intro sid₁ sid₂ s₁ s₂ hx₁ hx₂ hpos he
    rcases hsub sid₁ s₁ hx₁ with ⟨-, rfl⟩ | hs₁
    · exact absurd hpos hnone
    · rcases hsub sid₂ s₂ hx₂ with ⟨-, rfl⟩ | hs₂
      · rw [he] at hpos
        exact absurd hpos hnone
      · exact h.owners.distinct sid₁ sid₂ s₁ s₂ hs₁ hs₂ hpos he
  · intro d' dev' hx hp'
    rcases update_some_eq.mp hx with ⟨-, rfl⟩ | ⟨-, hx⟩
    · cases hp'
    · exact h.owners.idle d' dev' hx hp'
  · intro d' dev' k j sid s hx hp' hk hj hs
    rcases hsub sid s hs with ⟨-, rfl⟩ | hs
    · exact not_le.mp hnone
    rcases update_some_eq.mp hx with ⟨-, rfl⟩ | ⟨-, hx⟩
    · have hlt := (h.owners.subs sid s hs).1
      have hmem := List.mem_range'_1.mp (List.mem_of_getElem? hj)
      exact absurd hlt (not_lt.mpr hmem.1)
    · exact h.owners.fresh d' dev' k j sid s hx hp' hk hj hs
  · intro d' hmem
    exact Nat.lt_add_right _ (h.owners.freeingLt d' hmem)

theorem Kept.allocBoardMinor (h : Kept st) (kzalloc : Bool) (retval : Int) :
    Kept (comediAllocBoardMinor st kzalloc retval).2 := by
  unfold comediAllocBoardMinor
  split
  · exact h
  split
  · exact h
  next i hi =>
  obtain ⟨hnone, -, hlt⟩ := firstFree_spec hi
  let st₁ := ({ st with next := st.next + 1 }.setDevice st.next { minor := i }).insert i st.next none
  have hout : ∀ d dev, st.devices d = some dev → d ≠ st.next :=
    fun d dev hx => (h.owners.devices d dev hx).1.ne
  have hledger : Ledger ({ st with next := st.next + 1 }.setDevice st.next { minor := i }) :=
    h.ledger.congr rfl rfl (Nat.le_succ _)
  have h₁ : Kept st₁ := by
    refine ⟨hledger.insert i st.next none,
      ⟨?_, ?_, ?_, ?_, h.owners.range, h.owners.distinct, ?_, ?_, ?_⟩⟩
    · intro j x hx hr
      rcases update_some_eq.mp hx with ⟨rfl, rfl⟩ | ⟨-, hx⟩
      · exact ⟨hlt, fun hmem => lt_irrefl _ (h.owners.freeingLt _ hmem), _,
          update_some_eq.mpr (.inl ⟨rfl, rfl⟩), rfl⟩
      · obtain ⟨hlt', hf, dev, hdev, hm⟩ := h.owners.boards j x hx hr
        exact ⟨hlt', hf, dev, update_some_eq.mpr (.inr ⟨hout _ dev hdev, hdev⟩), hm⟩
    · intro j x sid hx hr
      rcases update_some_eq.mp hx with ⟨-, rfl⟩ | ⟨-, hx⟩
      · cases hr
      · exact h.owners.entries j x sid hx hr
    · intro sid s hs
      obtain ⟨hlt', dev, hdev, hmem⟩ := h.owners.subs sid s hs
      exact ⟨by change sid < st.next + 1 + 1; omega, dev,
        update_some_eq.mpr (.inr ⟨hout _ dev hdev, hdev⟩), hmem⟩
    · intro d dev hx
      change d < st.next + 1 + 1 ∧ _
      rcases update_some_eq.mp hx with ⟨rfl, rfl⟩ | ⟨-, hx⟩
      · exact ⟨by omega, List.nodup_nil, nofun⟩
      · obtain ⟨hlt', hnodup, hall⟩ := h.owners.devices d dev hx
        exact ⟨by omega, hnodup, hall⟩
    · intro d dev hx hp
      rcases update_some_eq.mp hx with ⟨-, rfl⟩ | ⟨-, hx⟩
      · rfl
      · exact h.owners.idle d dev hx hp
    · intro d dev k j sid s hx hp
      rcases update_some_eq.mp hx with ⟨-, rfl⟩ | ⟨-, hx⟩
      · cases hp
      · exact h.owners.fresh d dev k j sid s hx hp
    · intro d hmem
      have hd := h.owners.freeingLt d hmem
      change d < st.next + 1 + 1
      omega
  dsimp only
  split
  swap
  · exact h₁
  have hself : st₁.table i = some ⟨st.next + 1, st.next, none, none⟩ :=
    update_some_eq.mpr (.inl ⟨rfl, rfl⟩)
  refine (h₁.freeBoardMinor hlt).freeDevice ?_ ?_
  · rw [comediFreeBoardMinor, hself]
    exact List.mem_cons_self
  · intro dev k hx hp
    rw [comediFreeBoardMinor, hself] at hx
    rcases update_some_eq.mp hx with ⟨-, rfl⟩ | ⟨hne, -⟩
    · cases hp
    · exact hne rfl

theorem minorStep_kept (h : Kept st) {x : MinorStep} (hx : Unrecorded st x) :
    Kept (minorStep st x) := by
  cases x with
  | allocBoardMinor kzalloc retval => exact h.allocBoardMinor kzalloc retval
  | freeBoardMinor i =>
    simp only [minorStep]
    split
    · next hi => exact h.freeBoardMinor hi
    · exact h
  | freeDevice d =>
    simp only [minorStep]
    split
    · exact h
    next dev hd =>
    split
    · exact h
    next hp =>
    split
    · next hmem =>
      refine h.freeDevice hmem fun dev' k hx' => ?_
      cases hd.symm.trans hx'
      exact hp k
    · exact h
  | attach d n =>
    simp only [minorStep]
    split
    · exact h
    next dev hd =>
    split
    · next hp => exact h.allocSubdevices hd hp n
    · exact h
  | turn d t =>
    simp only [minorStep]
    split
    · exact h
    next dev hd =>
    split
    swap
    · exact h
    next k hp =>
    split
    · exact h
    next sid s hsub =>
    obtain ⟨sid', hk, hmap⟩ := Option.bind_eq_some_iff.mp hsub
    obtain ⟨s', hs, he⟩ := Option.map_eq_some_iff.mp hmap
    cases he
    obtain ⟨-, hnodup, hall⟩ := h.owners.devices d dev hd
    have hneg : s.minor < 0 := h.owners.fresh d dev k k sid s hd hp le_rfl hk hs
    have h₁ : Kept (st.setDevice d { dev with phase := .configuring (k + 1) }) := by
      refine h.setPhase hd nofun fun k' j sid s hk' hj hget hs => ?_
      cases hk'
      exact h.owners.fresh d dev k j sid s hd hp (by omega) hget hs
    have hpast : ∀ d' dev' k' j, (st.setDevice d
        { dev with phase := .configuring (k + 1) }).devices d' = some dev' →
        dev'.phase = .configuring k' → k' ≤ j → dev'.subdevices[j]? ≠ some sid := by
      intro d' dev' k' j hx' hp' hj hget
      rcases update_some_eq.mp hx' with ⟨-, rfl⟩ | ⟨hne, hx'⟩
      · cases hp'
        obtain ⟨hlt, hgk⟩ := List.getElem?_eq_some_iff.mp hk
        obtain ⟨hlt', hgj⟩ := List.getElem?_eq_some_iff.mp hget
        have := (hnodup.getElem_inj_iff).mp (hgk.trans hgj.symm)
        omega
      · obtain ⟨-, -, hall'⟩ := h.owners.devices d' dev' hx'
        obtain ⟨s₁, hs₁, hd₁⟩ := hall sid (List.mem_of_getElem? hk)
        obtain ⟨s₂, hs₂, hd₂⟩ := hall' sid (List.mem_of_getElem? hget)
        cases hs₁.symm.trans hs₂
        exact hne (hd₂.symm.trans hd₁)
    have h₂ := h₁.postconfigTurn hs hneg hpast hx
    split
    · exact h₂.cleanupDevice d
    · exact h₂
  | attached d =>
    simp only [minorStep]
    split
    · exact h
    next dev hd =>
    split
    · exact h.setPhase hd nofun nofun
    · exact h
  | cleanup d =>
    simp only [minorStep]
    split
    · exact h
    split
    · exact h
    · exact h.cleanupDevice d

theorem Kept.start : Kept {} :=
  ⟨⟨nofun, nofun, nofun, nofun, List.nodup_nil, nofun⟩,
    ⟨nofun, nofun, nofun, nofun, nofun, nofun, nofun, nofun, nofun⟩⟩

/-- `minorStep` as a step that never faults. -/
def minorRun (st : Minors) (x : MinorStep) : Except Empty Minors := .ok (minorStep st x)

/-- As long as no minor is given again that a subdevice still has from an entry that was freed,
every entry has its owner, and what is freed is freed once and by its owner. -/
theorem minors_owned {steps : List MinorStep} (hfit : AllFit minorRun Unrecorded {} steps)
    (hrun : GuardedRuns.run minorRun {} steps = .ok st) : MinorsOwned st := by
  have h : Kept st := run_keeps Kept (fun st x st' h hx he => by
    cases he
    exact minorStep_kept h hx) Kept.start hfit hrun
  exact h.minorsOwned

def filled (steps : List MinorStep) : Minors := steps.foldl minorStep {}

/-- A board with two subdevices; an attribute of the second cannot be created. -/
def twoSubdevices : List MinorStep :=
  [.allocBoardMinor true 0, .attach 0 2, .turn 0 {}, .turn 0 { retval := -12 }, .attached 0]

theorem owned_of_twoSubdevices :
    (filled twoSubdevices).table 48 = some ⟨4, 0, some 2, some 2⟩ ∧
      MinorsOwned (filled twoSubdevices) := by
  have hfit : AllFit minorRun Unrecorded {} twoSubdevices := by
    refine .cons trivial rfl (.cons trivial rfl (.cons ?_ rfl (.cons ?_ rfl
      (.cons trivial rfl trivial))))
    · intro _ i hi sid s hs
      cases Option.some.inj (hi.symm.trans (show _ = some 48 from rfl))
      change (if 2 ≤ sid ∧ sid < 4 then some ⟨0, -1⟩ else none) = some s at hs
      split at hs
      · cases hs
        decide
      · cases hs
    · intro _ i hi sid s hs
      cases Option.some.inj (hi.symm.trans (show _ = some 49 from rfl))
      rcases update_some_eq.mp hs with ⟨-, rfl⟩ | ⟨-, hs⟩
      · decide
      change (if 2 ≤ sid ∧ sid < 4 then some ⟨0, -1⟩ else none) = some s at hs
      split at hs
      · cases hs
        decide
      · cases hs
  exact ⟨rfl, minors_owned hfit rfl⟩

/-- An attribute of the subdevice of the first board cannot be created, the second board gets the
minor, and the first is detached. -/
def failedAttribute : List MinorStep :=
  [.allocBoardMinor true 0, .allocBoardMinor true 0, .attach 0 1, .turn 0 { retval := -12 },
    .attached 0, .attach 2 1, .turn 2 {}, .attached 2, .cleanup 0]

/-- The entry of the second board's subdevice is freed for that of the first. -/
theorem failedAttribute_frees_other :
    ((some 4, ⟨7, 2, some 6, some 6⟩) ∈ (filled failedAttribute).frees ∧
      (filled failedAttribute).table 48 = none ∧
      (filled failedAttribute).subs 6 = some ⟨2, 48⟩) ∧
      ¬ MinorsOwned (filled failedAttribute) := by
  have hmem : (some 4, ⟨7, 2, some 6, some 6⟩) ∈ (filled failedAttribute).frees :=
    List.mem_cons_self
  refine ⟨⟨hmem, rfl, rfl⟩, fun h => ?_⟩
  cases h.freedOwn _ hmem

end Comedi.MinorTable
