import Comedi.DataModel
import Comedi.GuardedRuns
import Mathlib.Algebra.Notation.Pi.Basic
import Mathlib.Algebra.Group.Int.Defs

namespace Comedi.ModuleRefs

open GuardedRuns

/-- An open file, with the minor its inode has. -/
structure OpenFile where
  id : Nat
  minor : Nat
  deriving DecidableEq, Repr

structure RefSubdevice where
  minor : Option Nat := none
  busy : Option Nat := none
  lock : Option Nat := none
  mmapCount : Nat := 0
  deriving DecidableEq, Repr

/-- A `comedi_open` that has unlocked the device while `request_module` runs. -/
structure Loading where
  file : OpenFile
  capSysModule : Bool
  deriving DecidableEq, Repr

/-- `driver` is the module of `dev->driver`. -/
structure RefDevice where
  minor : Nat := 0
  attached : Bool := false
  driver : Option Nat := none
  useCount : Int := 0
  inRequestModule : Bool := false
  hasOpen : Bool := false
  subdevices : List RefSubdevice := []
  loading : List Loading := []
  deriving DecidableEq, Repr

/-- One device, the files that are open, and the references the core holds on the modules of the
low-level drivers and on its own. -/
structure ModuleState where
  dev : Option RefDevice := none
  files : List OpenFile := []
  refs : Nat → Int := fun _ => 0
  thisModule : Int := 0

def moduleGet (refs : Nat → Int) (m : Nat) : Nat → Int := Function.update refs m (refs m + 1)

def modulePut (refs : Nat → Int) (m : Nat) : Nat → Int := Function.update refs m (refs m - 1)

/-- A driver of the list `comedi_drivers`, with what `try_module_get` answers for it, whether it
recognizes the board, and what its `attach` and `postconfig` return and set up. -/
structure Driver where
  module : Nat
  tryModuleGet : Bool := true
  recognizes : Bool := true
  attach : Int := 0
  hasOpen : Bool := false
  subdevices : List RefSubdevice := []
  postconfig : Int := 0
  reported : Bool := true

def RefDevice.cleanup (dev : RefDevice) : RefDevice :=
  { dev with attached := false, driver := none, hasOpen := false, subdevices := [] }

def comediDeviceDetach (dev : RefDevice) : RefDevice :=
  if dev.attached then dev.cleanup else dev

def attachDriver (refs : Nat → Int) (dev : RefDevice) (driv : Driver) :
    Int × (Nat → Int) × RefDevice :=
  let dev := { dev with
    driver := some driv.module
    hasOpen := driv.hasOpen
    subdevices := driv.subdevices }
  if driv.attach < 0 then (driv.attach, modulePut refs driv.module, dev.cleanup)
  else if driv.postconfig < 0 then (driv.postconfig, modulePut refs driv.module, dev.cleanup)
  else (0, modulePut refs driv.module, { dev with attached := true })

def reportBoards (refs : Nat → Int) (drivers : List Driver) : Nat → Int :=
  drivers.foldl (fun refs driv =>
    if driv.reported then modulePut (moduleGet refs driv.module) driv.module else refs) refs

/-- The loop of `comedi_device_attach`; it has failed when no driver recognizes the board. -/
def tryDrivers (refs : Nat → Int) (dev : RefDevice) (all : List Driver) :
    List Driver → Int × (Nat → Int) × RefDevice
  | [] => (-eio, reportBoards refs all, dev)
  | driv :: drivers =>
    if ¬ driv.tryModuleGet then tryDrivers refs dev all drivers
    else if ¬ driv.recognizes then
      tryDrivers (modulePut (moduleGet refs driv.module) driv.module) dev all drivers
    else attachDriver (moduleGet refs driv.module) dev driv

def comediDeviceAttach (refs : Nat → Int) (dev : RefDevice) (drivers : List Driver) :
    Int × (Nat → Int) × RefDevice :=
  if dev.attached then (-ebusy, refs, dev) else tryDrivers refs dev drivers drivers

def isDeviceBusy (dev : RefDevice) : Bool :=
  dev.attached && dev.subdevices.any fun s => s.busy.isSome || s.mmapCount ≠ 0

/-- A `comedi_devconfig` of the user, and what the calls that read it give. -/
structure Devconfig where
  copied : Bool := true
  auxData : Bool := false
  auxLength : Int := 0
  vmalloc : Bool := true
  auxCopied : Bool := true
  drivers : List Driver := []

/-- The error of `do_devconfig_ioctl` before it attaches. -/
def Devconfig.error (it : Devconfig) : Option Int :=
  if ¬ it.copied then some (-efault)
  else if it.auxData ∧ it.auxLength ≠ 0 then
    if it.auxLength < 0 then some (-efault)
    else if ¬ it.vmalloc then some (-enomem)
    else if ¬ it.auxCopied then some (-efault)
    else none
  else none

def doDevconfigIoctl (refs : Nat → Int) (dev : RefDevice) (admin : Bool) (arg : Option Devconfig)
    (tryModuleGet : Bool) : Int × (Nat → Int) × RefDevice :=
  if ¬ admin then (-eperm, refs, dev)
  else
    match arg with
    | none =>
      if isDeviceBusy dev then (-ebusy, refs, dev)
      else if dev.attached then (0, dev.driver.elim refs (modulePut refs), comediDeviceDetach dev)
      else (0, refs, dev)
    | some it =>
      match it.error with
      | some e => (e, refs, dev)
      | none =>
        match comediDeviceAttach refs dev it.drivers with
        | (ret, refs, dev) =>
          if ret ≠ 0 then (ret, refs, dev)
          else if tryModuleGet then (0, dev.driver.elim refs (moduleGet refs), dev)
          else (-enosys, refs, comediDeviceDetach dev)

/-- `comedi_get_device_file_info` finds the device under its own minor and under those of its
subdevices. -/
def ModuleState.find (st : ModuleState) (minor : Nat) : Option RefDevice :=
  st.dev.filter fun dev => dev.minor = minor || dev.subdevices.any (·.minor = some minor)

/-- The rest of `comedi_open` from the label `ok`. -/
def openOk (st : ModuleState) (dev : RefDevice) (file : OpenFile) (tryModuleGet : Bool)
    (openRet : Int) : Int × ModuleState :=
  if dev.attached ∧ ¬ tryModuleGet then (-enosys, { st with dev := some dev })
  else if dev.attached ∧ dev.useCount = 0 ∧ dev.hasOpen ∧ openRet < 0 then
    (openRet, { st with
      dev := some dev
      refs := dev.driver.elim st.refs fun m => modulePut (moduleGet st.refs m) m })
  else
    (0, {
      dev := some { dev with useCount := dev.useCount + 1 }
      files := file :: st.files
      refs := if dev.attached then dev.driver.elim st.refs (moduleGet st.refs) else st.refs
      thisModule := st.thisModule + 1 })

def comediOpen (st : ModuleState) (file : OpenFile) (capSysModule tryModuleGet : Bool)
    (openRet : Int) : Int × ModuleState :=
  match st.find file.minor with
  | none => (-enodev, st)
  | some dev =>
    if dev.attached then openOk st dev file tryModuleGet openRet
    else if ¬ capSysModule ∧ dev.inRequestModule then (-enodev, st)
    else if dev.inRequestModule then openOk st dev file tryModuleGet openRet
    else (0, { st with dev := some { dev with
      inRequestModule := true
      loading := ⟨file, capSysModule⟩ :: dev.loading } })

/-- `comedi_open` goes on after `request_module`. When the device was freed in the meantime, it
goes on in freed memory, and there is nothing to do here. -/
def openLoaded (st : ModuleState) (l : Loading) (tryModuleGet : Bool) (openRet : Int) :
    Int × ModuleState :=
  match st.dev with
  | none => (-enodev, st)
  | some dev =>
    if l ∈ dev.loading then
      let dev := { dev with inRequestModule := false, loading := dev.loading.erase l }
      if ¬ dev.attached ∧ ¬ l.capSysModule then (-enodev, { st with dev := some dev })
      else openOk st dev l.file tryModuleGet openRet
    else (-enodev, st)

/-- `comedi_close` cancels what the file runs and gives its locks back. -/
def RefSubdevice.released (s : RefSubdevice) (file : OpenFile) : RefSubdevice :=
  { s with
    busy := if s.busy = some file.id then none else s.busy
    lock := if s.lock = some file.id then none else s.lock }

def comediClose (st : ModuleState) (file : OpenFile) : Int × ModuleState :=
  match st.find file.minor with
  | none => (-enodev, { st with files := st.files.erase file })
  | some dev =>
    (0, {
      dev := some { dev with
        useCount := dev.useCount - 1
        subdevices := dev.subdevices.map (·.released file) }
      files := st.files.erase file
      refs := if dev.attached then dev.driver.elim st.refs (modulePut st.refs) else st.refs
      thisModule := st.thisModule - 1 })

/-- `comedi_auto_config` is `allocBoardMinor`, then `autoConfigAttach`, then `freeBoardMinor` if
that failed, and `comedi_auto_unconfig` is `freeBoardMinor`. The other steps can come between.
With `use`, commands, locks and mappings of a subdevice come and go. -/
inductive RefStep where
  | allocBoardMinor (minor : Nat)
  | autoConfigAttach (drivers : List Driver)
  | freeBoardMinor
  | openFile (file : OpenFile) (capSysModule tryModuleGet : Bool) (openRet : Int)
  | openLoaded (l : Loading) (tryModuleGet : Bool) (openRet : Int)
  | close (file : OpenFile)
  | devconfig (file : OpenFile) (admin : Bool) (arg : Option Devconfig) (tryModuleGet : Bool)
  | use (k : Nat) (busy lock : Option Nat) (mmapCount : Nat)

def refStep (st : ModuleState) : RefStep → ModuleState
  | .allocBoardMinor minor => if st.dev.isSome then st else { st with dev := some { minor := minor } }
  | .autoConfigAttach drivers =>
    match st.dev with
    | none => st
    | some dev =>
      match comediDeviceAttach st.refs dev drivers with
      | (_, refs, dev) => { st with refs := refs, dev := some dev }
  | .freeBoardMinor => { st with dev := none }
  | .openFile file capSysModule tryModuleGet openRet =>
    (comediOpen st file capSysModule tryModuleGet openRet).2
  | .openLoaded l tryModuleGet openRet => (openLoaded st l tryModuleGet openRet).2
  | .close file => if file ∈ st.files then (comediClose st file).2 else st
  | .devconfig file admin arg tryModuleGet =>
    if file ∈ st.files then
      match st.find file.minor with
      | none => st
      | some dev =>
        match doDevconfigIoctl st.refs dev admin arg tryModuleGet with
        | (_, refs, dev) => { st with refs := refs, dev := some dev }
    else st
  | .use k busy lock mmapCount =>
    { st with dev := st.dev.map fun dev => { dev with
        subdevices := dev.subdevices.modify k fun s =>
          { s with busy := busy, lock := lock, mmapCount := mmapCount } } }

def Driver.takes (driv : Driver) : Bool := driv.tryModuleGet && driv.recognizes

/-- The first driver that is there and recognizes the board attaches it. -/
def Attaches (drivers : List Driver) : Prop :=
  ∃ driv, drivers.find? Driver.takes = some driv ∧ 0 ≤ driv.attach ∧ 0 ≤ driv.postconfig

/-- With `COMEDI_DEVCONFIG` the device is attached and detached while the file that does it is the
only one that is open, and otherwise while none is. -/
def Sole (st : ModuleState) : RefStep → Prop
  | .autoConfigAttach drivers => ∀ dev, st.dev = some dev → dev.attached = false →
      Attaches drivers → dev.useCount = 0
  | .freeBoardMinor => ∀ dev, st.dev = some dev → dev.useCount = 0
  | .devconfig file admin none _ => ∀ dev, st.find file.minor = some dev → admin = true →
      isDeviceBusy dev = false → dev.attached = true → dev.useCount = 1
  | .devconfig file admin (some it) tryModuleGet => ∀ dev, st.find file.minor = some dev →
      admin = true → it.error = none → dev.attached = false → Attaches it.drivers →
      tryModuleGet = true → dev.useCount = 1
  | _ => True

/-- The core holds as many references on the module of the attached driver as the use count says,
and otherwise none. -/
structure RefsMatch (st : ModuleState) : Prop where
  attached : ∀ dev, st.dev = some dev → dev.attached = true →
    ∃ m, dev.driver = some m ∧ st.refs m = dev.useCount ∧ ∀ m', m' ≠ m → st.refs m' = 0
  detached : (∀ dev, st.dev = some dev → dev.attached = false) → ∀ m, st.refs m = 0
  nonneg : ∀ m, 0 ≤ st.refs m

/-- The references that `dev` stands for. -/
def RefDevice.held (dev : RefDevice) : Nat → Int :=
  if dev.attached then dev.driver.elim 0 fun m => Pi.single m dev.useCount else 0

structure DevKept (refs : Nat → Int) (files : List OpenFile) (dev : RefDevice) : Prop where
  held : refs = dev.held
  driver : dev.attached = true → dev.driver.isSome
  files : files.length ≤ dev.useCount

def Kept (st : ModuleState) : Prop :=
  match st.dev with
  | none => st.refs = 0 ∧ st.files = []
  | some dev => DevKept st.refs st.files dev

variable {st : ModuleState} {refs : Nat → Int} {files : List OpenFile} {dev dev' : RefDevice}
  {drivers all : List Driver} {driv : Driver} {m : Nat} {n : Int}

@[simp] theorem moduleGet_single : moduleGet (Pi.single m n) m = Pi.single m (n + 1) := by
  rw [moduleGet, Pi.single_eq_same, Pi.single, Pi.single, Function.update_idem]

@[simp] theorem modulePut_single : modulePut (Pi.single m n) m = Pi.single m (n - 1) := by
  rw [modulePut, Pi.single_eq_same, Pi.single, Pi.single, Function.update_idem]

@[simp] theorem modulePut_moduleGet (refs : Nat → Int) (m : Nat) :
    modulePut (moduleGet refs m) m = refs := by
  rw [modulePut, moduleGet, Function.update_idem, Function.update_self, Int.add_sub_cancel,
    Function.update_eq_self]

theorem held_of_attached (ha : dev.attached = true) (hd : dev.driver = some m) :
    dev.held = Pi.single m dev.useCount := by
  rw [RefDevice.held, if_pos ha, hd, Option.elim_some]

theorem held_of_detached (ha : dev.attached = false) : dev.held = 0 := by
  rw [RefDevice.held, ha, if_neg Bool.false_ne_true]

theorem held_zero (hu : dev.useCount = 0) : dev.held = 0 := by
  unfold RefDevice.held
  split
  · cases dev.driver with
    | none => rfl
    | some m => rw [Option.elim_some, hu, Pi.single_zero]
  · rfl

theorem DevKept.nonneg (h : DevKept refs files dev) : 0 ≤ dev.useCount :=
  le_trans (Int.natCast_nonneg _) h.files

theorem Kept.refsMatch (h : Kept st) : RefsMatch st := by
  unfold Kept at h
  cases hd : st.dev with
  | none =>
    rw [hd] at h
    have hz : ∀ m, st.refs m = 0 := fun m => by rw [h.1, Pi.zero_apply]
    exact ⟨fun dev hx => (Option.some_ne_none dev (hx.symm.trans hd)).elim, fun _ => hz,
      fun m => (hz m).ge⟩
  | some dev =>
    rw [hd] at h
    cases ha : dev.attached with
    | false =>
      have hz : ∀ m, st.refs m = 0 := by
        intro m
        rw [h.held, held_of_detached ha, Pi.zero_apply]
      refine ⟨fun dev' hx ha' => ?_, fun _ => hz, fun m => (hz m).ge⟩
      cases hd.symm.trans hx
      cases ha'.symm.trans ha
    | true =>
      obtain ⟨m, hm⟩ := Option.isSome_iff_exists.mp (h.driver ha)
      have heq : st.refs = Pi.single m dev.useCount := h.held.trans (held_of_attached ha hm)
      refine ⟨fun dev' hx _ => ?_, fun hx => ?_, fun m' => ?_⟩
      · cases hd.symm.trans hx
        refine ⟨m, hm, ?_, fun m' hne => ?_⟩
        · rw [heq, Pi.single_eq_same]
        · rw [heq, Pi.single_eq_of_ne hne]
      · cases ha.symm.trans (hx dev hd)
      · rw [heq]
        by_cases he : m' = m
        · rw [he, Pi.single_eq_same]
          exact h.nonneg
        · rw [Pi.single_eq_of_ne he]

/-- What `comedi_device_attach` can do to the device; it gives every reference back that it
takes. -/
inductive AttachEffect (refs : Nat → Int) (dev : RefDevice) (drivers : List Driver) :
    Int × (Nat → Int) × RefDevice → Prop where
  | refused {ret : Int} (hret : ret ≠ 0) : AttachEffect refs dev drivers (ret, refs, dev)
  | cleaned {ret : Int} {dev' : RefDevice} (hret : ret ≠ 0) (hold : dev.attached = false)
      (hatt : dev'.attached = false) (huse : dev'.useCount = dev.useCount) :
      AttachEffect refs dev drivers (ret, refs, dev')
  | attached {dev' : RefDevice} (hold : dev.attached = false) (hfit : Attaches drivers)
      (hatt : dev'.attached = true) (hdrv : dev'.driver.isSome) (huse : dev'.useCount = dev.useCount) :
      AttachEffect refs dev drivers (0, refs, dev')

theorem attachDriver_effect (hold : dev.attached = false)
    (hfind : drivers.find? Driver.takes = some driv) :
    AttachEffect refs dev drivers (attachDriver (moduleGet refs driv.module) dev driv) := by
  unfold attachDriver
  dsimp only
  rw [modulePut_moduleGet]
  split
  · next hneg => exact .cleaned hneg.ne hold rfl rfl
  · next hatt =>
    split
    · next hneg => exact .cleaned hneg.ne hold rfl rfl
    · next hpost => exact .attached hold ⟨driv, hfind, not_lt.mp hatt, not_lt.mp hpost⟩ rfl rfl rfl

theorem reportBoards_refs (refs : Nat → Int) (drivers : List Driver) :
    reportBoards refs drivers = refs := by
  unfold reportBoards
  induction drivers with
  | nil => rfl
  | cons driv drivers ih =>
    rw [List.foldl_cons, modulePut_moduleGet, ite_self]
    exact ih

theorem AttachEffect.imp {r : Int × (Nat → Int) × RefDevice} {drivers' : List Driver}
    (h : AttachEffect refs dev drivers r) (hfit : Attaches drivers → Attaches drivers') :
    AttachEffect refs dev drivers' r := by
  cases h with
  | refused hret => exact .refused hret
  | cleaned hret hold hatt huse => exact .cleaned hret hold hatt huse
  | attached hold hf hatt hdrv huse => exact .attached hold (hfit hf) hatt hdrv huse

theorem tryDrivers_effect (hold : dev.attached = false) (all : List Driver) :
    AttachEffect refs dev drivers (tryDrivers refs dev all drivers) := by
  induction drivers with
  | nil =>
    rw [tryDrivers, reportBoards_refs]
    exact .refused (by decide)
  | cons driv drivers ih =>
    have hskip : ¬ driv.takes → Attaches drivers → Attaches (driv :: drivers) := by
      rintro hno ⟨driv', hfind, hpos⟩
      exact ⟨driv', by rw [List.find?_cons_of_neg hno, hfind], hpos⟩
    rw [tryDrivers, modulePut_moduleGet]
    split
    · next hget => exact ih.imp (hskip (by simp [Driver.takes, hget]))
    · next hget =>
      split
      · next hrec => exact ih.imp (hskip (by simp [Driver.takes, hrec]))
      · next hrec =>
        refine attachDriver_effect hold (List.find?_cons_of_pos ?_)
        rw [Driver.takes, not_not.mp hget, not_not.mp hrec]
        rfl

theorem comediDeviceAttach_effect (refs : Nat → Int) (dev : RefDevice) (drivers : List Driver) :
    AttachEffect refs dev drivers (comediDeviceAttach refs dev drivers) := by
  unfold comediDeviceAttach
  split
  · exact .refused (by decide)
  · next ha => exact tryDrivers_effect (Bool.eq_false_iff.mpr ha) drivers

/-- After an attach the use count has to be what the core holds for the open files. -/
theorem DevKept.attach (h : DevKept refs files dev) (drivers : List Driver) :
    (comediDeviceAttach refs dev drivers).2.1 = refs ∧
      (comediDeviceAttach refs dev drivers).2.2.useCount = dev.useCount ∧
      ((comediDeviceAttach refs dev drivers).1 ≠ 0 →
        DevKept refs files (comediDeviceAttach refs dev drivers).2.2) ∧
      ((comediDeviceAttach refs dev drivers).1 = 0 → dev.attached = false ∧ Attaches drivers ∧
        (comediDeviceAttach refs dev drivers).2.2.attached = true ∧
        (comediDeviceAttach refs dev drivers).2.2.driver.isSome) := by
  have heff := comediDeviceAttach_effect refs dev drivers
  generalize comediDeviceAttach refs dev drivers = r at heff
  cases heff with
  | refused hret => exact ⟨rfl, rfl, fun _ => h, fun hz => absurd hz hret⟩
  | cleaned hret hold hatt huse =>
    refine ⟨rfl, huse, fun _ => ⟨?_, fun ha => ?_, huse ▸ h.files⟩, fun hz => absurd hz hret⟩
    · rw [h.held, held_of_detached hold, held_of_detached hatt]
    · cases ha.symm.trans hatt
  | attached hold hfit hatt hdrv huse =>
    exact ⟨rfl, huse, fun hne => absurd rfl hne, fun _ => ⟨hold, hfit, hatt, hdrv⟩⟩

theorem DevKept.devconfigDetach (h : DevKept refs files dev) {admin tryModuleGet : Bool}
    (hone : admin = true → isDeviceBusy dev = false → dev.attached = true → dev.useCount = 1) :
    DevKept (doDevconfigIoctl refs dev admin none tryModuleGet).2.1 files
      (doDevconfigIoctl refs dev admin none tryModuleGet).2.2 := by
  unfold doDevconfigIoctl
  split
  · exact h
  next hadmin =>
  dsimp only
  split
  · exact h
  next hbusy =>
  split
  · next ha =>
    obtain ⟨m, hm⟩ := Option.isSome_iff_exists.mp (h.driver ha)
    have hu := hone (not_not.mp hadmin) (Bool.eq_false_iff.mpr hbusy) ha
    have hput : dev.driver.elim refs (modulePut refs) = 0 := by
      rw [hm, Option.elim_some, h.held, held_of_attached ha hm, modulePut_single, hu]
      exact Pi.single_zero m
    dsimp only
    rw [hput, comediDeviceDetach, if_pos ha]
    exact ⟨(held_of_detached rfl).symm, nofun, h.files⟩
  · exact h

theorem DevKept.devconfigAttach (h : DevKept refs files dev) {admin tryModuleGet : Bool}
    {it : Devconfig} (hone : admin = true → it.error = none → dev.attached = false →
      Attaches it.drivers → tryModuleGet = true → dev.useCount = 1) :
    DevKept (doDevconfigIoctl refs dev admin (some it) tryModuleGet).2.1 files
      (doDevconfigIoctl refs dev admin (some it) tryModuleGet).2.2 := by
  unfold doDevconfigIoctl
  split
  · exact h
  next hadmin =>
  dsimp only
  split
  · exact h
  next herr =>
  obtain ⟨hrefs, huse, hfail, hgood⟩ := h.attach it.drivers
  generalize comediDeviceAttach refs dev it.drivers = r at hrefs huse hfail hgood ⊢
  obtain ⟨ret, refs', dev'⟩ := r
  cases hrefs
  dsimp only at huse hfail hgood ⊢
  split
  · next hne => exact hfail hne
  next hz =>
  obtain ⟨hold, hfit, hatt, hdrv⟩ := hgood (not_not.mp hz)
  have hzero : refs' = 0 := h.held.trans (held_of_detached hold)
  have hfiles : (files.length : Int) ≤ dev'.useCount := huse ▸ h.files
  split
  · next hget =>
    obtain ⟨m, hm⟩ := Option.isSome_iff_exists.mp hdrv
    refine ⟨?_, fun _ => hdrv, hfiles⟩
    have hu : dev'.useCount = 1 := by
      rw [huse]
      exact hone (not_not.mp hadmin) herr hold hfit hget
    dsimp only
    rw [held_of_attached hatt hm, hu, hm, Option.elim_some, hzero,
      show (0 : Nat → Int) = Pi.single m 0 from (Pi.single_zero m).symm, moduleGet_single]
    rfl
  · dsimp only
    rw [comediDeviceDetach, if_pos hatt]
    have hnone : dev'.cleanup.held = 0 := held_of_detached rfl
    exact ⟨hzero.trans hnone.symm, nofun, hfiles⟩

theorem Kept.device (h : Kept st) (hd : st.dev = some dev) : DevKept st.refs st.files dev := by
  unfold Kept at h
  rwa [hd] at h

theorem Kept.of_dev (hd : st.dev = some dev) (h : DevKept st.refs st.files dev) : Kept st := by
  unfold Kept
  rwa [hd]

theorem find_dev {minor : Nat} (h : st.find minor = some dev) : st.dev = some dev :=
  (Option.filter_eq_some_iff.mp h).1

/-- A file that is opened holds one reference more. -/
theorem Kept.openOk (h : DevKept st.refs st.files dev) (file : OpenFile) (tryModuleGet : Bool)
    (openRet : Int) : Kept (openOk st dev file tryModuleGet openRet).2 := by
  unfold ModuleRefs.openOk
  split
  · exact .of_dev rfl h
  split
  · next hopen =>
    obtain ⟨m, hm⟩ := Option.isSome_iff_exists.mp (h.driver hopen.1)
    refine .of_dev rfl ?_
    dsimp only
    rw [hm, Option.elim_some, modulePut_moduleGet]
    exact h
  · refine .of_dev rfl ⟨?_, h.driver, ?_⟩
    · dsimp only
      split
      · next ha =>
        obtain ⟨m, hm⟩ := Option.isSome_iff_exists.mp (h.driver ha)
        have hopened : { dev with useCount := dev.useCount + 1 }.held =
            Pi.single m (dev.useCount + 1) := held_of_attached ha hm
        rw [hopened, hm, Option.elim_some, h.held, held_of_attached ha hm, moduleGet_single]
      · next ha =>
        have hopened : { dev with useCount := dev.useCount + 1 }.held = 0 :=
          held_of_detached (Bool.eq_false_iff.mpr ha)
        rw [hopened, h.held, held_of_detached (Bool.eq_false_iff.mpr ha)]
    · have hle := h.files
      rw [List.length_cons]
      push_cast
      omega

theorem Kept.open (h : Kept st) (file : OpenFile) (capSysModule tryModuleGet : Bool)
    (openRet : Int) : Kept (comediOpen st file capSysModule tryModuleGet openRet).2 := by
  unfold comediOpen
  split
  · exact h
  next dev hfind =>
  have hdev := h.device (find_dev hfind)
  split
  · exact .openOk hdev file tryModuleGet openRet
  split
  · exact h
  split
  · exact .openOk hdev file tryModuleGet openRet
  · exact .of_dev rfl ⟨hdev.held, hdev.driver, hdev.files⟩

theorem Kept.openLoaded (h : Kept st) (l : Loading) (tryModuleGet : Bool) (openRet : Int) :
    Kept (openLoaded st l tryModuleGet openRet).2 := by
  unfold ModuleRefs.openLoaded
  split
  · exact h
  next dev hd =>
  have hdev := h.device hd
  split
  · dsimp only
    split
    · exact .of_dev rfl ⟨hdev.held, hdev.driver, hdev.files⟩
    · have hloaded : DevKept st.refs st.files
          { dev with inRequestModule := false, loading := dev.loading.erase l } :=
        ⟨hdev.held, hdev.driver, hdev.files⟩
      exact .openOk hloaded l.file tryModuleGet openRet
  · exact h

/-- A file that is closed gives its reference back, or finds nothing under its minor. -/
theorem Kept.close (h : Kept st) {file : OpenFile} (hf : file ∈ st.files) :
    Kept (comediClose st file).2 := by
  have hlen := List.length_erase_of_mem hf
  have hpos := List.length_pos_of_mem hf
  unfold comediClose
  split
  · unfold Kept at h ⊢
    dsimp only
    cases hd : st.dev with
    | none =>
      rw [hd] at h
      exact absurd hf (by rw [h.2]; exact List.not_mem_nil)
    | some dev =>
      rw [hd] at h
      have hle := h.files
      exact ⟨h.held, h.driver, by omega⟩
  · next dev hfind =>
    have hdev := h.device (find_dev hfind)
    have hle := hdev.files
    refine .of_dev rfl ⟨?_, hdev.driver, ?_⟩
    · dsimp only
      split
      · next ha =>
        obtain ⟨m, hm⟩ := Option.isSome_iff_exists.mp (hdev.driver ha)
        rw [hm, Option.elim_some, hdev.held, held_of_attached ha hm, modulePut_single]
        rw [RefDevice.held]
        exact (if_pos ha).symm
      · next ha =>
        rw [hdev.held, held_of_detached (Bool.eq_false_iff.mpr ha)]
        refine (held_of_detached ?_).symm
        exact Bool.eq_false_iff.mpr ha
    · dsimp only
      omega

theorem Kept.devconfig (h : Kept st) {file : OpenFile} {admin tryModuleGet : Bool}
    {arg : Option Devconfig} (hx : Sole st (.devconfig file admin arg tryModuleGet)) :
    Kept (refStep st (.devconfig file admin arg tryModuleGet)) := by
  simp only [refStep]
  split
  swap
  · exact h
  split
  · exact h
  next dev hfind =>
  have hdev := h.device (find_dev hfind)
  refine .of_dev rfl ?_
  cases arg with
  | none => exact hdev.devconfigDetach (hx dev hfind)
  | some it => exact hdev.devconfigAttach (hx dev hfind)

theorem refStep_kept (h : Kept st) {x : RefStep} (hx : Sole st x) : Kept (refStep st x) := by
  cases x with
  | allocBoardMinor minor =>
    simp only [refStep]
    split
    · exact h
    · next hd =>
      unfold Kept at h
      rw [Option.not_isSome_iff_eq_none.mp hd] at h
      refine .of_dev rfl ⟨?_, nofun, ?_⟩
      · exact h.1.trans (held_of_detached rfl).symm
      · dsimp only
        rw [h.2]
        exact le_rfl
  | autoConfigAttach drivers =>
    simp only [refStep]
    split
    · exact h
    next dev hd =>
    have hdev := h.device hd
    obtain ⟨hrefs, huse, hfail, hgood⟩ := hdev.attach drivers
    generalize comediDeviceAttach st.refs dev drivers = r at hrefs huse hfail hgood ⊢
    refine .of_dev rfl ?_
    by_cases hz : r.1 = 0
    · obtain ⟨hold, hfit, hatt, hdrv⟩ := hgood hz
      have hu : r.2.2.useCount = 0 := huse.trans (hx dev hd hold hfit)
      refine ⟨?_, fun _ => hdrv, huse ▸ hdev.files⟩
      rw [hrefs, held_zero hu, hdev.held, held_of_detached hold]
    · rw [hrefs]
      exact hfail hz
  | freeBoardMinor =>
    simp only [refStep]
    unfold Kept at h ⊢
    cases hd : st.dev with
    | none =>
      rw [hd] at h
      exact h
    | some dev =>
      rw [hd] at h
      have hu := hx dev hd
      have hnone : st.files.length = 0 := by
        have hle := h.files
        omega
      exact ⟨h.held.trans (held_zero hu), List.eq_nil_of_length_eq_zero hnone⟩
  | openFile file cap get ret => exact h.open file cap get ret
  | openLoaded l get ret => exact h.openLoaded l get ret
  | close file =>
    simp only [refStep]
    split
    · next hf => exact h.close hf
    · exact h
  | devconfig file admin arg get => exact h.devconfig hx
  | use k busy lock mmapCount =>
    simp only [refStep]
    unfold Kept at h ⊢
    cases hd : st.dev with
    | none =>
      rw [hd] at h
      exact h
    | some dev =>
      rw [hd] at h
      exact ⟨h.held, h.driver, h.files⟩

/-- `refStep` as a step that never faults. -/
def refRun (st : ModuleState) (x : RefStep) : Except Empty ModuleState := .ok (refStep st x)

/-- As long as a device is attached and detached by its only open file, and configured and
unplugged while no file is open, the references are those the use count says. -/
theorem refs_match_use_count {steps : List RefStep} (hfit : AllFit refRun Sole {} steps)
    (hrun : GuardedRuns.run refRun {} steps = .ok st) : RefsMatch st := by
  have hstart : Kept {} := by
    unfold Kept
    exact ⟨rfl, rfl⟩
  have h : Kept st := run_keeps Kept (fun st x st' h hx he => by
    cases he
    exact refStep_kept h hx) hstart hfit hrun
  exact h.refsMatch

def oneDriver : List Driver := [{ module := 7 }]

def userFile (id : Nat) : OpenFile := ⟨id, 0⟩

/-- Open the unattached device as the administrator, with nothing to load. -/
def openUnattached (id : Nat) : List RefStep :=
  [.openFile (userFile id) true true 0, .openLoaded ⟨userFile id, true⟩ true 0]

/-- The device is attached by its first file, opened by another, and detached by the first. -/
def soleAttach : List RefStep :=
  .allocBoardMinor 0 :: openUnattached 0 ++
    [.devconfig (userFile 0) true (some { drivers := oneDriver }) true,
      .openFile (userFile 1) false true 0, .close (userFile 1),
      .devconfig (userFile 0) true none true]

def after (steps : List RefStep) : ModuleState := steps.foldl refStep {}

theorem refs_of_soleAttach : RefsMatch (after soleAttach) := by
  have hfit : AllFit refRun Sole {} soleAttach := by
    refine .cons trivial rfl (.cons trivial rfl (.cons trivial rfl (.cons ?_ rfl
      (.cons trivial rfl (.cons trivial rfl (.cons ?_ rfl trivial))))))
    · rintro dev hd - - - - -
      cases hd
      rfl
    · rintro dev hd - - -
      cases hd
      rfl
  exact refs_match_use_count hfit rfl

/-- Two files are open when one of them attaches the device; in the second run the other file is
opened after that, and the first detaches it; in the third the device is unplugged while a file is
open. -/
def sharedAttach : List RefStep :=
  .allocBoardMinor 0 :: openUnattached 0 ++ openUnattached 1 ++
    [.devconfig (userFile 0) true (some { drivers := oneDriver }) true, .close (userFile 1),
      .close (userFile 0)]

def sharedDetach : List RefStep :=
  .allocBoardMinor 0 :: openUnattached 0 ++
    [.devconfig (userFile 0) true (some { drivers := oneDriver }) true,
      .openFile (userFile 1) false true 0, .devconfig (userFile 0) true none true,
      .close (userFile 0), .close (userFile 1)]

def openUnplug : List RefStep :=
  [.allocBoardMinor 0, .autoConfigAttach oneDriver, .openFile (userFile 0) false true 0,
    .freeBoardMinor, .close (userFile 0)]

/-- The references become negative, or stay when every file is closed and the device is detached
or gone. -/
theorem shared_refs_differ :
    ((after sharedAttach).refs 7 = -1 ∧ ¬ RefsMatch (after sharedAttach)) ∧
      ((after sharedDetach).refs 7 = 1 ∧ (after sharedDetach).files = [] ∧
        ¬ RefsMatch (after sharedDetach)) ∧
      ((after openUnplug).refs 7 = 1 ∧ (after openUnplug).files = [] ∧
        ¬ RefsMatch (after openUnplug)) := by
  have hdetached : ∀ st : ModuleState, (∀ dev, st.dev = some dev → dev.attached = false) →
      st.refs 7 = 1 → ¬ RefsMatch st := by
    intro st hdet hone h
    rw [h.detached hdet 7] at hone
    cases hone
  refine ⟨⟨rfl, fun h => absurd (h.nonneg 7) (by decide)⟩, ⟨rfl, rfl, hdetached _ ?_ rfl⟩,
    ⟨rfl, rfl, hdetached _ ?_ rfl⟩⟩
  · rintro dev hd
    cases hd
    rfl
  · rintro dev hd
    cases hd

end Comedi.ModuleRefs
