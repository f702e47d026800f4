import Comedi.Instructions
import Comedi.RangeWords
import Comedi.Requests

namespace Comedi.Compat32

open ChanlistCheck Instructions RangeWords Requests RunState

/-- What an ioctl does: its return value, the device afterwards with the calls of the driver, what
is copied to where the structure points to, and the structure itself as it is left. -/
structure Outcome (σ ω : Type) where
  ret : Int
  dev : Device
  calls : List (Nat × Call) := []
  out : ω
  user : σ

/-- `comedi32_cmd`, with 32-bit addresses. -/
structure Cmd32 where
  subdev : U32 := 0
  flags : U32 := 0
  startSrc : U32 := 0
  startArg : U32 := 0
  scanBeginSrc : U32 := 0
  scanBeginArg : U32 := 0
  convertSrc : U32 := 0
  convertArg : U32 := 0
  scanEndSrc : U32 := 0
  scanEndArg : U32 := 0
  stopSrc : U32 := 0
  stopArg : U32 := 0
  chanlist : U32 := 0
  chanlistLen : U32 := 0
  data : U32 := 0
  dataLen : U32 := 0
  deriving DecidableEq, Repr

structure Chaninfo32 where
  subdev : U32
  maxdataList : U32 := 0
  flaglist : U32 := 0
  rangelist : U32 := 0
  deriving DecidableEq, Repr

structure Rangeinfo32 where
  rangeType : U32
  rangePtr : U32 := 0
  deriving DecidableEq, Repr

structure Insn32 where
  insn : U32
  n : U32
  data : U32 := 0
  subdev : U32 := 0
  chanspec : U32 := 0
  deriving DecidableEq, Repr

def compatPtr (p : U32) : Nat := p.toNat

def ptrToCompat (p : Nat) : U32 := BitVec.ofNat 32 p

/-- The user's `chanlist` pointer. -/
def chanlistPtr (p : U32) : Chanlist := if p = 0 then .null else .user (compatPtr p)

/-- A pointer into the kernel is never left to the user. -/
def chanlistToCompat : Chanlist → U32
  | .user addr => ptrToCompat addr
  | .null | .kernel _ | .client _ => 0

def getCompatCmd (c : Cmd32) : Cmd where
  subdev := c.subdev
  flags := c.flags
  startSrc := c.startSrc
  startArg := c.startArg
  scanBeginSrc := c.scanBeginSrc
  scanBeginArg := c.scanBeginArg
  convertSrc := c.convertSrc
  convertArg := c.convertArg
  scanEndSrc := c.scanEndSrc
  scanEndArg := c.scanEndArg
  stopSrc := c.stopSrc
  stopArg := c.stopArg
  chanlist := chanlistPtr c.chanlist
  chanlistLen := c.chanlistLen
  data := compatPtr c.data
  dataLen := c.dataLen

/-- The two pointers are assumed to be unchanged. -/
def putCompatCmd (c : Cmd32) (cmd : Cmd) : Cmd32 where
  subdev := cmd.subdev
  flags := cmd.flags
  startSrc := cmd.startSrc
  startArg := cmd.startArg
  scanBeginSrc := cmd.scanBeginSrc
  scanBeginArg := cmd.scanBeginArg
  convertSrc := cmd.convertSrc
  convertArg := cmd.convertArg
  scanEndSrc := cmd.scanEndSrc
  scanEndArg := cmd.scanEndArg
  stopSrc := cmd.stopSrc
  stopArg := cmd.stopArg
  chanlist := c.chanlist
  chanlistLen := cmd.chanlistLen
  data := c.data
  dataLen := cmd.dataLen

/-- Field by field, the 32-bit form of a command. -/
def narrowCmd (cmd : Cmd) : Cmd32 :=
  { putCompatCmd {} cmd with
    chanlist := chanlistToCompat cmd.chanlist
    data := ptrToCompat cmd.data }

def widenChaninfo (c : Chaninfo32) : Chaninfo where
  subdev := c.subdev
  maxdataList := compatPtr c.maxdataList
  flaglist := compatPtr c.flaglist
  rangelist := compatPtr c.rangelist

def narrowChaninfo (c : Chaninfo) : Chaninfo32 where
  subdev := c.subdev
  maxdataList := ptrToCompat c.maxdataList
  flaglist := ptrToCompat c.flaglist
  rangelist := ptrToCompat c.rangelist

def widenRangeinfo (r : Rangeinfo32) : Rangeinfo := ⟨r.rangeType, compatPtr r.rangePtr⟩

def narrowRangeinfo (r : Rangeinfo) : Rangeinfo32 := ⟨r.rangeType, ptrToCompat r.rangePtr⟩

def getCompatInsn (i : Insn32) : Insn where
  insn := i.insn
  n := i.n
  data := compatPtr i.data
  subdev := i.subdev
  chanspec := i.chanspec

def narrowInsn (i : Insn) : Insn32 where
  insn := i.insn
  n := i.n
  data := ptrToCompat i.data
  subdev := i.subdev
  chanspec := i.chanspec

/-- What the allocator, the user's memory and the driver answer to a command. -/
structure CmdEnv where
  allocOk : Bool := true
  entries : Chanlist → Option (Nat → U32)
  test : CmdTest
  start : Answer := {}

def CmdEnv.req (env : CmdEnv) (cmd : Cmd) (copyBack : Bool) : CmdReq where
  cmd := cmd
  allocOk := env.allocOk
  entries := env.entries cmd.chanlist
  test := env.test
  copyBack := copyBack
  start := env.start

/-- The async with the command loaded, where `do_cmd_ioctl` gets to the driver's test. -/
def reachedTest (s : Subdevice) (req : CmdReq) (file : File) : Option Async :=
  match cmdRefusal s req.cmd file, s.async with
  | none, some a =>
    if ¬ req.allocOk then none
    else
      match req.entries with
      | none => none
      | some f =>
        let entries := (List.range req.cmd.chanlistLen.toNat).map f
        let a := loadCmd a req.cmd entries
        if checkChanlist { s with async := some a } entries < 0 then none else some a
  | _, _ => none

def TestFails (test : CmdTest) (a : Async) : Prop :=
  (test.run a.cmd).2.flags &&& trigBogus ≠ 0 ∨ (test.run a.cmd).1 ≠ 0

instance (test : CmdTest) (a : Async) : Decidable (TestFails test a) :=
  inferInstanceAs (Decidable (_ ∨ _))

/-- The command as `do_cmd_ioctl` leaves it at `arg`. -/
def cmdLeft (s : Subdevice) (req : CmdReq) (file : File) : Cmd :=
  match reachedTest s req file with
  | none => req.cmd
  | some a =>
    if TestFails req.test a ∧ req.copyBack then
      { (req.test.run a.cmd).2 with chanlist := req.cmd.chanlist, data := 0 }
    else req.cmd

/-- `COMEDI_CMD`, where `copyBack` says whether the structure can be written. -/
def nativeCmd (dev : Device) (file : File) (env : CmdEnv) (copyBack : Bool) (cmd : Cmd) :
    Outcome Cmd Unit :=
  if ¬ dev.attached then ⟨-enodev, dev, [], (), cmd⟩
  else
    match dev.subdevices[cmd.subdev.toNat]? with
    | none => ⟨-enodev, dev, [], (), cmd⟩
    | some s =>
      let r := doCmdIoctl dev.board s (env.req cmd copyBack) file
      ⟨r.1, { dev.set cmd.subdev.toNat r.2.2.1 with board := r.2.1 },
        r.2.2.2.map (cmd.subdev.toNat, ·), (), cmdLeft s (env.req cmd copyBack) file⟩

/-- What the allocator, the user's memory and the driver answer to a command that is only tested. -/
structure CmdtestEnv where
  allocOk : Bool := true
  entries : Chanlist → Option (Nat → U32)
  test : Cmd → Int × Cmd

/-- The command as `do_cmdtest_ioctl` hands it to the driver, or its error before. -/
def cmdtestArg (s : Subdevice) (env : CmdtestEnv) (cmd : Cmd) : Except Int Cmd :=
  if s.type = .unused then .error (-eio)
  else if ¬ s.doCmd ∨ ¬ s.doCmdtest then .error (-eio)
  else if s.lenChanlist.val < cmd.chanlistLen.toNat then .error (-einval)
  else if cmd.chanlist = .null then .ok cmd
  else if ¬ env.allocOk then .error (-enomem)
  else
    match env.entries cmd.chanlist with
    | none => .error (-efault)
    | some f =>
      let entries := (List.range cmd.chanlistLen.toNat).map f
      if checkChanlist s entries < 0 then .error (checkChanlist s entries)
      else .ok { cmd with chanlist := .kernel entries }

def nativeCmdtest (dev : Device) (env : CmdtestEnv) (copyBack : Bool) (cmd : Cmd) :
    Outcome Cmd Unit :=
  if ¬ dev.attached then ⟨-enodev, dev, [], (), cmd⟩
  else
    match dev.subdevices[cmd.subdev.toNat]? with
    | none => ⟨-enodev, dev, [], (), cmd⟩
    | some s =>
      match cmdtestArg s env cmd with
      | .error e => ⟨e, dev, [], (), cmd⟩
      | .ok arg =>
        let (ret, tested) := env.test arg
        let calls := [(cmd.subdev.toNat, Call.doCmdtest arg ret tested)]
        if copyBack then ⟨ret, dev, calls, (), { tested with chanlist := cmd.chanlist }⟩
        else ⟨-efault, dev, calls, (), cmd⟩

def nativeChaninfo (dev : Device) (copied : Nat → Bool) (it : Chaninfo) :
    Outcome Chaninfo ChaninfoOut :=
  if ¬ dev.attached then ⟨-enodev, dev, [], {}, it⟩
  else
    let r := doChaninfoIoctl dev (some it) copied
    ⟨r.1, dev, [], r.2, it⟩

def nativeRangeinfo (dev : Device) (copied : Nat → Bool) (it : Rangeinfo) :
    Outcome Rangeinfo (Option Lrange) :=
  if ¬ dev.attached then ⟨-enodev, dev, [], none, it⟩
  else
    match doRangeinfoIoctl dev (some it) copied with
    | .error e => ⟨e, dev, [], none, it⟩
    | .ok lr => ⟨0, dev, [], some lr, it⟩

/-- What the allocator, the user's memory and the driver answer to the instructions of a request,
each by its position in it. -/
structure InsnEnv where
  req : Nat → Insn → InsnReq
  insn_eq : ∀ i insn, (req i insn).insn = insn
  allocInsns : Nat → Bool := fun _ => true
  allocData : Bool := true
  mem : Nat → U32 := fun _ => 0

def nativeInsn (dev : Device) (file : File) (env : InsnEnv) (insn : Insn) :
    Outcome Insn (List (List U32)) :=
  if ¬ dev.attached then ⟨-enodev, dev, [], [], insn⟩
  else
    let r := doInsnIoctl dev (env.req 0 insn) env.allocData file env.mem
    ⟨r.ret, r.dev, r.calls, r.copied, insn⟩

def nativeInsnlist (dev : Device) (file : File) (env : InsnEnv) (insns : List Insn) :
    Outcome (List Insn) (List (List U32)) :=
  if ¬ dev.attached then ⟨-enodev, dev, [], [], insns⟩
  else
    let r := doInsnlistIoctl dev (some (insns.mapIdx env.req)) (env.allocInsns insns.length)
      env.allocData file env.mem
    ⟨r.ret, r.dev, r.calls, r.copied, insns⟩

def translatedIoctl (rc : Int) : Int := if rc = -enoioctlcmd then -enotty else rc

variable {σ σ32 ω : Type}

/-- A 32-bit request whose structure is only read. -/
def compatRead (native : σ → Outcome σ ω) (get : σ32 → σ) (c : σ32) : Outcome σ32 ω :=
  let n := native (get c)
  ⟨translatedIoctl n.ret, n.dev, n.calls, n.out, c⟩

def compatChaninfo (dev : Device) (copied : Nat → Bool) (c : Chaninfo32) :
    Outcome Chaninfo32 ChaninfoOut :=
  compatRead (nativeChaninfo dev copied) widenChaninfo c

def compatRangeinfo (dev : Device) (copied : Nat → Bool) (r : Rangeinfo32) :
    Outcome Rangeinfo32 (Option Lrange) :=
  compatRead (nativeRangeinfo dev copied) widenRangeinfo r

def compatInsn (dev : Device) (file : File) (env : InsnEnv) (i : Insn32) :
    Outcome Insn32 (List (List U32)) :=
  compatRead (nativeInsn dev file env) getCompatInsn i

def compatInsnlist (dev : Device) (file : File) (env : InsnEnv) (l : List Insn32) :
    Outcome (List Insn32) (List (List U32)) :=
  compatRead (nativeInsnlist dev file env) (·.map getCompatInsn) l

/-- The native structure lies in memory that was allocated for it, which can be written; whether
the user's own structure can is `copyBack`. -/
def compatCmd (dev : Device) (file : File) (env : CmdEnv) (copyBack : Bool) (c : Cmd32) :
    Outcome Cmd32 Unit :=
  let n := nativeCmd dev file env true (getCompatCmd c)
  let rc := translatedIoctl n.ret
  if rc = -eagain then
    if copyBack then ⟨rc, n.dev, n.calls, (), putCompatCmd c n.user⟩
    else ⟨-efault, n.dev, n.calls, (), c⟩
  else ⟨rc, n.dev, n.calls, (), c⟩

def compatCmdtest (dev : Device) (env : CmdtestEnv) (copyBack : Bool) (c : Cmd32) :
    Outcome Cmd32 Unit :=
  let n := nativeCmdtest dev env true (getCompatCmd c)
  let rc := translatedIoctl n.ret
  if rc < 0 then ⟨rc, n.dev, n.calls, (), c⟩
  else if copyBack then ⟨rc, n.dev, n.calls, (), putCompatCmd c n.user⟩
  else ⟨-efault, n.dev, n.calls, (), c⟩

/-- The 32-bit request does what the native one does, and leaves the 32-bit form of what that
leaves. -/
structure Refines (narrow : σ → σ32) (n : Outcome σ ω) (c : Outcome σ32 ω) : Prop where
  ret : c.ret = n.ret
  dev : c.dev = n.dev
  calls : c.calls = n.calls
  out : c.out = n.out
  user : c.user = narrow n.user

/-- A 32-bit request, with all that its environment answers. -/
inductive Request32 where
  | chaninfo (copied : Nat → Bool) (c : Chaninfo32)
  | rangeinfo (copied : Nat → Bool) (r : Rangeinfo32)
  | cmd (env : CmdEnv) (copyBack : Bool) (c : Cmd32)
  | cmdtest (env : CmdtestEnv) (copyBack : Bool) (c : Cmd32)
  | insn (env : InsnEnv) (i : Insn32)
  | insnlist (env : InsnEnv) (l : List Insn32)

/-- `comedi_compat_ioctl` on the request refines the native ioctl on the widened structure. -/
def CompatRefines (dev : Device) (file : File) : Request32 → Prop
  | .chaninfo copied c => Refines narrowChaninfo (nativeChaninfo dev copied (widenChaninfo c))
      (compatChaninfo dev copied c)
  | .rangeinfo copied r => Refines narrowRangeinfo (nativeRangeinfo dev copied (widenRangeinfo r))
      (compatRangeinfo dev copied r)
  | .cmd env copyBack c => Refines narrowCmd (nativeCmd dev file env copyBack (getCompatCmd c))
      (compatCmd dev file env copyBack c)
  | .cmdtest env copyBack c => Refines narrowCmd (nativeCmdtest dev env copyBack (getCompatCmd c))
      (compatCmdtest dev env copyBack c)
  | .insn env i => Refines narrowInsn (nativeInsn dev file env (getCompatInsn i))
      (compatInsn dev file env i)
  | .insnlist env l => Refines (·.map narrowInsn)
      (nativeInsnlist dev file env (l.map getCompatInsn)) (compatInsnlist dev file env l)

/-- The driver's `do_cmd` may ask to try again only where the structure can be written, and where the
test fails, for which `do_cmd_ioctl` clears `data`, that was NULL before. -/
def CmdFits (dev : Device) (file : File) (env : CmdEnv) (copyBack : Bool) (c : Cmd32) : Prop :=
  (nativeCmd dev file env copyBack (getCompatCmd c)).ret ≠ -enoioctlcmd ∧
    ∀ s a, dev.attached = true → dev.subdevices[c.subdev.toNat]? = some s →
      reachedTest s (env.req (getCompatCmd c) copyBack) file = some a →
      (TestFails env.test a → copyBack = true → c.data = 0) ∧
      (¬ TestFails env.test a → a.preallocBufsz ≠ 0 → env.start.ret = -eagain → copyBack = true)

/-- The driver's test leaves the command as it was where it returns an error, and its `data` in any
case; where the structure cannot be written, it returns no error or that one. -/
def CmdtestFits (dev : Device) (env : CmdtestEnv) (copyBack : Bool) (c : Cmd32) : Prop :=
  ∀ s arg, dev.attached = true → dev.subdevices[c.subdev.toNat]? = some s →
    cmdtestArg s env (getCompatCmd c) = .ok arg →
    (copyBack = true → (env.test arg).1 ≠ -enoioctlcmd ∧
      ((env.test arg).1 < 0 →
        narrowCmd { (env.test arg).2 with chanlist := chanlistPtr c.chanlist } = c) ∧
      (0 ≤ (env.test arg).1 → ptrToCompat (env.test arg).2.data = c.data)) ∧
    (copyBack = false → (env.test arg).1 < 0 → (env.test arg).1 = -efault)

def CompatFits (dev : Device) (file : File) : Request32 → Prop
  | .chaninfo _ _ | .rangeinfo _ _ => True
  | .cmd env copyBack c => CmdFits dev file env copyBack c
  | .cmdtest env copyBack c => CmdtestFits dev env copyBack c
  | .insn env i => (nativeInsn dev file env (getCompatInsn i)).ret ≠ -enoioctlcmd
  | .insnlist env l => (nativeInsnlist dev file env (l.map getCompatInsn)).ret ≠ -enoioctlcmd

variable {dev : Device} {file : File} {c : Cmd32} {cmd : Cmd} {b : Board} {s : Subdevice} {a : Async}
  {req : CmdReq} {env : CmdEnv} {w : Bool}

@[simp] theorem ptrToCompat_compatPtr (p : U32) : ptrToCompat (compatPtr p) = p := by
  rw [ptrToCompat, compatPtr, BitVec.ofNat_toNat, BitVec.setWidth_eq]

@[simp] theorem chanlistToCompat_chanlistPtr (p : U32) : chanlistToCompat (chanlistPtr p) = p := by
  unfold chanlistPtr
  split
  · next h => exact h.symm
  · exact ptrToCompat_compatPtr p

@[simp] theorem narrowCmd_getCompatCmd (c : Cmd32) : narrowCmd (getCompatCmd c) = c := by
  cases c
  simp [narrowCmd, putCompatCmd, getCompatCmd]

@[simp] theorem putCompatCmd_getCompatCmd (c : Cmd32) : putCompatCmd c (getCompatCmd c) = c := rfl

/-- What `put_compat_cmd` leaves is the 32-bit form where the two pointers are. -/
theorem putCompatCmd_eq_narrowCmd (c : Cmd32) (cmd : Cmd) :
    putCompatCmd c cmd = narrowCmd cmd ↔
      c.chanlist = chanlistToCompat cmd.chanlist ∧ c.data = ptrToCompat cmd.data := by
  simp [putCompatCmd, narrowCmd]

theorem narrowChaninfo_widenChaninfo (c : Chaninfo32) : narrowChaninfo (widenChaninfo c) = c := by
  cases c
  simp [narrowChaninfo, widenChaninfo]

theorem narrowRangeinfo_widenRangeinfo (r : Rangeinfo32) :
    narrowRangeinfo (widenRangeinfo r) = r := by
  cases r
  simp [narrowRangeinfo, widenRangeinfo]

theorem narrowInsn_getCompatInsn (i : Insn32) : narrowInsn (getCompatInsn i) = i := by
  cases i
  simp [narrowInsn, getCompatInsn]

theorem translatedIoctl_eq {rc : Int} : translatedIoctl rc = rc ↔ rc ≠ -enoioctlcmd := by
  unfold translatedIoctl
  split
  · next h =>
    rw [h]
    decide
  · next h => exact ⟨fun _ => h, fun _ => rfl⟩

/-- A structure that is only read is refined unless the driver answers `-ENOIOCTLCMD`. -/
theorem compatRead_refines_iff {native : σ → Outcome σ ω} {get : σ32 → σ} {narrow : σ → σ32}
    (c : σ32) (huser : (native (get c)).user = get c) (hnarrow : narrow (get c) = c) :
    Refines narrow (native (get c)) (compatRead native get c) ↔
      (native (get c)).ret ≠ -enoioctlcmd := by
  rw [← translatedIoctl_eq]
  constructor
  · exact fun h => h.ret
  · intro h
    refine ⟨h, rfl, rfl, rfl, ?_⟩
    rw [huser, hnarrow]
    rfl

theorem nativeChaninfo_ret (copied : Nat → Bool) (it : Chaninfo) :
    (nativeChaninfo dev copied it).ret ≠ -enoioctlcmd := by
  have hmax : ∀ s e, chaninfoMaxdata s it copied = .error e → e ≠ -enoioctlcmd := by
    intro s e h
    unfold chaninfoMaxdata at h
    split at h
    · cases h
    split at h
    · cases h
      decide
    split at h
    · cases h
      decide
    split at h
    · cases h
    · cases h
      decide
  have hflags : ∀ s e, chaninfoFlags s it copied = .error e → e ≠ -enoioctlcmd := by
    intro s e h
    unfold chaninfoFlags at h
    split at h
    · cases h
    split at h
    · cases h
      decide
    split at h
    · cases h
    · cases h
      decide
  have hranges : ∀ s e, chaninfoRanges dev s it = .error e → e ≠ -enoioctlcmd := by
    intro s e h
    unfold chaninfoRanges at h
    split at h
    · cases h
    split at h
    · cases h
      decide
    · cases h
  unfold nativeChaninfo
  split
  · change -enodev ≠ -enoioctlcmd
    decide
  simp only [doChaninfoIoctl]
  split
  · decide
  next s _ =>
  split
  · next e he => exact hmax s e he
  split
  · next e he => exact hflags s e he
  split
  · next e he => exact hranges s e he
  · change (0 : Int) ≠ -enoioctlcmd
    decide

theorem nativeRangeinfo_ret (copied : Nat → Bool) (it : Rangeinfo) :
    (nativeRangeinfo dev copied it).ret ≠ -enoioctlcmd := by
  have hrange : ∀ e, doRangeinfoIoctl dev (some it) copied = .error e → e ≠ -enoioctlcmd := by
    intro e h
    simp only [doRangeinfoIoctl] at h
    split at h
    · cases h
      decide
    split at h
    · cases h
      decide
    split at h
    · cases h
      decide
    split at h
    · cases h
    · cases h
      decide
  unfold nativeRangeinfo
  split
  · change -enodev ≠ -enoioctlcmd
    decide
  split
  · next e he => exact hrange e he
  · change (0 : Int) ≠ -enoioctlcmd
    decide

/-- The errors of `do_cmd_ioctl` before the test. -/
theorem cmdRefusal_ret {e : Int} (h : cmdRefusal s cmd file = some e) :
    e ≠ -eagain ∧ e ≠ -enoioctlcmd := by
  unfold cmdRefusal at h
  repeat' split at h
  all_goals first
    | cases h; decide
    | cases h

theorem checkChanlist_ret (s : Subdevice) (entries : List U32) :
    checkChanlist s entries = 0 ∨ checkChanlist s entries = -einval := by
  unfold checkChanlist
  split
  · exact .inl rfl
  · exact .inr rfl

/-- A command that is not tested fares the same whether the structure can be written or not. -/
theorem doCmdIoctl_unreached (h : reachedTest s req file = none) :
    ∃ r, (∀ w', doCmdIoctl b s { req with copyBack := w' } file = r) ∧ r.1 ≠ -eagain ∧
      r.1 ≠ -enoioctlcmd := by
  unfold reachedTest at h
  unfold doCmdIoctl
  dsimp only
  cases hr : cmdRefusal s req.cmd file with
  | some e => exact ⟨_, fun _ => rfl, cmdRefusal_ret hr⟩
  | none =>
    cases ha : s.async with
    | none => exact ⟨_, fun _ => rfl, by change -eio ≠ -eagain ∧ -eio ≠ -enoioctlcmd; decide⟩
    | some a =>
      simp only [hr, ha] at h ⊢
      split at h
      · next halloc =>
        refine ⟨_, fun _ => if_pos halloc, ?_⟩
        change -enomem ≠ -eagain ∧ -enomem ≠ -enoioctlcmd
        decide
      next halloc =>
      simp only [if_neg halloc]
      cases hf : req.entries with
      | none =>
        exact ⟨_, fun _ => rfl, by change -efault ≠ -eagain ∧ -efault ≠ -enoioctlcmd; decide⟩
      | some f =>
      simp only [hf] at h ⊢
      split at h
      · next hneg =>
        refine ⟨_, fun _ => if_pos hneg, ?_⟩
        change checkChanlist _ _ ≠ -eagain ∧ checkChanlist _ _ ≠ -enoioctlcmd
        rcases checkChanlist_ret { s with async := some (loadCmd a req.cmd
          ((List.range req.cmd.chanlistLen.toNat).map f)) }
          ((List.range req.cmd.chanlistLen.toNat).map f) with hz | hz
        · rw [hz] at hneg
          exact absurd hneg (lt_irrefl _)
        · rw [hz]
          decide
      · cases h

theorem doCmdIoctl_reached (h : reachedTest s req file = some a) :
    doCmdIoctl b s req file = testCmd b { s with async := some a } a req file := by
  unfold reachedTest at h
  unfold doCmdIoctl
  cases hr : cmdRefusal s req.cmd file with
  | some e => simp [hr] at h
  | none =>
    cases ha : s.async with
    | none => simp [hr, ha] at h
    | some a₀ =>
      simp only [hr, ha] at h ⊢
      split at h
      · cases h
      next halloc =>
      rw [if_neg halloc]
      cases hf : req.entries with
      | none =>
        rw [hf] at h
        cases h
      | some f =>
      simp only [hf] at h ⊢
      split at h
      · cases h
      next hchk =>
      cases h
      rw [if_neg hchk]

theorem testCmd_fails (h : TestFails env.test a) (w : Bool) :
    testCmd b s a (env.req cmd w) file =
      cmdCleanup b { s with async := some { a with cmd := (env.test.run a.cmd).2 } }
        (if w then -eagain else -efault)
        [.doCmdtest a.cmd (env.test.run a.cmd).1 (env.test.run a.cmd).2] := by
  unfold testCmd
  exact if_pos h

/-- A command that passes the test returns what the driver's `do_cmd` does. -/
theorem testCmd_passes (h : ¬ TestFails env.test a) (w : Bool) :
    testCmd b s a (env.req cmd w) file = testCmd b s a (env.req cmd true) file ∧
      (testCmd b s a (env.req cmd w) file).1 =
        if a.preallocBufsz = 0 then -enomem else env.start.ret := by
  unfold testCmd
  refine ⟨(if_neg h).trans (if_neg h).symm, (congrArg Prod.fst (if_neg h)).trans ?_⟩
  dsimp only
  split
  · rfl
  · unfold startCmd
    dsimp only
    split
    · next hz => exact hz.symm
    · rfl

theorem translatedIoctl_eq_iff {rc e : Int} (he : e ≠ -enotty) (hc : e ≠ -enoioctlcmd) :
    translatedIoctl rc = e ↔ rc = e := by
  unfold translatedIoctl
  split
  · next h =>
    rw [h]
    exact ⟨fun hx => absurd hx.symm he, fun hx => absurd hx.symm hc⟩
  · exact Iff.rfl

/-- Where nothing is copied back, only the translation of the return value is in the way. -/
theorem cmd_refines_of_same {n : Outcome Cmd Unit}
    (hn : ∀ w, nativeCmd dev file env w (getCompatCmd c) = n) (huser : n.user = getCompatCmd c)
    (hagain : n.ret = -eagain → w = true) :
    Refines narrowCmd (nativeCmd dev file env w (getCompatCmd c)) (compatCmd dev file env w c) ↔
      n.ret ≠ -enoioctlcmd := by
  have hrc : compatCmd dev file env w c = ⟨translatedIoctl n.ret, n.dev, n.calls, (), c⟩ := by
    unfold compatCmd
    dsimp only
    rw [hn]
    split
    · next hx =>
      rw [hagain ((translatedIoctl_eq_iff (by decide) (by decide)).mp hx), if_pos rfl, huser,
        putCompatCmd_getCompatCmd]
    · rfl
  rw [hn, hrc, ← translatedIoctl_eq]
  constructor
  · exact fun h => h.ret
  · intro h
    refine ⟨h, rfl, rfl, rfl, ?_⟩
    rw [huser, narrowCmd_getCompatCmd]

theorem nativeCmd_some (hatt : dev.attached = true)
    (hs : dev.subdevices[cmd.subdev.toNat]? = some s) (w : Bool) :
    nativeCmd dev file env w cmd =
      ⟨(doCmdIoctl dev.board s (env.req cmd w) file).1,
        { dev.set cmd.subdev.toNat (doCmdIoctl dev.board s (env.req cmd w) file).2.2.1 with
          board := (doCmdIoctl dev.board s (env.req cmd w) file).2.1 },
        (doCmdIoctl dev.board s (env.req cmd w) file).2.2.2.map (cmd.subdev.toNat, ·), (),
        cmdLeft s (env.req cmd w) file⟩ := by
  unfold nativeCmd
  rw [if_neg (not_not.mpr hatt), hs]

/-- A command that does not get to the test. -/
theorem nativeCmd_unreached (env : CmdEnv) (hatt : dev.attached = true)
    (hs : dev.subdevices[cmd.subdev.toNat]? = some s)
    (hr : reachedTest s (env.req cmd w) file = none) :
    ∃ n, (∀ w', nativeCmd dev file env w' cmd = n) ∧ n.user = cmd ∧ n.ret ≠ -eagain ∧
      n.ret ≠ -enoioctlcmd := by
  obtain ⟨r, hall, hne, hne'⟩ := doCmdIoctl_unreached (b := dev.board) hr
  refine ⟨⟨r.1, { dev.set cmd.subdev.toNat r.2.2.1 with board := r.2.1 },
    r.2.2.2.map (cmd.subdev.toNat, ·), (), cmd⟩, fun w' => ?_, rfl, hne, hne'⟩
  have hleft : cmdLeft s (env.req cmd w') file = cmd := by
    unfold cmdLeft
    change (match reachedTest s (env.req cmd w) file with
      | none => _
      | some a => _) = _
    rw [hr]
    rfl
  have hdo : doCmdIoctl dev.board s (env.req cmd w') file = r := hall w'
  rw [nativeCmd_some hatt hs, hdo, hleft]

/-- A command whose test fails; only what is left of it depends on whether it can be written. -/
theorem nativeCmd_fails (env : CmdEnv) (hatt : dev.attached = true)
    (hs : dev.subdevices[cmd.subdev.toNat]? = some s)
    (hr : reachedTest s (env.req cmd w) file = some a) (hf : TestFails env.test a) :
    ∃ dev' calls, ∀ w', nativeCmd dev file env w' cmd =
      ⟨if w' then -eagain else -efault, dev', calls, (),
        if w' then { (env.test.run a.cmd).2 with chanlist := cmd.chanlist, data := 0 } else cmd⟩ := by
  let r := cmdCleanup dev.board { s with async := some { a with cmd := (env.test.run a.cmd).2 } } 0
    [.doCmdtest a.cmd (env.test.run a.cmd).1 (env.test.run a.cmd).2]
  refine ⟨{ dev.set cmd.subdev.toNat r.2.2.1 with board := r.2.1 },
    r.2.2.2.map (cmd.subdev.toNat, ·), fun w' => ?_⟩
  have hr' : reachedTest s (env.req cmd w') file = some a := hr
  have hleft : cmdLeft s (env.req cmd w') file =
      if w' then { (env.test.run a.cmd).2 with chanlist := cmd.chanlist, data := 0 } else cmd := by
    unfold cmdLeft
    rw [hr']
    cases w' with
    | true => exact if_pos ⟨hf, rfl⟩
    | false => exact if_neg fun h => Bool.false_ne_true h.2
  rw [nativeCmd_some hatt hs, doCmdIoctl_reached hr', testCmd_fails hf, hleft]
  rfl

/-- A command that passes the test. -/
theorem nativeCmd_passes (env : CmdEnv) (hatt : dev.attached = true)
    (hs : dev.subdevices[cmd.subdev.toNat]? = some s)
    (hr : reachedTest s (env.req cmd w) file = some a) (hf : ¬ TestFails env.test a) :
    ∃ n, (∀ w', nativeCmd dev file env w' cmd = n) ∧ n.user = cmd ∧
      n.ret = if a.preallocBufsz = 0 then -enomem else env.start.ret := by
  let r := testCmd dev.board { s with async := some a } a (env.req cmd true) file
  refine ⟨⟨r.1, { dev.set cmd.subdev.toNat r.2.2.1 with board := r.2.1 },
    r.2.2.2.map (cmd.subdev.toNat, ·), (), cmd⟩, fun w' => ?_, rfl, (testCmd_passes hf true).2⟩
  have hr' : reachedTest s (env.req cmd w') file = some a := hr
  have hleft : cmdLeft s (env.req cmd w') file = cmd := by
    unfold cmdLeft
    rw [hr']
    exact if_neg fun h => hf h.1
  rw [nativeCmd_some hatt hs, doCmdIoctl_reached hr', (testCmd_passes hf w').1, hleft]

theorem cmd_refines_iff : Refines narrowCmd (nativeCmd dev file env w (getCompatCmd c))
    (compatCmd dev file env w c) ↔ CmdFits dev file env w c := by
  unfold CmdFits
  by_cases hatt : dev.attached = true
  swap
  · have hn : ∀ w, nativeCmd dev file env w (getCompatCmd c) =
        ⟨-enodev, dev, [], (), getCompatCmd c⟩ := fun w => if_pos hatt
    rw [cmd_refines_of_same hn rfl (fun h => absurd h (by change ¬ -enodev = -eagain; decide)), hn]
    exact ⟨fun h => ⟨h, fun s a ha => absurd ha hatt⟩, And.left⟩
  cases hs : dev.subdevices[c.subdev.toNat]? with
  | none =>
    have hn : ∀ w, nativeCmd dev file env w (getCompatCmd c) =
        ⟨-enodev, dev, [], (), getCompatCmd c⟩ := by
      intro w
      unfold nativeCmd
      rw [if_neg (not_not.mpr hatt)]
      change (match dev.subdevices[c.subdev.toNat]? with
        | none => _
        | some s => _) = _
      rw [hs]
    rw [cmd_refines_of_same hn rfl (fun h => absurd h (by change ¬ -enodev = -eagain; decide)), hn]
    exact ⟨fun h => ⟨h, fun s a _ hx => absurd hx (by simp)⟩, And.left⟩
  | some s =>
    have hreach : ∀ w', reachedTest s (env.req (getCompatCmd c) w') file =
        reachedTest s (env.req (getCompatCmd c) w) file := fun _ => rfl
    cases hr : reachedTest s (env.req (getCompatCmd c) w) file with
    | none =>
      obtain ⟨n, hn, huser, hne, hne'⟩ := nativeCmd_unreached env hatt hs hr
      rw [cmd_refines_of_same hn huser (fun h => absurd h hne), hn]
      refine ⟨fun h => ⟨h, fun s' a _ hs' hx => ?_⟩, And.left⟩
      cases hs'
      cases hr.symm.trans hx
    | some a =>
      have hsole : ∀ P : Async → Prop, (∀ s' a', dev.attached = true → some s = some s' →
          reachedTest s' (env.req (getCompatCmd c) w) file = some a' → P a') ↔ P a := by
        intro P
        refine ⟨fun h => h s a hatt rfl hr, fun h s' a' _ hs' hx => ?_⟩
        cases hs'
        cases hr.symm.trans hx
        exact h
      rw [hsole]
      by_cases hf : TestFails env.test a
      · obtain ⟨dev', calls, hn⟩ := nativeCmd_fails env hatt hs hr hf
        have hc : compatCmd dev file env w c = if w then
            ⟨-eagain, dev', calls, (), putCompatCmd c { (env.test.run a.cmd).2 with
              chanlist := chanlistPtr c.chanlist, data := 0 }⟩
            else ⟨-efault, dev', calls, (), c⟩ := by
          unfold compatCmd
          rw [hn true]
          rfl
        rw [hc, hn]
        cases w with
        | true =>
          have hput := putCompatCmd_eq_narrowCmd c { (env.test.run a.cmd).2 with
            chanlist := chanlistPtr c.chanlist, data := 0 }
          rw [chanlistToCompat_chanlistPtr] at hput
          constructor
          · intro h
            exact ⟨by change -eagain ≠ -enoioctlcmd; decide,
              fun _ _ => (hput.mp h.user).2, fun hp => absurd hf hp⟩
          · rintro ⟨-, h, -⟩
            exact ⟨rfl, rfl, rfl, rfl, hput.mpr ⟨rfl, h hf rfl⟩⟩
        | false =>
          constructor
          · intro _
            exact ⟨by change -efault ≠ -enoioctlcmd; decide, fun _ h => absurd h Bool.false_ne_true,
              fun hp => absurd hf hp⟩
          · intro _
            exact ⟨rfl, rfl, rfl, rfl, (narrowCmd_getCompatCmd c).symm⟩
      · obtain ⟨n, hn, huser, hret⟩ := nativeCmd_passes env hatt hs hr hf
        by_cases hagain : n.ret = -eagain → w = true
        · rw [cmd_refines_of_same hn huser hagain, hn]
          refine ⟨fun h => ⟨h, fun hp => absurd hp hf, fun _ hz hx => hagain ?_⟩, And.left⟩
          rw [hret, if_neg hz, hx]
        · obtain ⟨hx, hw⟩ := Classical.not_imp.mp hagain
          have hc : (compatCmd dev file env w c).ret = -efault := by
            unfold compatCmd
            rw [hn]
            dsimp only
            rw [if_pos ((translatedIoctl_eq_iff (by decide) (by decide)).mpr hx), if_neg hw]
          constructor
          · intro h
            rw [hn] at h
            exact absurd (hc.symm.trans (h.ret.trans hx)) (by decide)
          · rintro ⟨-, -, h⟩
            have hz : a.preallocBufsz ≠ 0 := by
              intro hz
              rw [hret, if_pos hz] at hx
              exact absurd hx (by decide)
            rw [hret, if_neg hz] at hx
            exact absurd (h hf hz hx) hw

theorem translatedIoctl_neg {rc : Int} : translatedIoctl rc < 0 ↔ rc < 0 := by
  unfold translatedIoctl
  split
  · next h =>
    rw [h]
    decide
  · exact Iff.rfl

/-- The errors of `do_cmdtest_ioctl` before the test. -/
theorem cmdtestArg_error {env : CmdtestEnv} {e : Int} (h : cmdtestArg s env cmd = .error e) :
    e < 0 ∧ e ≠ -enoioctlcmd := by
  unfold cmdtestArg at h
  split at h
  · cases h
    decide
  split at h
  · cases h
    decide
  split at h
  · cases h
    decide
  split at h
  · cases h
  split at h
  · cases h
    decide
  split at h
  · cases h
    decide
  next f _ =>
  dsimp only at h
  split at h
  · next hneg =>
    cases h
    rcases checkChanlist_ret s ((List.range cmd.chanlistLen.toNat).map f) with hz | hz
    · rw [hz] at hneg
      exact absurd hneg (lt_irrefl _)
    · rw [hz]
      decide
  · cases h

/-- A command that is not tested. -/
theorem cmdtest_refines_of_untested {env : CmdtestEnv} {e : Int} (he : e < 0 ∧ e ≠ -enoioctlcmd)
    (hn : ∀ w, nativeCmdtest dev env w (getCompatCmd c) = ⟨e, dev, [], (), getCompatCmd c⟩) :
    Refines narrowCmd (nativeCmdtest dev env w (getCompatCmd c))
      (compatCmdtest dev env w c) := by
  have hrc : compatCmdtest dev env w c = ⟨e, dev, [], (), c⟩ := by
    unfold compatCmdtest
    rw [hn]
    dsimp only
    rw [translatedIoctl_eq.mpr he.2, if_pos he.1]
  rw [hn, hrc]
  exact ⟨rfl, rfl, rfl, rfl, (narrowCmd_getCompatCmd c).symm⟩

theorem cmdtest_refines_iff {env : CmdtestEnv} :
    Refines narrowCmd (nativeCmdtest dev env w (getCompatCmd c)) (compatCmdtest dev env w c) ↔
      CmdtestFits dev env w c := by
  unfold CmdtestFits
  have hdev : -enodev < 0 ∧ -enodev ≠ -enoioctlcmd := by decide
  by_cases hatt : dev.attached = true
  swap
  · refine iff_of_true (cmdtest_refines_of_untested hdev fun w => if_pos hatt) ?_
    exact fun s arg ha => absurd ha hatt
  have hstart : ∀ w, nativeCmdtest dev env w (getCompatCmd c) =
      match dev.subdevices[c.subdev.toNat]? with
      | none => ⟨-enodev, dev, [], (), getCompatCmd c⟩
      | some s =>
        match cmdtestArg s env (getCompatCmd c) with
        | .error e => ⟨e, dev, [], (), getCompatCmd c⟩
        | .ok arg =>
          if w then ⟨(env.test arg).1, dev,
            [(c.subdev.toNat, Call.doCmdtest arg (env.test arg).1 (env.test arg).2)], (),
            { (env.test arg).2 with chanlist := chanlistPtr c.chanlist }⟩
          else ⟨-efault, dev, [(c.subdev.toNat, Call.doCmdtest arg (env.test arg).1
            (env.test arg).2)], (), getCompatCmd c⟩ := fun w => if_neg (not_not.mpr hatt)
  cases hs : dev.subdevices[c.subdev.toNat]? with
  | none =>
    rw [hs] at hstart
    refine iff_of_true (cmdtest_refines_of_untested hdev hstart) ?_
    rintro s arg - ⟨⟩
  | some s =>
    rw [hs] at hstart
    dsimp only at hstart
    cases harg : cmdtestArg s env (getCompatCmd c) with
    | error e =>
      rw [harg] at hstart
      refine iff_of_true (cmdtest_refines_of_untested (cmdtestArg_error harg) hstart) ?_
      rintro s' arg - ⟨⟩ hx
      cases harg.symm.trans hx
    | ok arg =>
      rw [harg] at hstart
      dsimp only at hstart
      have hsole : ∀ P : Cmd → Prop, (∀ s' arg', dev.attached = true → some s = some s' →
          cmdtestArg s' env (getCompatCmd c) = .ok arg' → P arg') ↔ P arg := by
        intro P
        refine ⟨fun h => h s arg hatt rfl harg, fun h s' arg' _ hs' hx => ?_⟩
        cases hs'
        cases harg.symm.trans hx
        exact h
      rw [hsole]
      generalize env.test arg = r at hstart ⊢
      obtain ⟨ret, tested⟩ := r
      have hc : compatCmdtest dev env w c =
          if translatedIoctl ret < 0 then ⟨translatedIoctl ret, dev,
            [(c.subdev.toNat, Call.doCmdtest arg ret tested)], (), c⟩
          else if w then ⟨translatedIoctl ret, dev,
            [(c.subdev.toNat, Call.doCmdtest arg ret tested)], (),
            putCompatCmd c { tested with chanlist := chanlistPtr c.chanlist }⟩
          else ⟨-efault, dev, [(c.subdev.toNat, Call.doCmdtest arg ret tested)], (), c⟩ := by
        unfold compatCmdtest
        rw [hstart true]
        rfl
      rw [hc, hstart w]
      have hput := putCompatCmd_eq_narrowCmd c { tested with chanlist := chanlistPtr c.chanlist }
      rw [chanlistToCompat_chanlistPtr] at hput
      have hfault : translatedIoctl ret = -efault ↔ ret = -efault :=
        translatedIoctl_eq_iff (by decide) (by decide)
      simp only [translatedIoctl_neg]
      by_cases hneg : ret < 0
      · rw [if_pos hneg]
        cases w with
        | true =>
          constructor
          · intro h
            refine ⟨fun _ => ⟨translatedIoctl_eq.mp h.ret, fun _ => h.user.symm, ?_⟩, nofun⟩
            exact fun hpos => absurd hneg (not_lt.mpr hpos)
          · rintro ⟨h, -⟩
            obtain ⟨hne, hsame, -⟩ := h rfl
            exact ⟨translatedIoctl_eq.mpr hne, rfl, rfl, rfl, (hsame hneg).symm⟩
        | false =>
          constructor
          · intro h
            exact ⟨nofun, fun _ _ => hfault.mp h.ret⟩
          · rintro ⟨-, h⟩
            exact ⟨hfault.mpr (h rfl hneg), rfl, rfl, rfl, (narrowCmd_getCompatCmd c).symm⟩
      · have hne : ret ≠ -enoioctlcmd := by
          intro h
          rw [h] at hneg
          exact hneg (by decide)
        rw [if_neg hneg]
        cases w with
        | true =>
          constructor
          · intro h
            exact ⟨fun _ => ⟨hne, fun hx => absurd hx hneg, fun _ => (hput.mp h.user).2.symm⟩, nofun⟩
          · rintro ⟨h, -⟩
            have hdata := (h rfl).2.2 (not_lt.mp hneg)
            exact ⟨translatedIoctl_eq.mpr hne, rfl, rfl, rfl, hput.mpr ⟨rfl, hdata.symm⟩⟩
        | false =>
          constructor
          · intro _
            exact ⟨nofun, fun _ hx => absurd hx hneg⟩
          · intro _
            exact ⟨rfl, rfl, rfl, rfl, (narrowCmd_getCompatCmd c).symm⟩

theorem nativeInsn_user (dev : Device) (file : File) (env : InsnEnv) (insn : Insn) :
    (nativeInsn dev file env insn).user = insn := by
  unfold nativeInsn
  split
  · rfl
  · rfl

theorem nativeInsnlist_user (dev : Device) (file : File) (env : InsnEnv) (insns : List Insn) :
    (nativeInsnlist dev file env insns).user = insns := by
  unfold nativeInsnlist
  split
  · rfl
  · rfl

theorem map_narrowInsn_getCompatInsn (l : List Insn32) :
    (l.map getCompatInsn).map narrowInsn = l := by
  induction l with
  | nil => rfl
  | cons i l ih => rw [List.map_cons, List.map_cons, narrowInsn_getCompatInsn, ih]

/-- A 32-bit request refines the native one exactly where it fits. -/
theorem compat_refines_iff (dev : Device) (file : File) (r : Request32) :
    CompatRefines dev file r ↔ CompatFits dev file r := by
  cases r with
  | chaninfo copied c =>
    have huser : (nativeChaninfo dev copied (widenChaninfo c)).user = widenChaninfo c := by
      unfold nativeChaninfo
      split
      · rfl
      · rfl
    refine iff_of_true ?_ trivial
    exact (compatRead_refines_iff c huser (narrowChaninfo_widenChaninfo c)).mpr
      (nativeChaninfo_ret copied _)
  | rangeinfo copied r =>
    have huser : (nativeRangeinfo dev copied (widenRangeinfo r)).user = widenRangeinfo r := by
      unfold nativeRangeinfo
      split
      · rfl
      · split
        · rfl
        · rfl
    refine iff_of_true ?_ trivial
    exact (compatRead_refines_iff r huser (narrowRangeinfo_widenRangeinfo r)).mpr
      (nativeRangeinfo_ret copied _)
  | cmd env w c => exact cmd_refines_iff
  | cmdtest env w c => exact cmdtest_refines_iff
  | insn env i =>
    exact compatRead_refines_iff i (nativeInsn_user dev file env _) (narrowInsn_getCompatInsn i)
  | insnlist env l =>
    exact compatRead_refines_iff l (nativeInsnlist_user dev file env _)
      (map_narrowInsn_getCompatInsn l)

/-- A driver's test that rejects everything at its first stage and changes nothing. -/
def rejecting : CmdTest where
  run cmd := (1, cmd)
  chanlist_eq _ := rfl
  chanlistLen_eq _ h := absurd (show (1 : Int) = 0 from h) (by decide)

def sampling : Device where
  subdevices := [{
    nChan := 8
    async := some { preallocBufsz := 65536 }
    rangeTable := some { length := 1 } }]

def rejectedCmd : Cmd32 := { chanlist := 4096, chanlistLen := 1, data := 8192 }

def rejectedEnv : CmdEnv := { entries := fun _ => some fun _ => 0, test := rejecting }

def failingTest : CmdtestEnv where
  entries _ := some fun _ => 0
  test cmd := (-einval, { cmd with stopArg := 7 })

/-- A command that the driver rejects leaves a NULL `data` in the native structure and the user's in
the 32-bit one; a test that returns an error has its changes copied back in the native structure
only. -/
theorem rejected_data_differs :
    ((compatCmd sampling 0 rejectedEnv true rejectedCmd).ret = -eagain ∧
      (compatCmd sampling 0 rejectedEnv true rejectedCmd).user.data = 8192 ∧
      (nativeCmd sampling 0 rejectedEnv true (getCompatCmd rejectedCmd)).user.data = 0 ∧
      ¬ CompatRefines sampling 0 (.cmd rejectedEnv true rejectedCmd)) ∧
      (compatCmdtest sampling failingTest true rejectedCmd).user.stopArg = 0 ∧
      (nativeCmdtest sampling failingTest true (getCompatCmd rejectedCmd)).user.stopArg = 7 ∧
      ¬ CompatRefines sampling 0 (.cmdtest failingTest true rejectedCmd) := by
  refine ⟨⟨rfl, rfl, rfl, fun h => ?_⟩, rfl, rfl, fun h => ?_⟩
  · exact absurd (congrArg Cmd32.data h.user) (by decide)
  · exact absurd (congrArg Cmd32.stopArg h.user) (by decide)

end Comedi.Compat32
