import Comedi.ChanlistCheck
import Comedi.RunState

namespace Comedi.Requests

open AsyncBuffer ChanlistCheck RunState

/-- A driver's `do_cmdtest`: what it returns and what it makes of the command. It leaves the
pointer to the channel list alone, and the length too when it accepts the command. -/
structure CmdTest where
  run : Cmd → Int × Cmd
  chanlist_eq : ∀ cmd, (run cmd).2.chanlist = cmd.chanlist
  chanlistLen_eq : ∀ cmd, (run cmd).1 = 0 → (run cmd).2.chanlistLen = cmd.chanlistLen

/-- A test that accepts every command as it is. -/
def CmdTest.accepting : CmdTest := ⟨fun cmd => (0, cmd), fun _ => rfl, fun _ _ => rfl⟩

/-- A `COMEDI_CMD` request whose structure was read: the command, whether `kmalloc` succeeds,
the channel list in the user's memory (`none` where it faults), the driver's test, whether the
user's memory takes the command back, and what `do_cmd` answers. -/
structure CmdReq where
  cmd : Cmd
  allocOk : Bool := true
  entries : Option (Nat → U32)
  test : CmdTest
  copyBack : Bool := true
  start : Answer := {}

/-- The error with which `do_cmd_ioctl` refuses a command before it touches the subdevice. -/
def cmdRefusal (s : Subdevice) (cmd : Cmd) (file : File) : Option Int :=
  if s.type = .unused then some (-eio)
  else if ¬ s.doCmd ∨ ¬ s.doCmdtest ∨ s.async.isNone then some (-eio)
  else if s.lockedOut file then some (-eacces)
  else if s.busy.isSome then some (-ebusy)
  else if s.lenChanlist.val < cmd.chanlistLen.toNat then some (-einval)
  else if cmd.chanlistLen < 1 then some (-einval)
  else none

/-- The label `cleanup` of `do_cmd_ioctl`. -/
def cmdCleanup (b : Board) (s : Subdevice) (ret : Int) (calls : List Call) :
    Int × Board × Subdevice × List Call :=
  (ret, (doBecomeNonbusy b s).1, (doBecomeNonbusy b s).2,
    calls ++ [.becomeNonbusy s.busy s.runflags])

/-- The user's command in `async->cmd`, with a channel list that was allocated for it. -/
def loadCmd (a : Async) (cmd : Cmd) (entries : List U32) : Async :=
  { a with
    cmd := { cmd with data := 0, chanlist := .kernel entries }
    chanlistAllocs := a.chanlistAllocs + 1 }

def wakeMask (cmd : Cmd) : U32 :=
  comediCbEoa ||| comediCbBlock ||| comediCbError ||| comediCbOverflow |||
    if cmd.flags &&& trigWakeEos ≠ 0 then comediCbEos else 0

/-- The switch to real time that `TRIG_RT` asks for. -/
def switchForCmd (b : Board) (s : Subdevice) (cmd : Cmd) : Board × Subdevice :=
  if cmd.flags &&& trigRt ≠ 0 then
    let (ret, b) := comediSwitchToRt b
    (b, if ret = 0 then comediSetSubdeviceRunflags s srfRt srfRt else s)
  else (b, s)

/-- The subdevice as `do_cmd` finds it. -/
def startedSubdevice (b : Board) (s : Subdevice) (a : Async) (owner : Owner) : Board × Subdevice :=
  let s := { s with async := some { comediResetAsyncBuf a with cbMask := wakeMask a.cmd } }
  let s := comediSetSubdeviceRunflags s (~~~0) (srfUser ||| srfRunning)
  let (b, s) := switchForCmd b s a.cmd
  (b, { s with busy := some owner })

def startCmd (b : Board) (s : Subdevice) (a : Async) (file : File) (ans : Answer) :
    Int × Board × Subdevice × List Call :=
  let (b, s) := startedSubdevice b s a (.file file)
  let s' := setInttrig s ans.inttrig
  if ans.ret = 0 then (0, b, s', [.doCmd s]) else cmdCleanup b s' ans.ret [.doCmd s]

/-- `do_cmd_ioctl` from the point where the command lies in kernel memory. -/
def testCmd (b : Board) (s : Subdevice) (a : Async) (req : CmdReq) (file : File) :
    Int × Board × Subdevice × List Call :=
  let (ret, cmd) := req.test.run a.cmd
  let a' := { a with cmd := cmd }
  let s' := { s with async := some a' }
  let calls := [Call.doCmdtest a.cmd ret cmd]
  if cmd.flags &&& trigBogus ≠ 0 ∨ ret ≠ 0 then
    cmdCleanup b s' (if req.copyBack then -eagain else -efault) calls
  else if a'.preallocBufsz = 0 then cmdCleanup b s' (-enomem) calls
  else
    let (ret, b, s, calls') := startCmd b s' a' file req.start
    (ret, b, s, calls ++ calls')

/-- `do_cmd_ioctl` from the point where the subdevice is known. -/
def doCmdIoctl (b : Board) (s : Subdevice) (req : CmdReq) (file : File) :
    Int × Board × Subdevice × List Call :=
  match cmdRefusal s req.cmd file, s.async with
  | some e, _ => (e, b, s, [])
  | none, none => (-eio, b, s, [])
  | none, some a =>
    if ¬ req.allocOk then
      (-enomem, b,
        { s with async := some { a with cmd := { req.cmd with data := 0, chanlist := .null } } }, [])
    else
      match req.entries with
      | none => cmdCleanup b { s with async := some (loadCmd a req.cmd []) } (-efault) []
      | some f =>
        let entries := (List.range req.cmd.chanlistLen.toNat).map f
        let a := loadCmd a req.cmd entries
        let s := { s with async := some a }
        if checkChanlist s entries < 0 then cmdCleanup b s (checkChanlist s entries) []
        else testCmd b s a req file

def doLockIoctl (s : Subdevice) (file : File) : Int × Subdevice :=
  if s.busy.isSome ∨ s.lock.isSome then (-ebusy, s)
  else (0, { s with lock := some (.file file) })

def doUnlockIoctl (s : Subdevice) (file : File) : Int × Subdevice :=
  if s.busy.isSome then (-ebusy, s)
  else if s.lockedOut file then (-eacces, s)
  else if s.lock = some (.file file) then (0, { s with lock := none })
  else (0, s)

def doCancelIoctl (b : Board) (s : Subdevice) (ans : Answer) (file : File) :
    Int × Board × Subdevice × List Call :=
  if s.async.isNone then (-einval, b, s, [])
  else if s.lockedOut file then (-eacces, b, s, [])
  else
    match s.busy with
    | none => (0, b, s, [])
    | some o =>
      if o ≠ .file file then (-ebusy, b, s, [])
      else
        let (ret, b, s, calls) := doCancel b s ans
        (ret, b, s, calls ++ if s.runflags &&& srfUser ≠ 0 then [.wakeUp] else [])

def doPollIoctl (s : Subdevice) (ret : Int) (file : File) : Int × List Call :=
  if s.lockedOut file then (-eacces, [])
  else
    match s.busy with
    | none => (0, [])
    | some o =>
      if o ≠ .file file then (-ebusy, [])
      else if s.poll then (ret, [.poll])
      else (-einval, [])

/-- What `comedi_close` does to one subdevice. -/
def closeSubdevice (b : Board) (s : Subdevice) (ans : Answer) (file : File) :
    Board × Subdevice × List Call :=
  let (b, s, calls) :=
    if s.busy = some (.file file) then (doCancel b s ans).2 else (b, s, [])
  (b, if s.lock = some (.file file) then { s with lock := none } else s, calls)

end Comedi.Requests
