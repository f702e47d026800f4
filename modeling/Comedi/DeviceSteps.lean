import Comedi.Bufinfo
import Comedi.GuardedRuns
import Comedi.Kcomedilib
import Comedi.Poll

namespace Comedi.DeviceSteps

open RunState Requests Instructions ReadWrite Bufinfo Kcomedilib Poll

/-- What a process can ask for through an open file, with all that the user's memory, the
allocator and the driver answer. -/
inductive Request where
  | insn (req : InsnReq) (allocOk : Bool) (mem : Nat → U32)
  | insnlist (insns : Option (List InsnReq)) (allocInsns allocData : Bool) (mem : Nat → U32)
  | cmd (req : CmdReq)
  | cancel (k : Nat) (ans : Answer)
  | poll (k : Nat) (ret : Int)
  | bufinfo (bi : Info) (copyTo : Bool)
  | lock (k : Nat)
  | unlock (k : Nat)
  | read (k : Nat) (nbytes : Count) (nonblock : Bool) (missed : U32)
  | write (k : Nat) (nbytes : Count) (nonblock : Bool) (missed : U32) (data : List Byte)

abbrev Effect := Board → Subdevice → Result (Board × Subdevice × List Call)

/-- Something that is done to subdevice `k` of the device, if it has one. -/
def onSubdevice (dev : Device) (k : Nat) (f : Effect) : Result (Device × List (Nat × Call)) :=
  match dev.subdevices[k]? with
  | none => .ok (dev, [])
  | some s => do
    let (b, s, calls) ← f dev.board s
    return ({ dev.set k s with board := b }, calls.map (k, ·))

def bufinfoEffect (bi : Info) (file : File) (copyTo : Bool) : Effect := fun b s => do
  let (_, _, b, s) ← doBufinfoIoctl b s bi file copyTo
  return (b, s, [])

def readEffect (call : IoCall) : Effect := fun b s => do
  let (_, _, s) ← readEnter s call
  return (b, s, [])

def writeEffect (call : IoCall) (data : List Byte) : Effect := fun b s => do
  let (_, s) ← writeEnter s call data
  return (b, s, [])

/-- What a request does to the device, up to where it returns or sleeps. -/
def perform (dev : Device) (file : File) : Request → Result (Device × List (Nat × Call))
  | .insn req allocOk mem =>
    let r := doInsnIoctl dev req allocOk file mem
    .ok (r.dev, r.calls)
  | .insnlist insns allocInsns allocData mem =>
    let r := doInsnlistIoctl dev insns allocInsns allocData file mem
    .ok (r.dev, r.calls)
  | .cmd req => onSubdevice dev req.cmd.subdev.toNat fun b s => .ok (doCmdIoctl b s req file).2
  | .cancel k ans => onSubdevice dev k fun b s => .ok (doCancelIoctl b s ans file).2
  | .poll k ret => onSubdevice dev k fun b s => .ok (b, s, (doPollIoctl s ret file).2)
  | .bufinfo bi copyTo => onSubdevice dev bi.subdevice.toNat (bufinfoEffect bi file copyTo)
  | .lock k => onSubdevice dev k fun b s => .ok (b, (doLockIoctl s file).2, [])
  | .unlock k => onSubdevice dev k fun b s => .ok (b, (doUnlockIoctl s file).2, [])
  | .read k nbytes nonblock missed => onSubdevice dev k (readEffect ⟨file, nbytes, nonblock, missed⟩)
  | .write k nbytes nonblock missed data =>
    onSubdevice dev k (writeEffect ⟨file, nbytes, nonblock, missed⟩ data)

/-- Everything else that happens to a device: a call goes on after having slept or waited, a
file is closed or polled, the driver uses its buffer and signals events, and kernel clients. -/
inductive Step where
  | request (file : File) (r : Request)
  | readWake (k : Nat) (call : IoCall) (signal : Bool)
  | readRelease (k : Nat)
  | readPost (k : Nat) (ret : Int)
  | writeWake (k : Nat) (call : IoCall) (data : List Byte) (signal : Bool)
  | writeRelease (k : Nat)
  | close (file : File) (ans : Nat → Answer)
  | pollFile (info : FileInfo)
  | driver (k : Nat) (f : Async → Async)
  | event (k : Nat)
  | kernelCommand (k : Nat) (cmd : Cmd) (ans : Answer)
  | kernelCancel (k : Nat) (ans : Answer)
  | kernelInsn (req : InsnReq) (data : Nat → U32)
  | kernelLock (k : Nat)
  | kernelUnlock (k : Nat)

/-- The loop of `comedi_close` from subdevice number `i` on. -/
def closeLoop (file : File) (ans : Nat → Answer) : Nat → Board → List Subdevice → Board × List Subdevice
  | _, b, [] => (b, [])
  | i, b, s :: ss =>
    let (b, s, _) := closeSubdevice b s (ans i) file
    let (b, ss) := closeLoop file ans (i + 1) b ss
    (b, s :: ss)

def comediClose (dev : Device) (file : File) (ans : Nat → Answer) : Device :=
  let (b, ss) := closeLoop file ans 0 dev.board dev.subdevices
  { dev with board := b, subdevices := ss }

def step (dev : Device) : Step → Result Device
  | .request file r => (·.1) <$> perform dev file r
  | .readWake k call signal => (·.1) <$> onSubdevice dev k fun b s => do
    let (_, _, s) ← ReadWrite.readWake s call signal
    return (b, s, [])
  | .readRelease k => (·.1) <$> onSubdevice dev k fun b s => .ok (ReadWrite.readRelease b s).2
  | .readPost k ret => (·.1) <$> onSubdevice dev k fun b s => .ok (ReadWrite.readPost b s ret).2
  | .writeWake k call data signal => (·.1) <$> onSubdevice dev k fun b s => do
    let (_, s) ← ReadWrite.writeWake s call data signal
    return (b, s, [])
  | .writeRelease k => (·.1) <$> onSubdevice dev k fun b s => .ok (ReadWrite.writeRelease b s).2
  | .close file ans => .ok (comediClose dev file ans)
  | .pollFile info => .ok (comediPoll dev info).2
  | .driver k f => (·.1) <$> onSubdevice dev k fun b s =>
    .ok (b, { s with async := s.async.map f }, [])
  | .event k => (·.1) <$> onSubdevice dev k fun b s => .ok (b, comediEvent b s)
  | .kernelCommand k cmd ans => (·.1) <$> onSubdevice dev k fun b s =>
    .ok (comediCommand b s cmd ans).2
  | .kernelCancel k ans => (·.1) <$> onSubdevice dev k fun b s => .ok (comediCancel b s ans).2
  | .kernelInsn req data => .ok (comediDoInsn dev req data).dev
  | .kernelLock k => (·.1) <$> onSubdevice dev k fun b s => .ok (b, (comediLock s).2, [])
  | .kernelUnlock k => (·.1) <$> onSubdevice dev k fun b s => .ok (b, (comediUnlock s).2, [])

/-- A device that was just attached: nobody has locked or started anything. -/
def Fresh (dev : Device) : Prop := ∀ s ∈ dev.subdevices, s.lock = none ∧ s.busy = none

def Reachable (dev : Device) : Prop :=
  ∃ dev₀ steps, Fresh dev₀ ∧ GuardedRuns.run step dev₀ steps = .ok dev

end Comedi.DeviceSteps
