import Comedi.Instructions
import Comedi.Requests

namespace Comedi.Kcomedilib

open AsyncBuffer ChanlistCheck RunState Requests Instructions Function

/-- The command of a kernel client, with the flag for those who want to be woken at the end of
every scan. -/
def clientCmd (a : Async) (cmd : Cmd) : Cmd :=
  if a.cbMask &&& comediCbEos ≠ 0 then { cmd with flags := cmd.flags ||| trigWakeEos } else cmd

/-- The subdevice as `do_cmd` finds it. -/
def clientStarted (b : Board) (s : Subdevice) (a : Async) (cmd : Cmd) : Board × Subdevice :=
  let (ret, b) := comediSwitchToRt b
  let s := { s with busy := some .kernel, async := some { a with cmd := clientCmd a cmd } }
  let s := comediSetSubdeviceRunflags s (~~~0) (srfRunning ||| if ret = 0 then srfRt else 0)
  (b, { s with async := s.async.map comediResetAsyncBuf })

def comediCommand (b : Board) (s : Subdevice) (cmd : Cmd) (ans : Answer) :
    Int × Board × Subdevice × List Call :=
  if s.type = .unused then (-eio, b, s, [])
  else
    match s.async with
    | none => (-enodev, b, s, [])
    | some a =>
      if s.busy.isSome then (-ebusy, b, s, [])
      else
        let (b, s) := clientStarted b s a cmd
        (ans.ret, b, setInttrig s ans.inttrig, [.doCmd s])

/-- What `comedi_cancel` does once the driver has stopped. -/
def clientStopped (b : Board) (s : Subdevice) : Board × Subdevice :=
  let b := if s.runflags &&& srfRt ≠ 0 then comediSwitchToNonRt b else b
  let s := comediSetSubdeviceRunflags s (srfRunning ||| srfRt) 0
  (b, { setInttrig s none with busy := none })

/-- The test of the owner is switched off in the source. -/
def comediCancel (b : Board) (s : Subdevice) (ans : Answer) : Int × Board × Subdevice × List Call :=
  if s.lockedOutOfKernel then (-eacces, b, s, [])
  else if ¬ s.cancel ∨ s.async.isNone then (-einval, b, s, [])
  else if ans.ret ≠ 0 then (ans.ret, b, setInttrig s ans.inttrig, [.cancel])
  else
    let (b, s) := clientStopped b (setInttrig s ans.inttrig)
    (0, b, s, [.cancel])

/-- The callbacks behind `comedi_do_insn`, which checks no lengths and no values. -/
def clientRun (s : Subdevice) (req : InsnReq) (data : Nat → U32) : Int × (Nat → U32) × List Call :=
  let insn := req.insn
  if insn.insn = insnRead then callRw s.insnRead .insnRead s insn req.answer data
  else if insn.insn = insnWrite then callRw s.insnWrite .insnWrite s insn req.answer data
  else if insn.insn = insnBits then callBits s req.answer data
  else if insn.insn = insnConfig then callConfig s req.answer data
  else (-einval, data, [])

def clientInsn (s : Subdevice) (req : InsnReq) (data : Nat → U32) :
    Int × (Nat → U32) × Subdevice × List Call :=
  if s.type = .unused then (-eio, data, s, [])
  else if checkChanlist s [req.insn.chanspec] < 0 then (-einval, data, s, [])
  else if s.busy.isSome then (-ebusy, data, s, [])
  else
    let r := clientRun { s with busy := some .kernel } req data
    (r.1, r.2.1, { s with busy := none }, r.2.2)

def clientSpecial (dev : Device) (req : InsnReq) (data : Nat → U32) : Parsed :=
  let insn := req.insn
  if insn.insn = insnGtod then ⟨2, update (update data 0 req.now.1) 1 req.now.2, dev, []⟩
  else if insn.insn = insnWait then
    if insn.n ≠ 1 ∨ 100 ≤ data 0 then ⟨-einval, data, dev, []⟩ else ⟨1, data, dev, []⟩
  else if insn.insn = insnInttrig then
    if insn.n ≠ 1 then ⟨-einval, data, dev, []⟩
    else
      let k := insn.subdev.toNat
      match dev.subdevices[k]? with
      | none => ⟨-einval, data, dev, []⟩
      | some s =>
        let r := inttrigInsn s (data 0) req.trig
        ⟨r.1, data, dev.set k r.2.1, r.2.2.map (k, ·)⟩
  else ⟨-einval, data, dev, []⟩

def comediDoInsn (dev : Device) (req : InsnReq) (data : Nat → U32) : Parsed :=
  if req.insn.insn &&& insnMaskSpecial ≠ 0 then clientSpecial dev req data
  else
    let k := req.insn.subdev.toNat
    match dev.subdevices[k]? with
    | none => ⟨-einval, data, dev, []⟩
    | some s =>
      let r := clientInsn s req data
      ⟨r.1, r.2.1, dev.set k r.2.2.1, r.2.2.2.map (k, ·)⟩

def comediLock (s : Subdevice) : Int × Subdevice :=
  if s.busy.isSome ∨ s.lock.isSome then (-ebusy, s) else (0, { s with lock := some .kernel })

def comediUnlock (s : Subdevice) : Int × Subdevice :=
  if s.busy.isSome then (-ebusy, s)
  else if s.lockedOutOfKernel then (-eacces, s)
  else
    (0, { s with
      lock := none
      async := s.async.map fun a => { a with cbMask := 0, cbFunc := none } })

end Comedi.Kcomedilib
