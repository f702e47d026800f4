import Comedi.RunState

namespace Comedi.ReadWrite

open AsyncBuffer RunState

/-- A call of `comedi_read` or `comedi_write` on an open file. The kernel cuts the size of a
call to what an `int` can hold. `missed` is what the copy from or to the user does not get
across. -/
structure IoCall where
  file : File
  nbytes : Count
  nonblock : Bool := false
  missed : U32 := 0

/-- Where a call stands when something else can run: in `schedule()`, waiting for `dev->mutex`
in the loop, waiting for it behind the loop, or done. -/
inductive Pc where
  | asleep
  | releaseLock
  | postLock (ret : Int)
  | returned (ret : Int)
  deriving DecidableEq, Repr

/-- `count ? count : retval`. -/
def result (count : U32) (retval : Int) : Int := if count ≠ 0 then count.toInt else retval

/-- Behind the loop of `comedi_read`. -/
def readTail (s : Subdevice) (count : U32) (retval : Int) : Pc :=
  if s.runflags &&& (srfError ||| srfRunning) = 0 then .postLock (result count retval)
  else .returned (result count retval)

/-- The bytes that one pass of the loop of `comedi_read` can take: at most `nbytes`, and not
across the end of the buffer. -/
def readContiguous (a : Async) (nbytes : U32) : U32 :=
  let m := comediBufReadNAvailable a
  let m := if a.preallocBufsz < a.bufReadPtr + m then a.preallocBufsz - a.bufReadPtr else m
  if m.toInt < nbytes.toInt then m else nbytes

/-- The transfer to the user. -/
def readTransfer (a : Async) (n : U32) : Result (List Byte × Async) := do
  let bytes := readBlock a.preallocBuf a.bufReadPtr.toNat n.toNat
  let (_, a) := comediBufReadAlloc a n
  let (_, a) ← comediBufReadFree a n
  return (bytes, a)

/-- The loop of `comedi_read` from its head on, up to where the call sleeps, waits or returns.
There is no second pass without sleeping in between. -/
def readLoop (s : Subdevice) (a : Async) (call : IoCall) : Result (Pc × List Byte × Async) :=
  let n := readContiguous a (.ofNat 32 call.nbytes)
  if n = 0 then
    if s.runflags &&& srfRunning = 0 then .ok (.releaseLock, [], a)
    else if call.nonblock then .ok (readTail s 0 (-eagain), [], a)
    else .ok (.asleep, [], a)
  else do
    let m := if call.missed ≤ n then call.missed else n
    let (bytes, a) ← readTransfer a (n - m)
    return (readTail s (n - m) (if m ≠ 0 then -efault else 0), bytes, a)

/-- A call of `comedi_read` up to its first stop. -/
def readEnter (s : Subdevice) (call : IoCall) : Result (Pc × List Byte × Subdevice) :=
  match s.async with
  | none => .ok (.returned (-eio), [], s)
  | some a =>
    if call.nbytes.val = 0 then .ok (.returned 0, [], s)
    else
      match s.busy with
      | none => .ok (.returned 0, [], s)
      | some o =>
        if o ≠ .file call.file then .ok (.returned (-eacces), [], s)
        else do
          let (pc, bytes, a) ← readLoop s a call
          return (pc, bytes, { s with async := some a })

/-- From `schedule()` to the next stop. -/
def readWake (s : Subdevice) (call : IoCall) (signal : Bool) :
    Result (Pc × List Byte × Subdevice) :=
  if signal then .ok (readTail s 0 (-erestartsys), [], s)
  else
    match s.busy, s.async with
    | none, _ => .ok (readTail s 0 0, [], s)
    | some _, none => .ok (.returned (-eio), [], s)
    | some o, some a =>
      if o ≠ .file call.file then .ok (readTail s 0 (-eacces), [], s)
      else do
        let (pc, bytes, a) ← readLoop s a call
        return (pc, bytes, { s with async := some a })

/-- In the loop, with `dev->mutex` held: the command has stopped and the buffer is empty. -/
def readRelease (b : Board) (s : Subdevice) : Pc × Board × Subdevice × List Call :=
  let retval := if s.runflags &&& srfError ≠ 0 then -epipe else 0
  let (b, s') := doBecomeNonbusy b s
  (readTail s' 0 retval, b, s', [.becomeNonbusy s.busy s.runflags])

/-- Behind the loop, with `dev->mutex` held. -/
def readPost (b : Board) (s : Subdevice) (ret : Int) : Pc × Board × Subdevice × List Call :=
  match s.async with
  | none => (.returned ret, b, s, [])
  | some a =>
    if a.bufReadCount - a.bufWriteCount = 0 then
      let (b, s') := doBecomeNonbusy b s
      (.returned ret, b, s', [.becomeNonbusy s.busy s.runflags])
    else (.returned ret, b, s, [])

/-- The bytes that one pass of the loop of `comedi_write` can store: at most `nbytes`, not
across the end of the buffer, and no more than it gets allocated. -/
def writeContiguous (a : Async) (nbytes : U32) : U32 × Async :=
  let m := if a.preallocBufsz < a.bufWritePtr + nbytes then a.preallocBufsz - a.bufWritePtr else nbytes
  let (_, a) := comediBufWriteAlloc a a.preallocBufsz
  let m := if comediBufWriteNAllocated a < m then comediBufWriteNAllocated a else m
  (if m.toInt < nbytes.toInt then m else nbytes, a)

/-- The loop of `comedi_write` from its head on, for a user with the bytes `data`. -/
def writeLoop (s : Subdevice) (a : Async) (call : IoCall) (data : List Byte) :
    Result (Pc × Async) :=
  if s.runflags &&& srfRunning = 0 then .ok (.releaseLock, a)
  else
    let (n, a) := writeContiguous a (.ofNat 32 call.nbytes)
    if n = 0 then .ok (if call.nonblock then .returned (-eagain) else .asleep, a)
    else do
      let m := if call.missed ≤ n then call.missed else n
      let a := { a with
        preallocBuf := RingMarks.blit a.preallocBuf a.bufWritePtr.toNat (data.take (n - m).toNat) }
      let (_, a) ← comediBufWriteFree s a (n - m)
      return (.returned (result (n - m) (if m ≠ 0 then -efault else 0)), a)

/-- A call of `comedi_write` up to its first stop. -/
def writeEnter (s : Subdevice) (call : IoCall) (data : List Byte) : Result (Pc × Subdevice) :=
  match s.async with
  | none => .ok (.returned (-eio), s)
  | some a =>
    if call.nbytes.val = 0 then .ok (.returned 0, s)
    else
      match s.busy with
      | none => .ok (.returned 0, s)
      | some o =>
        if o ≠ .file call.file then .ok (.returned (-eacces), s)
        else do
          let (pc, a) ← writeLoop s a call data
          return (pc, { s with async := some a })

def writeWake (s : Subdevice) (call : IoCall) (data : List Byte) (signal : Bool) :
    Result (Pc × Subdevice) :=
  if signal then .ok (.returned (-erestartsys), s)
  else
    match s.busy, s.async with
    | none, _ => .ok (.returned 0, s)
    | some _, none => .ok (.returned (-eio), s)
    | some o, some a =>
      if o ≠ .file call.file then .ok (.returned (-eacces), s)
      else do
        let (pc, a) ← writeLoop s a call data
        return (pc, { s with async := some a })

/-- In the loop, with `dev->mutex` held: the command has stopped. -/
def writeRelease (b : Board) (s : Subdevice) : Pc × Board × Subdevice × List Call :=
  let retval := if s.runflags &&& srfError ≠ 0 then -epipe else 0
  let (b, s') := doBecomeNonbusy b s
  (.returned retval, b, s', [.becomeNonbusy s.busy s.runflags])

end Comedi.ReadWrite
