import Comedi.RunState
import Comedi.MungeBlocks

namespace Comedi.Bufinfo

open AsyncBuffer RunState RingMarks RingCounters MungeBlocks

/-- `comedi_bufinfo`. -/
structure Info where
  subdevice : U32 := 0
  bytesRead : U32 := 0
  bufWritePtr : U32 := 0
  bufReadPtr : U32 := 0
  bufWriteCount : U32 := 0
  bufReadCount : U32 := 0
  bytesWritten : U32 := 0
  deriving DecidableEq, Repr

/-- The bytes a reader of the mapped buffer has consumed: taken and given back at once. -/
def readRequest (a : Async) (n : U32) : Result (U32 × Async) :=
  if n = 0 then .ok (n, a)
  else do
    let (n, a) := comediBufReadAlloc a n
    let (_, a) ← comediBufReadFree a n
    return (n, a)

/-- The bytes a writer of the mapped buffer has produced: reserved and committed at once. -/
def writeRequest (s : Subdevice) (a : Async) (n : U32) : Result (U32 × Async) :=
  if n = 0 then .ok (n, a)
  else do
    let (n, a) := comediBufWriteAlloc a n
    let (_, a) ← comediBufWriteFree s a n
    return (n, a)

/-- What `do_bufinfo_ioctl` does once the bytes read are out of the buffer `a`. -/
def afterRead (b : Board) (s : Subdevice) (a : Async) (n : U32) : Int × Board × Subdevice :=
  let s := { s with async := some a }
  if a.bufWriteCount = a.bufReadCount then
    let (b, s) :=
      if s.runflags &&& (srfRunning ||| srfError) = 0 then doBecomeNonbusy b s else (b, s)
    let fails := n = 0 ∧ s.runflags &&& (srfRunning ||| srfError) = srfError
    (if fails then -epipe else 0, b, s)
  else
    (0, b, s)

/-- The branch of `do_bufinfo_ioctl` for `SDF_CMD_READ`. -/
def readPart (b : Board) (s : Subdevice) (a : Async) (bi : Info) :
    Result (Int × Info × Board × Subdevice) :=
  if s.subdevFlags &&& sdfCmdRead = 0 then .ok (0, bi, b, s)
  else do
    let (n, a) ← readRequest a bi.bytesRead
    return ((afterRead b s a n).1, { bi with bytesRead := n }, (afterRead b s a n).2)

/-- The branch of `do_bufinfo_ioctl` for `SDF_CMD_WRITE`. -/
def writePart (s : Subdevice) (a : Async) (bi : Info) : Result (Int × Info × Subdevice) :=
  if s.subdevFlags &&& sdfCmdWrite = 0 then .ok (0, bi, s)
  else do
    let (n, a) ← writeRequest s a bi.bytesWritten
    let fails := n = 0 ∧ s.runflags &&& srfRunning = 0 ∧ s.runflags &&& srfError ≠ 0
    return (if fails then -epipe else 0, { bi with bytesWritten := n }, { s with async := some a })

def copybackPosition (a : Async) (bi : Info) : Info :=
  { bi with
    bufWriteCount := a.bufWriteCount
    bufWritePtr := a.bufWritePtr
    bufReadCount := a.bufReadCount
    bufReadPtr := a.bufReadPtr }

/-- The answer to a request that was not refused: the structure is copied back unless the
user's memory does not take it. -/
def copyback (b : Board) (s : Subdevice) (bi : Info) (copyTo : Bool) :
    Int × Option Info × Board × Subdevice :=
  if copyTo then (0, some bi, b, s) else (-efault, none, b, s)

/-- `do_bufinfo_ioctl`, from the point where the subdevice is known. -/
def doBufinfoIoctl (b : Board) (s : Subdevice) (bi : Info) (file : File) (copyTo : Bool) :
    Result (Int × Option Info × Board × Subdevice) :=
  if s.lockedOut file then .ok (-eacces, none, b, s)
  else
    match s.async with
    | none =>
      .ok (copyback b s { subdevice := bi.subdevice } copyTo)
    | some a =>
      match s.busy with
      | none =>
        .ok (copyback b s (copybackPosition a { bi with bytesRead := 0, bytesWritten := 0 }) copyTo)
      | some o =>
        if o ≠ .file file then .ok (-eacces, none, b, s)
        else do
          let (ret, bi, b, s) ← readPart b s a bi
          let (ret', bi, s) ← writePart s (s.async.getD a) bi
          if ret ≠ 0 ∨ ret' ≠ 0 then
            return (-epipe, none, b, s)
          else
            return copyback b s (copybackPosition (s.async.getD a) bi) copyTo

end Comedi.Bufinfo
