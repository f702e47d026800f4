import Comedi.DataModel
import Comedi.RingMarks

namespace Comedi.AsyncBuffer

open RingMarks (blit)

/-- Unsigned remainder, which traps on a zero divisor. -/
def umod (x y : U32) : Result U32 :=
  if y = 0 then .error .divideError else .ok (x % y)

def readBlock (mem : Nat → Byte) (at_ n : Nat) : List Byte :=
  (List.range n).map fun j => mem (at_ + j)

/-- One call of `s->munge` on `n` bytes at `ptr`. -/
def callMunge (a : Async) (munge : MungeFn) (ptr n chan : U32) : Async :=
  { a with
    preallocBuf := blit a.preallocBuf ptr.toNat
      ((munge (readBlock a.preallocBuf ptr.toNat n.toNat) chan).take n.toNat)
    mungeCalls := a.mungeCalls ++ [⟨ptr, n, chan⟩] }

def mungeLoop (munge : MungeFn) (numSampleBytes numBytes : U32) :
    Nat → Async → U32 → Result (U32 × Async)
  | 0, _, _ => .error .hang
  | fuel + 1, a, count =>
    if count < numBytes then
      let blockSize := numBytes - count
      if blockSize.toInt < 0 then .ok (count, a)
      else
        let blockSize :=
          if 0 < (a.mungePtr + blockSize - a.preallocBufsz).toInt
          then a.preallocBufsz - a.mungePtr else blockSize
        let a := callMunge a munge a.mungePtr blockSize a.mungeChan
        do
          let chan ← umod (a.mungeChan + blockSize / numSampleBytes) a.cmd.chanlistLen
          let ptr ← umod (a.mungePtr + blockSize) a.preallocBufsz
          mungeLoop munge numSampleBytes numBytes fuel
            { a with
              mungeChan := chan
              mungeCount := a.mungeCount + blockSize
              mungePtr := ptr }
            (count + blockSize)
    else .ok (count, a)

def bugIfAhead (a : Async) (r : U32) : Result (U32 × Async) :=
  if 0 < (a.mungeCount - a.bufWriteCount).toInt then .error .bug else .ok (r, a)

/-- Every turn of the loop that makes progress takes at least one byte, so a loop that is
still running after `numBytes + 1` turns runs for ever. -/
def comediBufMunge (s : Subdevice) (a : Async) (numBytes : U32) : Result (U32 × Async) :=
  match s.munge with
  | none => bugIfAhead { a with mungeCount := a.mungeCount + numBytes } numBytes
  | some munge =>
    if a.cmd.flags &&& cmdfRawdata ≠ 0 then
      bugIfAhead { a with mungeCount := a.mungeCount + numBytes } numBytes
    else do
      let numBytes := numBytes - numBytes % bytesPerSample s
      let (count, a) ← mungeLoop munge (bytesPerSample s) numBytes (numBytes.toNat + 1) a 0
      bugIfAhead a count

def comediBufWriteNAvailable (s : Subdevice) (a : Async) : U32 :=
  let freeEnd := a.bufReadCount + a.preallocBufsz
  let nbytes := freeEnd - a.bufWriteAllocCount
  nbytes - nbytes % bytesPerSample s

def comediBufWriteAlloc (a : Async) (nbytes : U32) : U32 × Async :=
  let freeEnd := a.bufReadCount + a.preallocBufsz
  let nbytes :=
    if 0 < (a.bufWriteAllocCount + nbytes - freeEnd).toInt
    then freeEnd - a.bufWriteAllocCount else nbytes
  (nbytes, { a with bufWriteAllocCount := a.bufWriteAllocCount + nbytes })

def comediBufWriteAllocStrict (a : Async) (nbytes : U32) : U32 × Async :=
  let freeEnd := a.bufReadCount + a.preallocBufsz
  let nbytes := if 0 < (a.bufWriteAllocCount + nbytes - freeEnd).toInt then 0 else nbytes
  (nbytes, { a with bufWriteAllocCount := a.bufWriteAllocCount + nbytes })

def comediBufWriteFree (s : Subdevice) (a : Async) (nbytes : U32) : Result (U32 × Async) := do
  let nbytes :=
    if 0 < (a.bufWriteCount + nbytes - a.bufWriteAllocCount).toInt
    then a.bufWriteAllocCount - a.bufWriteCount else nbytes
  let a := { a with
    bufWriteCount := a.bufWriteCount + nbytes
    bufWritePtr := a.bufWritePtr + nbytes }
  let (_, a) ← comediBufMunge s a (a.bufWriteCount - a.mungeCount)
  if a.preallocBufsz ≤ a.bufWritePtr then do
    let ptr ← umod a.bufWritePtr a.preallocBufsz
    return (nbytes, { a with bufWritePtr := ptr })
  else
    return (nbytes, a)

def comediBufReadAlloc (a : Async) (nbytes : U32) : U32 × Async :=
  let nbytes :=
    if 0 < (a.bufReadAllocCount + nbytes - a.mungeCount).toInt
    then a.mungeCount - a.bufReadAllocCount else nbytes
  (nbytes, { a with bufReadAllocCount := a.bufReadAllocCount + nbytes })

def comediBufReadFree (a : Async) (nbytes : U32) : Result (U32 × Async) := do
  let nbytes :=
    if 0 < (a.bufReadCount + nbytes - a.bufReadAllocCount).toInt
    then a.bufReadAllocCount - a.bufReadCount else nbytes
  let ptr ← umod (a.bufReadPtr + nbytes) a.preallocBufsz
  return (nbytes, { a with
    bufReadCount := a.bufReadCount + nbytes
    bufReadPtr := ptr })

def comediBufWriteNAllocated (a : Async) : U32 := a.bufWriteAllocCount - a.bufWriteCount

def comediBufReadNAllocated (a : Async) : U32 := a.bufReadAllocCount - a.bufReadCount

def comediBufReadNAvailable (a : Async) : U32 := a.mungeCount - a.bufReadCount

def memcpyToLoop (bufsz : U32) : Nat → (Nat → Byte) → U32 → List Byte → U32 → Result (Nat → Byte)
  | 0, _, _, _, _ => .error .hang
  | fuel + 1, mem, writePtr, data, numBytes =>
    if numBytes = 0 then .ok mem
    else
      let blockSize := if bufsz < writePtr + numBytes then bufsz - writePtr else numBytes
      memcpyToLoop bufsz fuel (blit mem writePtr.toNat (data.take blockSize.toNat)) 0
        (data.drop blockSize.toNat) (numBytes - blockSize)

/-- A pointer that may have run past the end of the ring, brought back into it. -/
def ringOffset (bufsz ptr : U32) : Result U32 :=
  if bufsz ≤ ptr then umod ptr bufsz else .ok ptr

def comediBufMemcpyTo (a : Async) (offset : U32) (data : List Byte) (numBytes : U32) :
    Result Async := do
  let writePtr ← ringOffset a.preallocBufsz (a.bufWritePtr + offset)
  let mem ← memcpyToLoop a.preallocBufsz (numBytes.toNat + 1) a.preallocBuf writePtr data numBytes
  return { a with preallocBuf := mem }

def memcpyFromLoop (mem : Nat → Byte) (bufsz : U32) : Nat → U32 → U32 → Result (List Byte)
  | 0, _, _ => .error .hang
  | fuel + 1, readPtr, nbytes =>
    if nbytes = 0 then .ok []
    else
      let blockSize := if bufsz - readPtr ≤ nbytes then bufsz - readPtr else nbytes
      do
        let rest ← memcpyFromLoop mem bufsz fuel 0 (nbytes - blockSize)
        return readBlock mem readPtr.toNat blockSize.toNat ++ rest

def comediBufMemcpyFrom (a : Async) (offset nbytes : U32) : Result (List Byte) := do
  let readPtr ← ringOffset a.preallocBufsz (a.bufReadPtr + offset)
  memcpyFromLoop a.preallocBuf a.preallocBufsz (nbytes.toNat + 1) readPtr nbytes

/-- A `sampl_t` as it lies in memory. -/
def samplBytes (x : BitVec 16) : List Byte := [x.setWidth 8, (x >>> 8).setWidth 8]

def comediBufGet (a : Async) : Result (Option (BitVec 16) × Async) :=
  if comediBufReadNAvailable a < 2 then .ok (none, a)
  else do
    let (_, a) := comediBufReadAlloc a 2
    let lo := a.preallocBuf a.bufReadPtr.toNat
    let hi := a.preallocBuf (a.bufReadPtr.toNat + 1)
    let (_, a) ← comediBufReadFree a 2
    return (some (hi ++ lo), a)

def comediBufPut (s : Subdevice) (a : Async) (x : BitVec 16) : Result (Int × Async) :=
  let (n, a) := comediBufWriteAllocStrict a 2
  if n < 2 then .ok (0, { a with events := a.events ||| comediCbError })
  else do
    let a := { a with preallocBuf := blit a.preallocBuf a.bufWritePtr.toNat (samplBytes x) }
    let (_, a) ← comediBufWriteFree s a 2
    return (1, a)

def comediResetAsyncBuf (a : Async) : Async :=
  { a with
    bufWriteAllocCount := 0
    bufWriteCount := 0
    bufReadAllocCount := 0
    bufReadCount := 0
    bufWritePtr := 0
    bufReadPtr := 0
    curChan := 0
    scanProgress := 0
    mungeChan := 0
    mungeCount := 0
    mungePtr := 0
    events := 0 }

end Comedi.AsyncBuffer
