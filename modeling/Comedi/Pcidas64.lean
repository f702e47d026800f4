import Comedi.NiTioCmd
import Comedi.RtTimer
import Comedi.GuardedRuns

namespace Comedi.Pcidas64

open RtTimer (trigCount)
open NiTioCmd (trigExt)

inductive Layout where
  | layout60xx | layout64xx | layout4020
  deriving DecidableEq, Repr

structure HwFifoInfo where
  numSegments : U32
  maxSegmentLength : U32
  samplePackingRatio : U32

def aiFifo4020 : HwFifoInfo := ⟨2, 0x8000, 2⟩
def aiFifo64xx : HwFifoInfo := ⟨4, 0x800, 1⟩
def aiFifo60xx : HwFifoInfo := ⟨4, 0x800, 1⟩

def aiFifo : Layout → HwFifoInfo
  | .layout60xx => aiFifo60xx
  | .layout64xx => aiFifo64xx
  | .layout4020 => aiFifo4020

def incrementSize : U32 := 0x100

/-- The segment length that `set_ai_fifo_segment_length` stores and returns. -/
def setAiFifoSegmentLength (fifo : HwFifoInfo) (numEntries : U32) : U32 :=
  let numEntries := if numEntries < incrementSize then incrementSize else numEntries
  let numEntries := if numEntries > fifo.maxSegmentLength then fifo.maxSegmentLength else numEntries
  let numIncrements := (numEntries + incrementSize / 2) / incrementSize
  numIncrements * incrementSize

/-- A board after attach. The length of its fifo segments was last set by
`set_ai_fifo_segment_length`. -/
structure Das64 where
  layout : Layout
  aiFifoSegmentLength : U32
  aiBufferBusAddr : Nat → BitVec 64
  segment : ∃ n, aiFifoSegmentLength = setAiFifoSegmentLength (aiFifo layout) n

def dmaBufferSize : U32 := 0x1000

def aiDmaRingCount : Layout → Nat
  | .layout4020 => 128
  | _ => 16

def adcOverrunBit : BitVec 16 := 0x2
def adcIntrPendingBit : BitVec 16 := 0x20
def adcDoneBit : BitVec 16 := 0x80
def adcStopBit : BitVec 16 := 0x200
def icsDma1A : U32 := 0x00400000
def plxDmaEnBit : BitVec 8 := 0x1

/-- The analog input of a board while a command runs: `priv(dev)`, the events and the running
flag of the subdevice. The samples taken so far and the completions raised are counted beside. -/
structure Ai where
  aiCount : U32
  aiDmaIndex : Nat
  aiCmdRunning : Bool
  events : U32
  running : Bool
  taken : Nat
  completions : Nat
  deriving DecidableEq

/-- One reading of the two pointer registers and of `PREPOST_REG`. -/
structure FifoReading where
  readPntr : BitVec 16
  writePntr : BitVec 16
  prepostBits : BitVec 16

/-- What one interrupt finds: the status words, the DMA address, the pointers that the 16 bit
fifo shows from one reading to the next, and those of the 32 bit fifo. The writes to the comedi
buffer raise `written`. -/
structure AiInterrupt where
  status : BitVec 16
  plxStatus : U32
  dma1Status : BitVec 8
  nextTransferAddr : U32
  readings : List FifoReading
  writeCode : BitVec 16
  readCodes : List (BitVec 16)
  written : U32

/-- The readings ran out and the fifo is still being drained. -/
inductive Unfinished where
  | draining
  deriving DecidableEq, Repr

def FifoReading.readIndex (r : FifoReading) : U32 := (r.readPntr &&& 0x7fff).setWidth 32
def FifoReading.writeIndex (r : FifoReading) : U32 := (r.writePntr &&& 0x7fff).setWidth 32
def FifoReading.readSegment (r : FifoReading) : BitVec 16 := (r.prepostBits >>> 12) &&& 0x3
def FifoReading.writeSegment (r : FifoReading) : BitVec 16 := (r.prepostBits >>> 14) &&& 0x3

def Ai.raise (st : Ai) (events : U32) : Ai := { st with events := st.events ||| events }

/-- `n` samples go to the comedi buffer. -/
def Ai.take (st : Ai) (written : U32) (n : Nat) : Ai :=
  { st with
    taken := st.taken + n
    events := if n = 0 then st.events else st.events ||| written }

def numSamples (dev : Das64) (r : FifoReading) : U32 :=
  if r.readSegment ≠ r.writeSegment then dev.aiFifoSegmentLength - r.readIndex
  else r.writeIndex - r.readIndex

/-- The body of the loop of `pio_drain_ai_fifo_16`, and whether the loop goes on. -/
def drainReading (dev : Das64) (cmd : Cmd) (written : U32) (st : Ai) (r : FifoReading) :
    Ai × Bool :=
  let num := numSamples dev r
  if cmd.stopSrc = trigCount ∧ st.aiCount = 0 then (st, false)
  else
    let num := if cmd.stopSrc = trigCount ∧ num > st.aiCount then st.aiCount else num
    let st := if cmd.stopSrc = trigCount then { st with aiCount := st.aiCount - num } else st
    if num.slt 0 then (st, false)
    else (st.take written num.toNat, r.readSegment ≠ r.writeSegment)

def pioDrainAiFifo16 (dev : Das64) (cmd : Cmd) (written : U32) :
    Ai → List FifoReading → Except Unfinished Ai
  | _, [] => .error .draining
  | st, r :: rs =>
    match drainReading dev cmd written st r with
    | (st, true) => pioDrainAiFifo16 dev cmd written st rs
    | (st, false) => .ok st

/-- The loop of `pio_drain_ai_fifo_32`: the samples taken so far and the read codes to come. -/
def drainWords (writeCode : BitVec 16) (maxTransfer : Nat) :
    Nat → List (BitVec 16) → Except Unfinished Nat
  | _, [] => .error .draining
  | i, readCode :: codes =>
    if readCode ≠ writeCode ∧ i < maxTransfer then
      drainWords writeCode maxTransfer (if i + 1 < maxTransfer then i + 2 else i + 1) codes
    else .ok i

def pioDrainAiFifo32 (cmd : Cmd) (st : Ai) (i : AiInterrupt) : Except Unfinished Ai := do
  let maxTransfer : U32 := 100000
  let maxTransfer :=
    if cmd.stopSrc = trigCount ∧ maxTransfer > st.aiCount then st.aiCount else maxTransfer
  let n ← drainWords (i.writeCode &&& 0x7fff) maxTransfer.toNat 0
    (i.readCodes.map fun code => code &&& 0x7fff)
  return { st.take i.written n with aiCount := st.aiCount - .ofNat 32 n }

def pioDrainAiFifo (dev : Das64) (cmd : Cmd) (st : Ai) (i : AiInterrupt) : Except Unfinished Ai :=
  if dev.layout = .layout4020 then pioDrainAiFifo32 cmd st i
  else pioDrainAiFifo16 dev cmd i.written st i.readings

def dmaTransferSize (dev : Das64) : U32 :=
  let numSamples := dev.aiFifoSegmentLength * (aiFifo dev.layout).samplePackingRatio
  if numSamples > dmaBufferSize / 2 then dmaBufferSize / 2 else numSamples

/-- The transfer is not in the buffer with this index, so that buffer is full. -/
def isFull (dev : Das64) (nextTransferAddr : U32) (index : Nat) : Bool :=
  nextTransferAddr.setWidth 64 < dev.aiBufferBusAddr index ∨
    nextTransferAddr.setWidth 64 ≥ dev.aiBufferBusAddr index + dmaBufferSize.setWidth 64

def drainBuffer (dev : Das64) (cmd : Cmd) (written : U32) (st : Ai) : Ai :=
  let num := dmaTransferSize dev
  let num := if cmd.stopSrc = trigCount ∧ num > st.aiCount then st.aiCount else num
  let st := if cmd.stopSrc = trigCount then { st with aiCount := st.aiCount - num } else st
  let st := st.take written num.toNat
  { st with aiDmaIndex := (st.aiDmaIndex + 1) % aiDmaRingCount dev.layout }

/-- The loop of `drain_dma_buffers`, for as many buffers as are left of a round. -/
def drainDmaBuffers (dev : Das64) (cmd : Cmd) (i : AiInterrupt) : Nat → Ai → Ai
  | 0, st => st
  | n + 1, st =>
    if isFull dev i.nextTransferAddr st.aiDmaIndex then
      drainDmaBuffers dev cmd i n (drainBuffer dev cmd i.written st)
    else st

/-- `handle_ai_interrupt` up to the draining of the fifo. -/
def handleDma (dev : Das64) (cmd : Cmd) (st : Ai) (i : AiInterrupt) : Ai :=
  let st :=
    if i.status &&& adcOverrunBit ≠ 0 then st.raise (comediCbEoa ||| comediCbError) else st
  if i.plxStatus &&& icsDma1A ≠ 0 ∧ i.dma1Status &&& plxDmaEnBit ≠ 0 then
    drainDmaBuffers dev cmd i (aiDmaRingCount dev.layout) st
  else st

def drainsFifo (dev : Das64) (cmd : Cmd) (i : AiInterrupt) : Bool :=
  i.status &&& adcDoneBit ≠ 0 ∨
    (cmd.flags &&& trigWakeEos ≠ 0 ∧ i.status &&& adcIntrPendingBit ≠ 0 ∧
      dev.layout ≠ .layout4020)

/-- The test before `COMEDI_CB_EOA` is raised for a command that has all its data. -/
def haveAll (cmd : Cmd) (st : Ai) (i : AiInterrupt) : Bool :=
  (cmd.stopSrc = trigCount ∧ st.aiCount ≤ 0) ∨
    (cmd.stopSrc = trigExt ∧ i.status &&& adcStopBit ≠ 0)

def Ai.complete (st : Ai) : Ai :=
  { st.raise comediCbEoa with completions := st.completions + 1 }

def aiCancel (st : Ai) : Ai := { st with aiCmdRunning := false }

def endEvents : U32 := comediCbEoa ||| comediCbError ||| comediCbOverflow

/-- What `comedi_event` changes of the running flag and of the pending events. -/
def comediEvent (st : Ai) : Ai :=
  if st.running then { st with running := st.events &&& endEvents = 0, events := 0 } else st

def cfcHandleEvents (st : Ai) : Ai :=
  if st.events = 0 then st
  else comediEvent (if st.events &&& endEvents ≠ 0 then aiCancel st else st)

def drainFifo (dev : Das64) (cmd : Cmd) (st : Ai) (i : AiInterrupt) : Except Unfinished Ai :=
  if drainsFifo dev cmd i ∧ st.aiCmdRunning then pioDrainAiFifo dev cmd st i else .ok st

def handleAiInterrupt (dev : Das64) (cmd : Cmd) (st : Ai) (i : AiInterrupt) :
    Except Unfinished Ai := do
  let st ← drainFifo dev cmd (handleDma dev cmd st i) i
  let st := if haveAll cmd st i then st.complete else st
  return cfcHandleEvents st

/-- What step 3 of `ai_cmdtest` leaves of a command that ends after a number of scans. -/
def Accepted (cmd : Cmd) : Prop :=
  cmd.stopSrc = trigCount ∧ cmd.stopArg ≠ 0 ∧ cmd.chanlistLen ≠ 0

instance (cmd : Cmd) : Decidable (Accepted cmd) := by unfold Accepted; infer_instance

def setupSampleCounters (cmd : Cmd) (st : Ai) : Ai :=
  if cmd.stopSrc = trigCount then { st with aiCount := cmd.stopArg * cmd.chanlistLen } else st

/-- `ai_cmd`, from whatever the last command left. -/
def aiCmd (dev : Das64) (cmd : Cmd) (old : Ai) : Ai :=
  let st := setupSampleCounters cmd old
  { st with
    aiDmaIndex :=
      if cmd.flags &&& trigWakeEos = 0 ∨ dev.layout = .layout4020 then 0 else st.aiDmaIndex
    aiCmdRunning := true
    events := 0
    running := true
    taken := 0
    completions := 0 }

end Comedi.Pcidas64
