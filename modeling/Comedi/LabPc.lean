import Comedi.RtTimer
import Comedi.SampleSink

namespace Comedi.LabPc

open SampleSink
open RtTimer (trigNone trigCount trigTimer)

abbrev U16 := BitVec 16

def trigExt : U32 := 0x40

def dataAvailBit : Byte := 0x1
def overrunBit : Byte := 0x2
def overflowBit : Byte := 0x4
def timerBit : Byte := 0x8
def dmatcBit : Byte := 0x10
def a1TcBit : Byte := 0x2
def fnhfBit : Byte := 0x4

def dmaBufferSize : U32 := 0xff00
def sampleSize : U32 := 2
def timeout : Nat := 10000
def lenChanlist : U32 := 8

/-- What the driver asks of a board: whether it has the registers of the 1200, whether it is an
ISA board with a DMA channel, and its speed. -/
structure LabpcBoard where
  layout1200 : Bool
  isa : Bool
  dmaChan : Bool
  aiSpeed : U32
  aiSpeed_pos : 0 < aiSpeed

inductive TransferType where
  | fifoNotEmpty
  | fifoHalfFull
  | isaDma
  deriving DecidableEq

/-- The steps of `labpc_ai_cmdtest` that the acquisition depends on, and the length that the core
allows for a channel list. -/
structure AiAccepted (board : LabpcBoard) (cmd : Cmd) : Prop where
  stopSrc : cmd.stopSrc = trigCount ∨ cmd.stopSrc = trigNone ∨
    board.layout1200 = true ∧ cmd.stopSrc = trigExt
  chanlistLen_pos : cmd.chanlistLen ≠ 0
  chanlistLen_le : cmd.chanlistLen ≤ lenChanlist
  convertArg : cmd.convertSrc = trigTimer → board.aiSpeed ≤ cmd.convertArg
  stopArg : cmd.stopSrc = trigCount → cmd.stopArg ≠ 0

/-- The private data, and the count that the 8237 was last programmed with, in bytes. -/
structure Private where
  count : BitVec 64 := 0
  status1 : Byte := 0
  status2 : Byte := 0
  dmaTransferSize : U32 := 0
  currentTransfer : TransferType := .fifoNotEmpty
  programmed : U32 := 0

def suggestTransferSize (cmd : Cmd) : Result U32 := do
  let freq ←
    if cmd.convertSrc = trigTimer then
      if cmd.convertArg = 0 then .error .divideError else .ok (1000000000 / cmd.convertArg)
    else .ok 0xffffffff
  let size := freq / 3 * sampleSize
  return if dmaBufferSize < size then dmaBufferSize - dmaBufferSize % sampleSize
    else if size < sampleSize then sampleSize
    else size

def counts (cmd : Cmd) : Prop := cmd.stopSrc = trigCount

instance (cmd : Cmd) : Decidable (counts cmd) := inferInstanceAs (Decidable (_ = _))

def transferType (board : LabpcBoard) (cmd : Cmd) (count : BitVec 64) : TransferType :=
  if board.dmaChan ∧ cmd.flags &&& (trigWakeEos ||| trigRt) = 0 ∧ board.isa then .isaDma
  else if board.layout1200 ∧ cmd.flags &&& trigWakeEos = 0 ∧ (¬ counts cmd ∨ 256 < count) then
    .fifoHalfFull
  else .fifoNotEmpty

/-- The samples that came by one DMA transfer, and those that it put into the buffer. -/
structure Transfer where
  received : List U16
  contributed : List U16

/-- The acquisition: the buffer, the DMA transfers that were drained and the counts that the
8237 was programmed with when it was enabled. -/
structure Acq where
  p : Private
  sink : Sink U16 := {}
  transfers : List Transfer := []
  armed : List U32 := []

def enableDma (x : Acq) : Acq := { x with armed := x.armed ++ [x.p.programmed] }

/-- `labpc_ai_cmd`, for a device with an interrupt and counters that can be set. -/
def aiCmd (board : LabpcBoard) (p : Private) (cmd : Cmd) : Result Acq := do
  let count := if counts cmd then (cmd.stopArg * cmd.chanlistLen).setWidth 64 else p.count
  let xfer := transferType board cmd count
  let p := { p with count := count, currentTransfer := xfer }
  if xfer = .isaDma then
    let size ← suggestTransferSize cmd
    let size := if counts cmd ∧ count * 2 < size.setWidth 64 then (count * 2).setWidth 32 else size
    return enableDma { p := { p with dmaTransferSize := size, programmed := size } }
  else return { p := p }

/-- The 8237 when it is drained: the bytes left to do, and the words in the buffer. -/
structure DmaBlock where
  residue : U32
  data : Nat → U16

/-- What is read while the FIFO is drained: the status register, and the bytes. -/
structure FifoRun where
  status : Nat → Byte
  lsb : Nat → Byte
  msb : Nat → Byte

def FifoRun.sample (f : FifoRun) (i : Nat) : U16 :=
  ((f.msb i).setWidth 16 <<< 8) ||| (f.lsb i).setWidth 16

/-- What an interrupt meets. Some are drained twice. -/
structure Reading where
  status1 : Byte
  status2 : Byte
  dma : Nat → DmaBlock
  fifo : Nat → FifoRun
  free : Nat

section Handlers

variable (board : LabpcBoard) (cmd : Cmd)

/-- The loop of `labpc_drain_fifo` after `i` samples. -/
def drainLoop (f : FifoRun) : Nat → Nat → Acq → Acq
  | 0, _, x => { x with sink := raise x.sink (comediCbError ||| comediCbEoa) }
  | left + 1, i, x =>
    if x.p.status1 &&& dataAvailBit = 0 then x
    else if counts cmd ∧ x.p.count = 0 then x
    else
      let count := if counts cmd then x.p.count - 1 else x.p.count
      drainLoop f left (i + 1)
        { x with
          p := { x.p with count := count, status1 := f.status (i + 1) }
          sink := put x.sink (f.sample i) }

def drainFifo (x : Acq) (f : FifoRun) : Acq :=
  drainLoop cmd f timeout 0 { x with p := { x.p with status1 := f.status 0 } }

def dmaWords (d : DmaBlock) (n : Nat) : List U16 := (List.range n).map d.data

/-- The samples that the transfer received since the 8237 was programmed. -/
def received (p : Private) (d : DmaBlock) : List U16 :=
  dmaWords d ((p.programmed - d.residue) / sampleSize).toNat

def drainDma (x : Acq) (d : DmaBlock) : Acq :=
  let p := x.p
  let maxPoints := p.dmaTransferSize / sampleSize
  let residue := d.residue / sampleSize
  let numPoints := maxPoints - residue
  let numPoints :=
    if p.count < numPoints.setWidth 64 ∧ counts cmd then p.count.setWidth 32 else numPoints
  let leftover :=
    if ¬ counts cmd then p.dmaTransferSize / sampleSize
    else if numPoints.setWidth 64 < p.count then
      let leftover := (p.count - numPoints.setWidth 64).setWidth 32
      if maxPoints < leftover then maxPoints else leftover
    else 0
  let samples := dmaWords d numPoints.toNat
  let sink := putAll x.sink samples
  let count := if counts cmd then p.count - numPoints.setWidth 64 else p.count
  { x with
    p := { p with count := count, programmed := leftover * sampleSize }
    sink := raise sink comediCbBlock
    transfers := x.transfers ++ [⟨received p d, sink.out.drop x.sink.out.length⟩] }

def handleIsaDma (x : Acq) (d : DmaBlock) : Acq := enableDma (drainDma cmd x d)

def drainDregs (x : Acq) (r : Reading) : Acq :=
  let x := if x.p.currentTransfer = .isaDma then drainDma cmd x (r.dma 1) else x
  drainFifo cmd x (r.fifo 1)

/-- The end of `labpc_interrupt`, from the external stop trigger on. -/
def finish (x : Acq) (r : Reading) : Acq :=
  let x :=
    if cmd.stopSrc = trigExt ∧ x.p.status2 &&& a1TcBit ≠ 0 then
      let x := drainDregs cmd x r
      { x with sink := raise x.sink comediCbEoa }
    else x
  if counts cmd ∧ x.p.count = 0 then { x with sink := raise x.sink comediCbEoa } else x

/-- The part of `labpc_interrupt` that fetches samples. -/
def fetch (x : Acq) (r : Reading) : Acq :=
  if x.p.currentTransfer = .isaDma then
    if x.p.status1 &&& dmatcBit ≠ 0 ∨ board.layout1200 ∧ x.p.status2 &&& a1TcBit ≠ 0 then
      handleIsaDma cmd x (r.dma 0)
    else x
  else drainFifo cmd x (r.fifo 0)

/-- The interrupt is not the board's. -/
def foreign (p : Private) : Prop :=
  p.status1 &&& (dmatcBit ||| timerBit ||| overflowBit ||| overrunBit ||| dataAvailBit) = 0 ∧
    p.status2 &&& a1TcBit = 0 ∧ p.status2 &&& fnhfBit ≠ 0

instance (p : Private) : Decidable (foreign p) := by unfold foreign; infer_instance

def readStatus (p : Private) (r : Reading) : Private :=
  { p with
    status1 := r.status1
    status2 := if board.layout1200 then r.status2 else p.status2 }

/-- `labpc_interrupt` of an attached device. The events are those given to `comedi_event`. -/
def interrupt (x : Acq) (r : Reading) : Acq :=
  let x : Acq :=
    { x with
      p := readStatus board x.p r
      sink := { x.sink with events := 0, free := r.free } }
  if foreign x.p then x
  else if x.p.status1 &&& overrunBit ≠ 0 then
    { x with sink := raise x.sink (comediCbError ||| comediCbEoa) }
  else
    let x := fetch board cmd x r
    if x.p.status1 &&& overflowBit ≠ 0 then
      { x with sink := raise x.sink (comediCbError ||| comediCbEoa) }
    else finish cmd x r

end Handlers

end Comedi.LabPc
