import Comedi.RtTimer

namespace Comedi.Das1800

open ChanlistCheck
open RtTimer (trigCount trigFollow trigTimer)

abbrev U16 := BitVec 16

def unipolarBit : U32 := 0x4
def fifoSize : U32 := 1024
def dmaBufSize : U32 := 0x1ff00

def dmaEnabled : U32 := 0x3
def dmaDual : U32 := 0x4
def fimd : U32 := 0x40

def statusCt0tc : Byte := 0x08
def statusOvf : Byte := 0x10
def statusFhf : Byte := 0x20
def statusFne : Byte := 0x40

/-- `das1800_private`, with `UB` as it stands in control register C. -/
structure Private where
  count : U32 := 0
  irqDmaBits : U32 := 0
  dmaBits : U32 := 0
  dmaTransferSize : U32 := 0
  unipolar : Bool := false

def suggestTransferSize (cmd : Cmd) : Result U32 := do
  let fillTime : U32 := 300000000
  let size ←
    if cmd.scanBeginSrc = trigFollow then
      if cmd.convertSrc = trigTimer then
        if cmd.convertArg = 0 then .error .divideError
        else .ok (fillTime / cmd.convertArg * 2)
      else .ok dmaBufSize
    else if cmd.scanBeginSrc = trigTimer then
      if cmd.scanBeginArg * cmd.chanlistLen = 0 then .error .divideError
      else .ok (fillTime / (cmd.scanBeginArg * cmd.chanlistLen) * 2)
    else .ok dmaBufSize
  let maxSize :=
    if cmd.stopSrc = trigCount ∧ cmd.stopArg * cmd.chanlistLen * 2 < dmaBufSize then
      cmd.stopArg * cmd.chanlistLen * 2
    else dmaBufSize
  let size := if maxSize < size then maxSize else size
  return if size < 2 then 2 else size

/-- Whether the first range of the channel list, and with it every range, is unipolar. -/
def unipolarCmd (cmd : Cmd) : Bool :=
  match cmd.chanlist with
  | .kernel (x :: _) => crRange x &&& unipolarBit ≠ 0
  | _ => false

/-- The bits of control register B without and with DMA. -/
def setDma (p : Private) (flags : U32) : U32 :=
  if flags &&& (trigWakeEos ||| trigRt) ≠ 0 then p.irqDmaBits &&& ~~~dmaEnabled
  else p.irqDmaBits ||| p.dmaBits

/-- `das1800_ai_do_cmd`, for a device with an interrupt and counters that can be set. -/
def aiDoCmd (p : Private) (cmd : Cmd) : Result Private := do
  let bits := setDma p cmd.flags
  let bits := if cmd.flags &&& trigWakeEos ≠ 0 then bits &&& ~~~fimd else bits ||| fimd
  let size ← if bits &&& dmaEnabled = 0 then .ok p.dmaTransferSize else suggestTransferSize cmd
  return { p with
    irqDmaBits := bits
    count := if cmd.stopSrc = trigCount then cmd.stopArg * cmd.chanlistLen else p.count
    dmaTransferSize := size
    unipolar := unipolarCmd cmd }

/-- What a DMA channel has left to do, in words as channels 5 to 7 count, and its buffer. -/
structure DmaBlock where
  residue : U16
  data : Nat → U16

/-- `get_dma_residue` of a channel of 16 bits. -/
def DmaBlock.bytesLeft (d : DmaBlock) : U32 := d.residue.setWidth 32 <<< 1

/-- What one call of the handler meets: the status, the blocks of the DMA channels in the order in
which they are flushed, the words of a half full FIFO, the words that the FIFO gives before it is
found empty, and the space in the buffer. -/
structure Reading where
  status : Byte
  dma : Nat → DmaBlock
  half : Nat → U16
  rest : Nat → List U16
  free : Nat

/-- The acquisition: the samples wanted, the samples that the buffer took, each with the word that
came from the board, the space in the buffer and the events. -/
structure Acq where
  count : U32
  out : List (U16 × U16) := []
  free : Nat := 0
  events : U32 := 0

/-- `cfc_write_array_to_buffer`, which takes all or nothing. -/
def write (x : Acq) (samples : List (U16 × U16)) : Acq :=
  if samples = [] then x
  else if x.free < 2 * samples.length then
    { x with free := 0, events := x.events ||| comediCbOverflow }
  else
    { x with
      out := x.out ++ samples
      free := x.free - 2 * samples.length
      events := x.events ||| comediCbBlock }

def counts (cmd : Cmd) : Prop := cmd.stopSrc = trigCount

instance (cmd : Cmd) : Decidable (counts cmd) := inferInstanceAs (Decidable (_ = _))

/-- `devpriv->count -= n` for a command with a number of samples. -/
def take (cmd : Cmd) (x : Acq) (n : U32) : Acq :=
  if counts cmd then { x with count := x.count - n } else x

/-- The samples that are wanted of `n`. -/
def clip (cmd : Cmd) (x : Acq) (n : U32) : U32 := if counts cmd ∧ x.count < n then x.count else n

def mungeBipolarSample (resolution : Nat) (sample : U16) : U16 :=
  sample + .ofNat 16 (2 ^ (resolution - 1))

/-- `munge_data` of one sample. -/
def mungeData (resolution : Nat) (unipolar : Bool) (sample : U16) : U16 :=
  if unipolar then sample else mungeBipolarSample resolution sample

def blockSamples (size : U32) (d : DmaBlock) : U32 := (size - d.bytesLeft) / 2

section Handlers

variable (resolution : Nat) (p : Private) (cmd : Cmd)

/-- `das1800_flush_dma_channel` converts the samples that are wanted and writes those that are
there. The number of bytes is even, as the size of a transfer is. -/
def flushDmaChannel (x : Acq) (d : DmaBlock) : Acq :=
  let numSamples := clip cmd x (blockSamples p.dmaTransferSize d)
  let samples := (List.range (blockSamples p.dmaTransferSize d).toNat).map fun i =>
    (d.data i, if i < numSamples.toNat then mungeData resolution p.unipolar (d.data i) else d.data i)
  take cmd (write x samples) numSamples

def handleFifoHalfFull (x : Acq) (words : Nat → U16) : Acq :=
  let numPoints := clip cmd x (fifoSize / 2)
  let samples := (List.range numPoints.toNat).map fun i =>
    (words i, mungeData resolution p.unipolar (words i))
  take cmd (write x samples) numPoints

/-- The loop of `das1800_handle_fifo_not_empty`. The test of the polarity has an empty statement,
so every sample is converted. -/
def handleFifoNotEmpty (x : Acq) : List U16 → Acq
  | [] => x
  | word :: words =>
    if counts cmd ∧ x.count = 0 then x
    else
      handleFifoNotEmpty (take cmd (write x [(word, mungeBipolarSample resolution word)]) 1) words

def flushDma (x : Acq) (r : Reading) : Acq :=
  let x := flushDmaChannel resolution p cmd x (r.dma 1)
  let x := if p.irqDmaBits &&& dmaDual ≠ 0 then flushDmaChannel resolution p cmd x (r.dma 2) else x
  handleFifoNotEmpty resolution cmd x (r.rest 1)

/-- How a call of the handler ends the acquisition, if it does. -/
inductive Ending where
  | none
  | overflow
  | external
  | completed
  deriving DecidableEq, Repr

/-- The first half of `das1800_ai_handler`. -/
def fetch (x : Acq) (r : Reading) : Acq :=
  if p.irqDmaBits &&& dmaEnabled ≠ 0 then flushDmaChannel resolution p cmd x (r.dma 0)
  else if r.status &&& statusFhf ≠ 0 then handleFifoHalfFull resolution p cmd x r.half
  else if r.status &&& statusFne ≠ 0 then handleFifoNotEmpty resolution cmd x (r.rest 0)
  else x

/-- What is fetched when the external trigger has stopped the acquisition. -/
def fetchRest (x : Acq) (r : Reading) : Acq :=
  if p.irqDmaBits &&& dmaEnabled ≠ 0 then flushDma resolution p cmd x r
  else handleFifoNotEmpty resolution cmd x (r.rest 1)

/-- `das1800_ai_handler`, as an interrupt or a poll calls it. -/
def aiHandler (x : Acq) (r : Reading) : Ending × Acq :=
  let x := fetch resolution p cmd { x with events := 0, free := r.free } r
  let x := { x with events := x.events ||| comediCbBlock }
  if r.status &&& statusOvf ≠ 0 then
    (.overflow, { x with events := x.events ||| (comediCbError ||| comediCbEoa) })
  else if r.status &&& statusCt0tc ≠ 0 then
    let x := fetchRest resolution p cmd x r
    (.external, { x with events := x.events ||| comediCbEoa })
  else if counts cmd ∧ x.count = 0 then
    (.completed, { x with events := x.events ||| comediCbEoa })
  else (.none, x)

end Handlers

end Comedi.Das1800
