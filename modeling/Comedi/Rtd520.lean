import Comedi.ChanlistCheck
import Comedi.RtTimer
import Comedi.SampleSink

namespace Comedi.Rtd520

open ChanlistCheck SampleSink
open RtTimer (trigNone trigCount trigTimer)

abbrev U16 := BitVec 16

def fsAdcNotEmpty : U16 := 0x0100
def fsAdcHempty : U16 := 0x0200
def fsAdcNotFull : U16 := 0x0400
def irqmAdcAboutCnt : U16 := 0x0010
def icsDma0A : U32 := 0x00200000
def transTargetPeriod : U32 := 10000000
def rtdMaxChanlist : U32 := 128

/-- The board, the size of its FIFO, and whether the driver was built with `USE_DMA`. -/
structure RtdBoard where
  rangeUniStart : U32
  fifoLen : U32
  useDma : Bool

def entries (cmd : Cmd) : List U32 :=
  match cmd.chanlist with
  | .kernel l => l
  | _ => []

/-- The steps of `rtd_ai_cmdtest` that the acquisition depends on, and what the core asks of a
channel list. -/
structure AiAccepted (cmd : Cmd) : Prop where
  stopSrc : cmd.stopSrc = trigCount ∨ cmd.stopSrc = trigNone
  chanlist : (entries cmd).length = cmd.chanlistLen.toNat
  chanlistLen_pos : cmd.chanlistLen ≠ 0
  chanlistLen_le : cmd.chanlistLen ≤ rtdMaxChanlist
  scanBeginArg : cmd.scanBeginSrc = trigTimer → cmd.scanBeginArg ≠ 0

/-- The private data, with the list that the commands of `rtdConvertChanGain` leave in
`chanBipolar`, and `async->cur_chan`. A `long` has 64 bits. -/
structure Private where
  aiCount : Int := 0
  transCount : U32 := 0
  dma0Active : Bool := false
  chanBipolar : List Bool := []
  curChan : U32 := 0

def counts (cmd : Cmd) : Prop := cmd.stopSrc = trigCount

instance (cmd : Cmd) : Decidable (counts cmd) := inferInstanceAs (Decidable (_ = _))

/-- What `rtdConvertChanGain` notes for an entry of the channel list. -/
def isBipolar (board : RtdBoard) (entry : U32) : Bool := crRange entry < board.rangeUniStart

/-- The number of samples that `rtd_ai_cmd` wants to transfer at a time, and 0 for half of the
FIFO. -/
def transCountOf (board : RtdBoard) (cmd : Cmd) : Result U32 := do
  if cmd.scanBeginSrc = trigTimer then
    let transCount ←
      if cmd.flags &&& trigWakeEos ≠ 0 then .ok cmd.chanlistLen
      else if cmd.scanBeginArg = 0 ∨ cmd.chanlistLen = 0 then .error .divideError
      else
        let n := transTargetPeriod * cmd.chanlistLen / cmd.scanBeginArg
        if n < cmd.chanlistLen then .ok cmd.chanlistLen
        else .ok ((n + cmd.chanlistLen - 1) / cmd.chanlistLen * cmd.chanlistLen)
    return if board.fifoLen / 2 ≤ transCount then 0 else transCount
  else return 0

/-- The acquisition, with the words that came from the board. A sample in the buffer is kept with
its word. `ended` is set by an abort, a completion or a cancel. -/
structure Acq where
  p : Private
  sink : Sink (U16 × U16) := {}
  read : List U16 := []
  ended : Bool := false

/-- `rtd_ai_cmd`, for a device with an interrupt. -/
def aiCmd (board : RtdBoard) (cmd : Cmd) : Result Acq := do
  let transCount ← transCountOf board cmd
  let aiCount : Int := if counts cmd then (cmd.stopArg * cmd.chanlistLen).toNat else -1
  let transCount :=
    if counts cmd ∧ 0 < transCount.toInt ∧ aiCount < transCount.toInt then .ofInt 32 aiCount
    else transCount
  return {
    p := {
      aiCount := aiCount
      transCount := transCount
      dma0Active := board.useDma && transCount.toInt ≤ 0
      chanBipolar := (entries cmd).map (isBipolar board) } }

/-- What an interrupt meets. The status of the PLX chip is looked at only with DMA. -/
structure Reading where
  fifoStatus : U16
  plxStatus : U32
  status : U16
  overrunStatus : U16
  dma : Nat → U16
  fifo : Nat → U16
  free : Nat

/-- The low 3 bits are marker lines. -/
def convert (bipolar : Bool) (d : U16) : U16 :=
  if bipolar then d.sshiftRight 3 + 2048 else d.sshiftRight 3

/-- `CHAN_ARRAY_TEST` of `chanBipolar`. -/
def testBipolar (p : Private) (chan : Nat) : Bool := p.chanBipolar.getD chan false

def countDown (aiCount : Int) : Int := if 0 < aiCount then aiCount - 1 else aiCount

/-- The loop of `ai_read_n`, whose words come from the FIFO; false if the buffer is full. -/
def aiReadN : Acq → List U16 → Bool × Acq
  | x, [] => (true, x)
  | x, d :: ds =>
    let read := x.read ++ [d]
    if x.p.aiCount = 0 then aiReadN { x with read := read } ds
    else if x.sink.free = 0 then
      (false, { x with read := read, sink := raise x.sink comediCbError })
    else
      let sample := convert (testBipolar x.p x.p.curChan.toNat) d
      aiReadN
        { x with
          p := { x.p with aiCount := countDown x.p.aiCount }
          read := read
          sink := put x.sink (d, sample) } ds

section Handlers

variable (board : RtdBoard) (cmd : Cmd)

/-- The first loop of `ai_process_dma`, over the words of the block. -/
def convertBlock : Private → List U16 → Private × List (U16 × U16)
  | p, [] => (p, [])
  | p, d :: ds =>
    let sample := convert (testBipolar p p.curChan.toNat) d
    let chan := p.curChan + 1
    let p := { p with
      curChan := if cmd.chanlistLen ≤ chan then 0 else chan
      aiCount := countDown p.aiCount }
    if p.aiCount = 0 then (p, [(d, sample)])
    else
      let (p, samples) := convertBlock p ds
      (p, (d, sample) :: samples)

def halfFifo (words : Nat → U16) : List U16 := (List.range (board.fifoLen / 2).toNat).map words

def aiProcessDma (x : Acq) (r : Reading) : Bool × Acq :=
  if x.p.aiCount = 0 then (true, x)
  else
    let read := x.read ++ halfFifo board r.dma
    let (p, samples) := convertBlock cmd x.p (halfFifo board r.dma)
    if x.sink.free < samples.length then
      (false, { x with p := p, read := read, sink := raise x.sink comediCbError })
    else
      (true, { x with
        p := p
        read := read
        sink := raise (putArray x.sink samples) (comediCbBlock ||| comediCbEos) })

/-- The end of `rtd_interrupt` from `transferDone` on. Nothing is left in the count there. -/
def transferDone (x : Acq) : Acq :=
  { x with
    p := { x.p with dma0Active := false }
    sink := raise x.sink comediCbEoa
    ended := true }

def abortTransfer (x : Acq) : Acq :=
  transferDone { x with
    p := { x.p with aiCount := 0 }
    sink := raise x.sink comediCbError }

/-- After a transfer: an abort if it failed, the end if nothing is wanted any more, and else what
comes next. -/
def afterTransfer (result : Bool × Acq) (next : Acq → Acq) : Acq :=
  if ¬ result.1 then abortTransfer result.2
  else if result.2.p.aiCount = 0 then transferDone result.2
  else next result.2

def checkOverrun (r : Reading) (x : Acq) : Acq :=
  if r.overrunStatus ≠ 0 then abortTransfer x else x

/-- `rtd_interrupt` from the reading of the interrupt status on. -/
def serveFifo (r : Reading) (x : Acq) : Acq :=
  if r.status = 0 then x
  else if r.status &&& irqmAdcAboutCnt ≠ 0 then
    if r.fifoStatus &&& fsAdcHempty = 0 then
      afterTransfer (aiReadN x (halfFifo board r.fifo)) (checkOverrun r)
    else if 0 < x.p.transCount.toInt ∧ r.fifoStatus &&& fsAdcNotEmpty ≠ 0 then
      afterTransfer (aiReadN x ((List.range x.p.transCount.toNat).map r.fifo)) (checkOverrun r)
    else checkOverrun r x
  else checkOverrun r x

/-- `rtd_interrupt` of an attached device. -/
def interrupt (x : Acq) (r : Reading) : Acq :=
  let x : Acq := { x with sink := { x.sink with free := r.free, events := 0 } }
  if r.fifoStatus &&& fsAdcNotFull = 0 then abortTransfer x
  else if board.useDma ∧ x.p.dma0Active ∧ r.plxStatus &&& icsDma0A ≠ 0 then
    afterTransfer (aiProcessDma board cmd x r) (serveFifo board r)
  else serveFifo board r x

def aiCancel (x : Acq) : Acq :=
  { x with p := { x.p with aiCount := 0, dma0Active := false }, ended := true }

inductive Step where
  | interrupt (r : Reading)
  | cancel

def perform (x : Acq) : Step → Acq
  | .interrupt r => interrupt board cmd x r
  | .cancel => aiCancel x

end Handlers

end Comedi.Rtd520
