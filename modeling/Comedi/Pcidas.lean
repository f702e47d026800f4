import Comedi.ComediTest
import Comedi.FakeWaveform
import Comedi.I8253
import Comedi.Pci230
import Comedi.SampleSink

namespace Comedi.Pcidas

open ChanlistCheck SampleSink
open ComediTest (fix)
open FakeWaveform (chanspec)
open I8253 (cascadeNsToTimer2div trigRoundMask)
open Pci230 (trigExt crEdge crInvert crAref arefDiff)
open RtTimer (trigNone trigNow trigFollow trigTimer trigCount cmdtestHelper)

abbrev U16 := BitVec 16

def timerBase : U32 := 100
def crFlagsMask : U32 := 0xfc000000

def intr : U16 := 0x80
def eobi : U16 := 0x200
def adhfi : U16 := 0x400
def adnei : U16 := 0x800
def ladful : U16 := 0x2000

def isUnipolar : U32 := 0x4
def unip : U32 := 0x800
def se : U32 := 0x400
def pacerInt : U32 := 0x1000
def pacerExtRise : U32 := 0x3000

/-- The members of `cb_pcidas_board` that the commands depend on. -/
structure CbPcidasBoard where
  aiSeChans : U32 := 16
  aiSpeed : U32
  aoNchan : U32
  hasAoFifo : Bool := false
  aoScanSpeed : U32 := 0
  fifoSize : U32 := 1024
  hasAiTrigInvert : Bool := false

def cbPcidasBoards : List CbPcidasBoard :=
  [{ aiSpeed := 5000, aoNchan := 2, hasAoFifo := true, aoScanSpeed := 10000, fifoSize := 512,
     hasAiTrigInvert := true },
   { aiSpeed := 3200, aoNchan := 2 },
   { aiSpeed := 3200, aoNchan := 2, hasAoFifo := true, aoScanSpeed := 4000,
     hasAiTrigInvert := true },
   { aiSpeed := 3200, aoNchan := 0 },
   { aiSpeed := 5000, aoNchan := 0, fifoSize := 512, hasAiTrigInvert := true },
   { aiSpeed := 4000, aoNchan := 0 },
   { aiSpeed := 6800, aoNchan := 2 },
   { aiSpeed := 6800, aoNchan := 2 }]

def maskSources (cmd : Cmd) : Bool × Cmd :=
  cmdtestHelper cmd (trigNow ||| trigExt) (trigFollow ||| trigTimer ||| trigExt)
    (trigTimer ||| trigNow ||| trigExt) trigCount (trigCount ||| trigNone)

/-- Step 2 of `cb_pcidas_ai_cmdtest` finds an error. -/
def badSources (cmd : Cmd) : Prop :=
  (cmd.startSrc ≠ trigNow ∧ cmd.startSrc ≠ trigExt) ∨
    (cmd.scanBeginSrc ≠ trigFollow ∧ cmd.scanBeginSrc ≠ trigTimer ∧
      cmd.scanBeginSrc ≠ trigExt) ∨
    (cmd.convertSrc ≠ trigTimer ∧ cmd.convertSrc ≠ trigExt ∧ cmd.convertSrc ≠ trigNow) ∨
    (cmd.stopSrc ≠ trigCount ∧ cmd.stopSrc ≠ trigNone) ∨
    (cmd.scanBeginSrc = trigFollow ∧ cmd.convertSrc = trigNow) ∨
    (cmd.scanBeginSrc ≠ trigFollow ∧ cmd.convertSrc ≠ trigNow) ∨
    (cmd.startSrc = trigExt ∧ (cmd.convertSrc = trigExt ∨ cmd.scanBeginSrc = trigExt))

instance (cmd : Cmd) : Decidable (badSources cmd) := by unfold badSources; infer_instance

section Arguments

variable (board : CbPcidasBoard)

def startFlags : U32 := crFlagsMask &&& ~~~(crEdge ||| crInvert)

def fixStartFlags (cmd : Cmd) : Bool × Cmd :=
  fix (cmd.startArg &&& startFlags ≠ 0) { cmd with startArg := cmd.startArg &&& ~~~startFlags } cmd

def fixStartInvert (cmd : Cmd) : Bool × Cmd :=
  fix (board.hasAiTrigInvert = false ∧ cmd.startArg &&& crInvert ≠ 0)
    { cmd with startArg := cmd.startArg &&& (crFlagsMask &&& ~~~crInvert) } cmd

def fixStart (cmd : Cmd) : Bool × Cmd :=
  if cmd.startSrc = trigExt then
    let flags := fixStartFlags cmd
    let invert := fixStartInvert board flags.2
    (flags.1 || invert.1, invert.2)
  else fix (cmd.startArg ≠ 0) { cmd with startArg := 0 } cmd

def slowScanBegin (cmd : Cmd) : Bool × Cmd :=
  fix (cmd.scanBeginSrc = trigTimer ∧ cmd.scanBeginArg < board.aiSpeed * cmd.chanlistLen)
    { cmd with scanBeginArg := board.aiSpeed * cmd.chanlistLen } cmd

def slowConvert (cmd : Cmd) : Bool × Cmd :=
  fix (cmd.convertSrc = trigTimer ∧ cmd.convertArg < board.aiSpeed)
    { cmd with convertArg := board.aiSpeed } cmd

def fixScanEnd (cmd : Cmd) : Bool × Cmd :=
  fix (cmd.scanEndArg ≠ cmd.chanlistLen) { cmd with scanEndArg := cmd.chanlistLen } cmd

def fixStop (cmd : Cmd) : Bool × Cmd :=
  fix (cmd.stopSrc = trigNone ∧ cmd.stopArg ≠ 0) { cmd with stopArg := 0 } cmd

/-- Step 3 of `cb_pcidas_ai_cmdtest`. -/
def fixArgs (cmd : Cmd) : Bool × Cmd :=
  let start := fixStart board cmd
  let scanBegin := slowScanBegin board start.2
  let convert := slowConvert board scanBegin.2
  let scanEnd := fixScanEnd convert.2
  let stop := fixStop scanEnd.2
  (start.1 || scanBegin.1 || convert.1 || scanEnd.1 || stop.1, stop.2)

end Arguments

/-- A command under test, and the divisors that the driver keeps from test to test. -/
structure AiTest where
  divisor1 : U32 := 0
  divisor2 : U32 := 0
  cmd : Cmd

/-- The period that the pacer can have instead of `ns`, and the divisors for it. -/
def pace (x : AiTest) (ns : U32) : I8253.Timer :=
  cascadeNsToTimer2div timerBase ⟨x.divisor1, x.divisor2, ns⟩ (x.cmd.flags &&& trigRoundMask)

def roundScanBegin (x : AiTest) : Bool × AiTest :=
  if x.cmd.scanBeginSrc = trigTimer then
    let t := pace x x.cmd.scanBeginArg
    (x.cmd.scanBeginArg ≠ t.nanosec, ⟨t.d1, t.d2, { x.cmd with scanBeginArg := t.nanosec }⟩)
  else (false, x)

def roundConvert (x : AiTest) : Bool × AiTest :=
  if x.cmd.convertSrc = trigTimer then
    let t := pace x x.cmd.convertArg
    (x.cmd.convertArg ≠ t.nanosec, ⟨t.d1, t.d2, { x.cmd with convertArg := t.nanosec }⟩)
  else (false, x)

/-- Step 4 of `cb_pcidas_ai_cmdtest`. -/
def roundArgs (x : AiTest) : Bool × AiTest :=
  let scanBegin := roundScanBegin x
  let convert := roundConvert scanBegin.2
  (scanBegin.1 || convert.1, convert.2)

/-- Entry `i` is not the channel that follows, or it has another gain. -/
def badEntry (nChan : U32) (cmd : Cmd) (i : Nat) : Prop :=
  (crChan (chanspec cmd i)).toNat ≠ ((crChan (chanspec cmd 0)).toNat + i) % nChan.toNat ∨
    crRange (chanspec cmd i) ≠ crRange (chanspec cmd 0)

instance (nChan : U32) (cmd : Cmd) (i : Nat) : Decidable (badEntry nChan cmd i) :=
  inferInstanceAs (Decidable (_ ∨ _))

def badChanlist (nChan : U32) (cmd : Cmd) : Prop :=
  cmd.chanlist ≠ .null ∧ ∃ i < cmd.chanlistLen.toNat, 1 ≤ i ∧ badEntry nChan cmd i

instance (nChan : U32) (cmd : Cmd) : Decidable (badChanlist nChan cmd) :=
  inferInstanceAs (Decidable (_ ∧ _))

def cbPcidasAiCmdtest (board : CbPcidasBoard) (x : AiTest) : Int × AiTest :=
  let masked := maskSources x.cmd
  if masked.1 then (1, { x with cmd := masked.2 })
  else if badSources masked.2 then (2, { x with cmd := masked.2 })
  else
    let args := fixArgs board masked.2
    if args.1 then (3, { x with cmd := args.2 })
    else
      let rounded := roundArgs { x with cmd := args.2 }
      if rounded.1 then (4, rounded.2)
      else if badChanlist board.aiSeChans rounded.2.cmd then (5, rounded.2)
      else (0, rounded.2)

def beginScan (x : U32) : U32 := x &&& 0xf
def endScan (x : U32) : U32 := (x &&& 0xf) <<< 4
def gainBits (x : U32) : U32 := (x &&& 0x3) <<< 8

/-- The word that `cb_pcidas_ai_cmd` writes to `ADCMUX_CONT`. -/
def adcmux (cmd : Cmd) : U32 :=
  let first := chanspec cmd 0
  beginScan (crChan first) ||| endScan (crChan (chanspec cmd (cmd.chanlistLen - 1).toNat)) |||
    gainBits (crRange first) ||| (if crRange first &&& isUnipolar ≠ 0 then unip else 0) |||
    (if crAref first ≠ arefDiff then se else 0) |||
    (if cmd.convertSrc = trigExt ∨ cmd.scanBeginSrc = trigExt then pacerExtRise else pacerInt)

def counts (cmd : Cmd) : Prop := cmd.stopSrc = trigCount

instance (cmd : Cmd) : Decidable (counts cmd) := inferInstanceAs (Decidable (_ = _))

/-- `devpriv->count`, and the buffer. -/
structure Acq where
  count : U32
  sink : Sink U16 := {}

/-- The acquisition that `cb_pcidas_ai_cmd` begins; `count` is what an earlier one has left. -/
def aiCmd (cmd : Cmd) (count : U32) : Acq :=
  ⟨if counts cmd then cmd.chanlistLen * cmd.stopArg else count, {}⟩

/-- What an interrupt meets: the status, the words at the data register, how often the loop over
them finds the FIFO not empty, and the free space of the buffer. -/
structure Reading where
  status : U16
  word : Nat → U16
  notEmpty : Nat
  free : Nat

def timeout : Nat := 10000

section Interrupt

variable (board : CbPcidasBoard) (cmd : Cmd)

/-- The loop over a FIFO that is not empty. -/
def drain : Acq → List U16 → Acq
  | x, [] => x
  | x, w :: ws =>
    let sink := put x.sink w
    if counts cmd then
      if x.count - 1 = 0 then ⟨x.count - 1, raise sink comediCbEoa⟩
      else drain ⟨x.count - 1, sink⟩ ws
    else drain ⟨x.count, sink⟩ ws

def halfFifo : U32 := board.fifoSize / 2

/-- The number of samples that are read from a FIFO that is half full. -/
def numSamples (count : U32) : U32 :=
  if counts cmd ∧ count < halfFifo board then count else halfFifo board

def readHalf (x : Acq) (r : Reading) : Acq :=
  let n := numSamples board cmd x.count
  let sink := putArray x.sink ((List.range n.toNat).map r.word)
  ⟨x.count - n, if counts cmd ∧ x.count - n = 0 then raise sink comediCbEoa else sink⟩

def serve (x : Acq) (r : Reading) : Acq :=
  if r.status &&& adhfi ≠ 0 then readHalf board cmd x r
  else if r.status &&& (adnei ||| eobi) ≠ 0 then
    drain cmd x ((List.range (min timeout r.notEmpty)).map r.word)
  else x

/-- The analog input part of `cb_pcidas_interrupt`, where the interrupt was asserted. -/
def interrupt (x : Acq) (r : Reading) : Acq :=
  let x := serve board cmd { x with sink := { x.sink with free := r.free, events := 0 } } r
  if r.status &&& ladful ≠ 0 then
    { x with sink := raise x.sink (comediCbEoa ||| comediCbError) }
  else x

end Interrupt

end Comedi.Pcidas
