import Comedi.NiTioCmd
import Comedi.Pcidas

namespace Comedi.PcidasAo

open ChanlistCheck Pcidas
open ComediTest (fix)
open FakeWaveform (chanspec)
open NiTioCmd (trigInt)
open Pci230 (trigExt)
open RtTimer (trigNone trigNow trigTimer trigCount cmdtestHelper)

def dacen : U32 := 0x2

def dacRange (channel range : U32) : U32 := (range &&& 0x3) <<< (8 + 2 * (channel &&& 0x1)).toNat

def dacRangeMask (channel : U32) : U32 := 0x3 <<< (8 + 2 * (channel &&& 0x1)).toNat

def dacEmpty : U32 := 0x1
def dacStart : U32 := 0x4
def dacPacerMask : U32 := 0x18
def dacPacerInt : U32 := 0x8
def dacPacerExtRise : U32 := 0x18

def dacChanEn (channel : U32) : U32 := 1 <<< (5 + (channel &&& 0x1)).toNat

def dahfie : U32 := 0x8
def daemie : U32 := 0x1000
def dahfi : U16 := 0x20
def daemi : U16 := 0x4000

section Test

variable (board : CbPcidasBoard)

def maskSources (cmd : Cmd) : Bool × Cmd :=
  cmdtestHelper cmd trigInt (trigTimer ||| trigExt) trigNow trigCount (trigCount ||| trigNone)

/-- Step 2 of `cb_pcidas_ao_cmdtest` finds an error. -/
def badSources (cmd : Cmd) : Prop :=
  (cmd.scanBeginSrc ≠ trigTimer ∧ cmd.scanBeginSrc ≠ trigExt) ∨
    (cmd.stopSrc ≠ trigCount ∧ cmd.stopSrc ≠ trigNone)

instance (cmd : Cmd) : Decidable (badSources cmd) := inferInstanceAs (Decidable (_ ∨ _))

def slowScan (cmd : Cmd) : Bool × Cmd :=
  fix (cmd.scanBeginSrc = trigTimer ∧ cmd.scanBeginArg < board.aoScanSpeed)
    { cmd with scanBeginArg := board.aoScanSpeed } cmd

/-- Step 3 of `cb_pcidas_ao_cmdtest`. -/
def fixArgs (cmd : Cmd) : Bool × Cmd :=
  let start := fix (cmd.startArg ≠ 0) { cmd with startArg := 0 } cmd
  let scan := slowScan board start.2
  let scanEnd := fixScanEnd scan.2
  let stop := fixStop scanEnd.2
  (start.1 || scan.1 || scanEnd.1 || stop.1, stop.2)

/-- The channels of a list of more than one are not 0 and 1. -/
def badChanlist (cmd : Cmd) : Prop :=
  cmd.chanlist ≠ .null ∧ 1 < cmd.chanlistLen ∧
    (crChan (chanspec cmd 0) ≠ 0 ∨ crChan (chanspec cmd 1) ≠ 1)

instance (cmd : Cmd) : Decidable (badChanlist cmd) := inferInstanceAs (Decidable (_ ∧ _))

/-- `cb_pcidas_ao_cmdtest`, with the divisors of analog output. -/
def cbPcidasAoCmdtest (x : AiTest) : Int × AiTest :=
  let masked := maskSources x.cmd
  if masked.1 then (1, { x with cmd := masked.2 })
  else if badSources masked.2 then (2, { x with cmd := masked.2 })
  else
    let args := fixArgs board masked.2
    if args.1 then (3, { x with cmd := args.2 })
    else
      let rounded := roundScanBegin { x with cmd := args.2 }
      if rounded.1 then (4, rounded.2)
      else if badChanlist rounded.2.cmd then (5, rounded.2)
      else (0, rounded.2)

end Test

/-- What the analog output subdevice is doing, as the core sees it. -/
inductive Phase where
  | idle
  | armed
  | running
  | ended
  deriving DecidableEq, Repr

/-- The analog output of a board with a FIFO: what the driver keeps, the words that the registers
hold, the FIFO since it was cleared, and the data buffer with what the user has written to it. -/
structure Ao where
  aoControlBits : U32 := 0
  adcFifoBits : U32 := 0
  dacCsr : U16 := 0
  intAdcfifo : U16 := 0
  aoValue : List U16 := [0, 0]
  aoDivisor1 : U32 := 0
  aoDivisor2 : U32 := 0
  aoCount : U32 := 0
  fifo : List U16 := []
  cmd : Cmd := {}
  phase : Phase := .idle
  inttrig : Bool := false
  written : List U16 := []
  waiting : List U16 := []
  events : U32 := 0

/-- The lower half of a word is what a register takes. -/
def outw (word : U32) : U16 := word.setWidth 16

/-- The entries of the channel list. -/
def entries (cmd : Cmd) : List U32 :=
  (List.range cmd.chanlistLen.toNat).map (chanspec cmd)

/-- Each entry enables its channel and sets its range, bit by bit. -/
def enable (bits : U32) (entry : U32) : U32 :=
  bits ||| dacChanEn (crChan entry) ||| dacRange (crChan entry) (crRange entry)

section Operations

variable (board : CbPcidasBoard) (st : Ao)

/-- `cb_pcidas_ao_fifo_winsn`. -/
def fifoWinsn (n : Nat) (chanspec : U32) (data : U16) : Ao :=
  if n = 0 then st
  else
    let channel := crChan chanspec
    let bits := st.aoControlBits &&& (~~~dacChanEn 0 &&& ~~~dacChanEn 1 &&&
      ~~~dacRangeMask channel &&& ~~~dacPacerMask) |||
        (dacen ||| dacRange channel (crRange chanspec) ||| dacChanEn channel ||| dacStart)
    { st with
      aoControlBits := bits
      dacCsr := outw bits
      aoValue := st.aoValue.set channel.toNat data
      fifo := [data] }

def pacer (cmd : Cmd) : Option U32 :=
  if cmd.scanBeginSrc = trigTimer then some dacPacerInt
  else if cmd.scanBeginSrc = trigExt then some dacPacerExtRise
  else none

/-- The counters of a timed scan are loaded with its period. -/
def loadCounters : Ao :=
  if st.cmd.scanBeginSrc = trigTimer then
    let t := I8253.cascadeNsToTimer2div timerBase
      ⟨st.aoDivisor1, st.aoDivisor2, st.cmd.scanBeginArg⟩ st.cmd.flags
    { st with
      aoDivisor1 := t.d1
      aoDivisor2 := t.d2
      cmd := { st.cmd with scanBeginArg := t.nanosec } }
  else st

/-- `cb_pcidas_ao_cmd`; without a pacer the core takes the command back. -/
def aoCmd : Ao :=
  let bits := (entries st.cmd).foldl enable st.aoControlBits
  let loaded := loadCounters { st with aoControlBits := bits, dacCsr := outw bits, fifo := [] }
  let counted :=
    { loaded with aoCount := if counts loaded.cmd then loaded.cmd.chanlistLen * loaded.cmd.stopArg
        else loaded.aoCount }
  match pacer counted.cmd with
  | some source =>
    { counted with
      aoControlBits := bits ||| source
      phase := .armed
      inttrig := true }
  | none => counted

/-- `do_cmd_ioctl`: a command is tested, and begun where nothing else is. -/
def doCmd (cmd : Cmd) : Ao :=
  if st.phase ≠ .idle then st
  else
    let tested := cbPcidasAoCmdtest board ⟨st.aoDivisor1, st.aoDivisor2, cmd⟩
    let st := { st with aoDivisor1 := tested.2.divisor1, aoDivisor2 := tested.2.divisor2 }
    if tested.2.cmd.flags &&& trigBogus ≠ 0 ∨ tested.1 ≠ 0 then { st with cmd := tested.2.cmd }
    else aoCmd { st with cmd := tested.2.cmd, written := [], waiting := [] }

/-- At most `num` samples go from the buffer to the FIFO. -/
def moveSamples (num : U32) : Ao :=
  let points := if counts st.cmd ∧ st.aoCount < num then st.aoCount else num
  let moved := st.waiting.take points.toNat
  { st with
    aoCount := if counts st.cmd then st.aoCount - BitVec.ofNat 32 moved.length else st.aoCount
    fifo := st.fifo ++ moved
    waiting := st.waiting.drop points.toNat
    events := if moved = [] then st.events else st.events ||| comediCbBlock }

/-- `cb_pcidas_ao_inttrig`. -/
def aoInttrig (trigNum : U32) : Ao :=
  if st.inttrig = false ∨ trigNum ≠ 0 then st
  else
    let moved := moveSamples st board.fifoSize
    let fifoBits := moved.adcFifoBits ||| (daemie ||| dahfie)
    let bits := moved.aoControlBits ||| (dacStart ||| dacen ||| dacEmpty)
    { moved with
      adcFifoBits := fifoBits
      intAdcfifo := outw fifoBits ||| daemi ||| dahfi
      aoControlBits := bits
      dacCsr := outw bits
      inttrig := false
      phase := if st.phase = .armed then .running else st.phase }

/-- `cb_pcidas_ao_cancel`. -/
def aoCancel : Ao :=
  let fifoBits := st.adcFifoBits &&& (~~~dahfie &&& ~~~daemie)
  let bits := st.aoControlBits &&& (~~~dacen &&& ~~~dacPacerMask)
  { st with
    adcFifoBits := fifoBits
    intAdcfifo := outw fifoBits
    aoControlBits := bits
    dacCsr := outw bits }

/-- Samples are missing that the command asks for. -/
def underflow : Prop :=
  st.cmd.stopSrc = trigNone ∨ counts st.cmd ∧ st.aoCount ≠ 0

instance : Decidable (underflow st) := inferInstanceAs (Decidable (_ ∨ _))

/-- What an interrupt reads: the status, and the control register. -/
structure AoReading where
  status : U16
  csr : U16

/-- The FIFO was found empty. -/
def serveEmpty (csr : U16) : Ao :=
  let st := { st with intAdcfifo := outw st.adcFifoBits ||| daemi }
  if csr &&& outw dacEmpty ≠ 0 then
    let stopped := if underflow st then
      let stopped := aoCancel st
      { stopped with events := stopped.events ||| comediCbError } else st
    { stopped with events := stopped.events ||| comediCbEoa }
  else st

/-- The FIFO was found half empty. -/
def serveHalf : Ao :=
  let moved := moveSamples st (halfFifo board)
  { moved with intAdcfifo := outw moved.adcFifoBits ||| dahfi }

/-- `comedi_event` takes note of the end of a command. -/
def noteEvents : Ao :=
  if (st.phase = .armed ∨ st.phase = .running) ∧
      st.events &&& (comediCbEoa ||| comediCbError ||| comediCbOverflow) ≠ 0 then
    { st with phase := .ended }
  else st

/-- `handle_ao_interrupt`, where `cb_pcidas_interrupt` finds it to be asked for. -/
def interrupt (r : AoReading) : Ao :=
  if r.status &&& (dahfi ||| daemi) = 0 then st
  else
    let st := { st with events := 0 }
    noteEvents (if r.status &&& daemi ≠ 0 then serveEmpty st r.csr else serveHalf board st)

/-- `do_become_nonbusy`. -/
def becomeNonbusy : Ao :=
  { st with phase := .idle, inttrig := false, written := [], waiting := [] }

/-- `do_cancel`, which leaves a command alone that has ended. -/
def doCancel : Ao :=
  match st.phase with
  | .idle => st
  | .armed | .running => becomeNonbusy (aoCancel st)
  | .ended => becomeNonbusy st

/-- The user writes to the buffer of a command. -/
def write (samples : List U16) : Ao :=
  if st.phase = .idle then st
  else { st with written := st.written ++ samples, waiting := st.waiting ++ samples }

/-- An instruction, which a busy subdevice refuses. -/
def insnWrite (n : Nat) (chanspec : U32) (data : U16) : Ao :=
  if st.phase = .idle then fifoWinsn st n chanspec data else st

end Operations

inductive Op where
  | insnWrite (n : Nat) (chanspec : U32) (data : U16)
  | cmd (cmd : Cmd)
  | write (samples : List U16)
  | inttrig (trigNum : U32)
  | interrupt (r : AoReading)
  | cancel

def step (board : CbPcidasBoard) (st : Ao) : Op → Ao
  | .insnWrite n chanspec data => insnWrite st n chanspec data
  | .cmd cmd => doCmd board st cmd
  | .write samples => write st samples
  | .inttrig trigNum => aoInttrig board st trigNum
  | .interrupt r => interrupt board st r
  | .cancel => doCancel st

end Comedi.PcidasAo
