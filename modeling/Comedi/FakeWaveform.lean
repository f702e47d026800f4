import Comedi.ComediTest
import Comedi.ChanlistCheck
import Comedi.SampleSink

namespace Comedi.FakeWaveform

open RtTimer (trigNow trigTimer trigCount)
open ChanlistCheck ComediTest SampleSink

abbrev U16 := BitVec 16
abbrev U64 := BitVec 64

structure Timeval where
  sec : Int
  usec : Int
  deriving DecidableEq, Repr

/-- `waveform_private`. The timer is pending when the interrupt is due to come. -/
structure WaveformPrivate where
  last : Timeval := ⟨0, 0⟩
  uvoltAmplitude : U32
  usecPeriod : U64
  usecCurrent : U64 := 0
  usecRemainder : U64 := 0
  aiCount : U64 := 0
  scanPeriod : U32 := 0
  convertPeriod : U32 := 0
  timerRunning : Bool := false
  timerPending : Bool := false

/-- The amplitude and the period that `waveform_attach` makes of its options, of type `int`. -/
def waveformAttach (amplitude period : U32) : WaveformPrivate where
  uvoltAmplitude := if amplitude.toInt ≤ 0 then 1000000 else amplitude
  usecPeriod := (if period.toInt ≤ 0 then 100000 else period).signExtend 64

def maxdata : U32 := (1 <<< 16) - 1

def bipRange (a : Int) : Krange where
  min := -a * 1000000
  max := a * 1000000

def waveformAiRanges : Lrange where
  length := 2
  range := [bipRange 10, bipRange 5]

/-- `range_table->range[range_index]`. The channel list is checked to have no other range. -/
def krangeAt (rangeIndex : U32) : Krange :=
  (waveformAiRanges.range[rangeIndex.toNat]?).getD (bipRange 10)

/-- `do_div`, the base of which has 32 bits. -/
def doDiv (n : U64) (base : U32) : U64 := n / base.setWidth 64

/-- The full scale of the waveform in samples. -/
def binaryAmplitude (drv : WaveformPrivate) (rangeIndex : U32) : U64 :=
  doDiv (maxdata.setWidth 64 * drv.uvoltAmplitude.setWidth 64)
    (BitVec.ofInt 32 ((krangeAt rangeIndex).max - (krangeAt rangeIndex).min))

def fakeSawtooth (drv : WaveformPrivate) (rangeIndex : U32) (currentTime : U64) : U16 :=
  let offset := maxdata / 2
  let time := currentTime % drv.usecPeriod
  let value := doDiv (time * (binaryAmplitude drv rangeIndex * 2)) (drv.usecPeriod.setWidth 32)
  (offset.setWidth 64 + (value - binaryAmplitude drv rangeIndex)).setWidth 16

def fakeSquarewave (drv : WaveformPrivate) (rangeIndex : U32) (currentTime : U64) : U16 :=
  let offset := maxdata / 2
  let time := currentTime % drv.usecPeriod
  let value := binaryAmplitude drv rangeIndex
  (offset.setWidth 64 + if time < drv.usecPeriod / 2 then -value else value).setWidth 16

def fakeFlatline : U16 := (maxdata / 2).setWidth 16

def sawtoothChan : U32 := 0
def squareChan : U32 := 1

def fakeWaveform (drv : WaveformPrivate) (channel rangeIndex : U32) (currentTime : U64) : U16 :=
  if channel = sawtoothChan then fakeSawtooth drv rangeIndex currentTime
  else if channel = squareChan then fakeSquarewave drv rangeIndex currentTime
  else fakeFlatline

def waveformAiCmd (drv : WaveformPrivate) (cmd : Cmd) (now : Timeval) : Int × WaveformPrivate :=
  if cmd.flags &&& trigRt ≠ 0 then (-1, drv)
  else
    let drv := { drv with
      timerRunning := true
      aiCount := 0
      scanPeriod := cmd.scanBeginArg / nanoPerMicro }
    if cmd.convertSrc ≠ trigNow ∧ cmd.convertSrc ≠ trigTimer then (-1, drv)
    else
      (0, { drv with
        convertPeriod :=
          if cmd.convertSrc = trigNow then 0 else cmd.convertArg / nanoPerMicro
        last := now
        usecCurrent := BitVec.ofInt 64 now.usec % drv.usecPeriod
        usecRemainder := 0
        timerPending := true })

/-- The device during an acquisition, with the buffer that it writes to. -/
structure Waveform where
  drv : WaveformPrivate
  cmd : Cmd
  sink : Sink U16 := {}

def entriesOf : Chanlist → List U32
  | .kernel entries => entries
  | .client entries => entries
  | _ => []

/-- `cmd->chanlist[j]`. -/
def chanspec (cmd : Cmd) (j : Nat) : U32 := (entriesOf cmd.chanlist).getD j 0

/-- The time of sample `j` in the `i`-th scan of an interrupt. The products have 32 bits. -/
def sampleTime (drv : WaveformPrivate) (i j : U32) : U64 :=
  drv.usecCurrent + (i * drv.scanPeriod).setWidth 64 + (j * drv.convertPeriod).setWidth 64

/-- The samples of the `i`-th scan of an interrupt. -/
def scanSamples (st : Waveform) (i : U32) : List U16 :=
  (List.range st.cmd.chanlistLen.toNat).map fun j =>
    fakeWaveform st.drv (crChan (chanspec st.cmd j)) (crRange (chanspec st.cmd j))
      (sampleTime st.drv i (BitVec.ofNat 32 j))

/-- The loop over the scans from the `i`-th on, of which `left` are left. -/
def writeScans (st : Waveform) : Nat → U32 → Waveform
  | 0, _ => st
  | left + 1, i =>
    let aiCount := st.drv.aiCount + 1
    let sink := putAll st.sink (scanSamples st i)
    if st.cmd.stopSrc = trigCount ∧ st.cmd.stopArg.setWidth 64 ≤ aiCount then
      { st with drv := { st.drv with aiCount := aiCount }, sink := raise sink comediCbEoa }
    else writeScans { st with drv := { st.drv with aiCount := aiCount }, sink := sink } left (i + 1)

def elapsedTime (last now : Timeval) : U64 :=
  BitVec.ofInt 64 (1000000 * (now.sec - last.sec) + now.usec - last.usec)

/-- An interrupt of the timer: the time of day, and how many samples the buffer has room for. -/
structure Tick where
  now : Timeval
  free : Nat

def waveformAiInterrupt (st : Waveform) (tick : Tick) : Waveform :=
  let elapsed := elapsedTime st.drv.last tick.now
  let scanPeriod := st.drv.scanPeriod.setWidth 64
  let numScans := ((st.drv.usecRemainder + elapsed) / scanPeriod).setWidth 32
  let drv := { st.drv with
    last := tick.now
    usecRemainder := (st.drv.usecRemainder + elapsed) % scanPeriod }
  let st := writeScans
    { st with drv := drv, sink := { st.sink with free := tick.free, events := 0 } } numScans.toNat 0
  { st with drv := { st.drv with
      usecCurrent := (st.drv.usecCurrent + elapsed) % st.drv.usecPeriod
      timerPending := st.sink.events &&& comediCbEoa = 0 ∧ st.drv.timerRunning } }

/-- The kernel runs the interrupt as long as the timer is pending. -/
def step (st : Waveform) (tick : Tick) : Waveform :=
  if st.drv.timerPending then waveformAiInterrupt st tick else st

/-- The device after the interrupts of a run. -/
def run (st : Waveform) (ticks : List Tick) : Waveform := ticks.foldl step st

/-- The device as `waveform_ai_cmd` leaves it when the acquisition starts. -/
def start (drv : WaveformPrivate) (cmd : Cmd) (now : Timeval) : Waveform where
  drv := (waveformAiCmd drv cmd now).2
  cmd := cmd

end Comedi.FakeWaveform
