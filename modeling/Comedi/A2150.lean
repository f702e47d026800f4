import Comedi.ComediTest
import Comedi.FakeWaveform
import Comedi.I8253
import Comedi.Pci230
import Comedi.RtTimer
import Comedi.SampleSink

namespace Comedi.A2150

open ChanlistCheck SampleSink
open ComediTest (fix fixStart fixChanlistLen fixScanEnd fixStop)
open FakeWaveform (entriesOf)
open I8253 (trigRoundMask trigRoundDown trigRoundUp)
open Pci230 (trigExt crAref)
open RtTimer (cmdtestHelper trigNone trigNow trigTimer trigCount)

abbrev U16 := BitVec 16

def channelMask : U32 := 0x7
def clockMask : U32 := 0x78
def ac0Bit : U32 := 0x200
def ac1Bit : U32 := 0x400
def dmaEnBit : U32 := 0x8
def dmaIntrEnBit : U32 := 0x800
def ovflBit : U16 := 0x8
def intrBit : U16 := 0x40
def dmaTcBit : U16 := 0x80
def postTriggerBits : U32 := 0x2
def delayTriggerBits : U32 := 0x3
def hwTrigEn : U32 := 0x10

def configReg : Nat := 0x0
def triggerReg : Nat := 0x2
def fifoStartReg : Nat := 0x6
def fifoResetReg : Nat := 0x8
def dmaTcClearReg : Nat := 0xe
def irqDmaCntrlReg : Nat := 0x12

def dmaBufferSize : U32 := 0xff00
def sampleSize : U32 := 2
def oneThirdSecond : U32 := 333333333
def arefOther : U32 := 0x3

def clockSelectBits (x : U32) : U32 := (x &&& 0x3) <<< 3
def clockDivisorBits (x : U32) : U32 := (x &&& 0x3) <<< 5
def channelBits (x : U32) : U32 := x &&& 0x7

structure A2150Board where
  clock : Nat → U32
  numClocks : Nat
  aiSpeed : U32

def a2150c : A2150Board where
  clock j := [31250, 22676, 20833, 19531].getD j 0
  numClocks := 4
  aiSpeed := 19531

def a2150s : A2150Board where
  clock j := [62500, 50000, 41667, 0].getD j 0
  numClocks := 3
  aiSpeed := 41667

def a2150Boards : List A2150Board := [a2150c, a2150s]

/-- What is written to the board: words, and the settings of the counter. -/
inductive Write
  | outw (value : U16) (reg : Nat)
  | i8254Load (counter count mode : U32)
  deriving DecidableEq

/-- The private data, the interrupt, and what has been written. -/
structure Private where
  irq : U32 := 0
  dma : U32 := 0
  count : U32 := 0
  dmaTransferSize : U32 := 0
  irqDmaBits : U32 := 0
  configBits : U32 := 0
  written : List Write := []
  deriving DecidableEq

def Private.outw (p : Private) (value : U32) (reg : Nat) : Private :=
  { p with written := p.written ++ [.outw (value.setWidth 16) reg] }

section Timing

/-- A period that the board can have. -/
structure Bound where
  divisorShift : Nat
  index : Nat
  period : U32

variable (board : A2150Board) (period : U32)

def periodOf (i j : Nat) : Bound := ⟨i, j, board.clock j * BitVec.ofNat 32 (1 <<< i)⟩

def clampPeriod (lub glb : Bound) : U32 :=
  let period := if period < glb.period then glb.period else period
  if lub.period < period then lub.period else period

def tryPeriod (b : Bound × Bound) (temp : Bound) : Bound × Bound :=
  (if temp.period < b.1.period ∧ period ≤ temp.period then temp else b.1,
    if b.2.period < temp.period ∧ temp.period ≤ period then temp else b.2)

/-- The least upper and the greatest lower bound among the periods. -/
def bounds (b : Bound × Bound) : Bound × Bound :=
  (List.range 4).foldl (fun b i =>
    (List.range board.numClocks).foldl (fun b j => tryPeriod period b (periodOf board i j)) b) b

def choosePeriod (flags : U32) (lub glb : Bound) : U32 :=
  let mode := flags &&& trigRoundMask
  if mode = trigRoundUp then lub.period
  else if mode = trigRoundDown then glb.period
  else if lub.period - period < period - glb.period then lub.period
  else glb.period

def clockBits (b : Bound) : U32 :=
  clockSelectBits (BitVec.ofNat 32 b.index) ||| clockDivisorBits (BitVec.ofNat 32 b.divisorShift)

/-- The period that the board will have, and the clock bits for it. -/
def timing (flags : U32) : U32 × U32 :=
  let lub := periodOf board 3 0
  let glb := periodOf board 0 (board.numClocks - 1)
  let period := clampPeriod period lub glb
  let b := bounds board period (lub, glb)
  let chosen := choosePeriod period flags b.1 b.2
  (chosen, if chosen = b.1.period then clockBits b.1 else clockBits b.2)

def a2150GetTiming (p : Private) (flags : U32) : U32 × Private :=
  let t := timing board period flags
  (t.1, { p with configBits := (p.configBits &&& ~~~clockMask) ||| t.2 })

end Timing

def a2150SetChanlist (p : Private) (startChannel numChannels : U32) : Int × Private :=
  if 4 < startChannel + numChannels then (-1, p)
  else
    let p := { p with configBits := p.configBits &&& ~~~channelMask }
    if numChannels = 1 then
      (0, { p with configBits := p.configBits ||| channelBits (0x4 ||| startChannel) })
    else if numChannels = 2 then
      if startChannel = 0 then (0, { p with configBits := p.configBits ||| channelBits 0x2 })
      else if startChannel = 2 then (0, { p with configBits := p.configBits ||| channelBits 0x3 })
      else (-1, p)
    else if numChannels = 4 then (0, { p with configBits := p.configBits ||| channelBits 0x1 })
    else (-1, p)

/-- What lies in memory behind a channel list. Nothing may be there that can be read. -/
abbrev Behind := Nat → Option U32

/-- `cmd->chanlist[i]`. -/
def entryAt (cmd : Cmd) (behind : Behind) (i : Nat) : Option U32 :=
  match (entriesOf cmd.chanlist)[i]? with
  | some x => some x
  | none => behind (i - (entriesOf cmd.chanlist).length)

section Cmdtest

variable (board : A2150Board)

def maskSources (cmd : Cmd) : Bool × Cmd :=
  cmdtestHelper cmd (trigNow ||| trigExt) trigTimer trigNow trigCount (trigCount ||| trigNone)

/-- Step 2 of `a2150_ai_cmdtest` finds an error. -/
def badSources (cmd : Cmd) : Prop :=
  (cmd.startSrc ≠ trigNow ∧ cmd.startSrc ≠ trigExt) ∨
    (cmd.stopSrc ≠ trigCount ∧ cmd.stopSrc ≠ trigNone)

instance (cmd : Cmd) : Decidable (badSources cmd) := inferInstanceAs (Decidable (_ ∨ _))

def slowConvert (cmd : Cmd) : Bool × Cmd :=
  fix (cmd.convertSrc = trigTimer ∧ cmd.convertArg < board.aiSpeed)
    { cmd with convertArg := board.aiSpeed } cmd

/-- Step 3 of `a2150_ai_cmdtest`. -/
def fixArgs (cmd : Cmd) : Bool × Cmd :=
  let start := fixStart cmd
  let convert := slowConvert board start.2
  let chanlistLen := fixChanlistLen convert.2
  let scanEnd := fixScanEnd chanlistLen.2
  let stop := fixStop scanEnd.2
  (start.1 || convert.1 || chanlistLen.1 || scanEnd.1 || stop.1, stop.2)

/-- Step 4 of `a2150_ai_cmdtest`. The clock bits of the device are set by the test already. -/
def roundArgs (p : Private) (cmd : Cmd) : Bool × Cmd × Private :=
  if cmd.scanBeginSrc = trigTimer then
    let t := a2150GetTiming board cmd.scanBeginArg p cmd.flags
    (cmd.scanBeginArg ≠ t.1, { cmd with scanBeginArg := t.1 }, t.2)
  else (false, cmd, p)

/-- The entries from the second one on are not the channels that follow the first one. -/
def notConsecutive (startChan : U32) (entries : List U32) : Prop :=
  ∃ i < entries.length, crChan (entries.getD i 0) ≠ startChan + BitVec.ofNat 32 (i + 1)

instance (startChan : U32) (entries : List U32) : Decidable (notConsecutive startChan entries) := by
  unfold notConsecutive; infer_instance

/-- The rule for the analog references of the channels 0 and 1 and of 2 and 3. The second pair is
not looked at when the first one breaks it. -/
def badAref (cmd : Cmd) (behind : Behind) : Option Bool := do
  let x ← entryAt cmd behind 0
  let y ← entryAt cmd behind 1
  if crAref x ≠ crAref y then return true
  let x ← entryAt cmd behind 2
  let y ← entryAt cmd behind 3
  return crAref x ≠ crAref y

/-- Step 5 of `a2150_ai_cmdtest`. -/
def badChanlist (cmd : Cmd) (behind : Behind) : Option Bool := do
  let first ← entryAt cmd behind 0
  let entries ← (List.range (cmd.chanlistLen - 1).toNat).mapM fun i => entryAt cmd behind (i + 1)
  let aref ← badAref cmd behind
  return notConsecutive (crChan first) entries || (cmd.chanlistLen = 2 ∧ crChan first = 1) ||
    cmd.chanlistLen = 3 || aref

/-- Without a result where memory is read that cannot be. -/
def a2150AiCmdtest (behind : Behind) (p : Private) (cmd : Cmd) : Option (Int × Cmd × Private) :=
  let masked := maskSources cmd
  if masked.1 then some (1, masked.2, p)
  else if badSources masked.2 then some (2, masked.2, p)
  else
    let args := fixArgs board masked.2
    if args.1 then some (3, args.2, p)
    else
      let rounded := roundArgs board p args.2
      if rounded.1 then some (4, rounded.2)
      else if rounded.2.1.chanlist = .null then some (0, rounded.2)
      else do
        let bad ← badChanlist rounded.2.1 behind
        return if bad then (5, rounded.2) else (0, rounded.2)

end Cmdtest

/-- The 8237: the count that it was last programmed with, in bytes, and whether it is enabled.
With the buffer in memory, and the buffer of the subdevice. -/
structure Acq where
  p : Private
  programmed : U32 := 0
  enabled : Bool := false
  dmaBuffer : Nat → U16 := fun _ => 0
  sink : Sink U16 := {}

def counts (cmd : Cmd) : Prop := cmd.stopSrc = trigCount

instance (cmd : Cmd) : Decidable (counts cmd) := inferInstanceAs (Decidable (_ = _))

section Command

variable (board : A2150Board)

def coupling (p : Private) (bit aref : U32) : Private :=
  if aref = arefOther then { p with configBits := p.configBits ||| bit }
  else { p with configBits := p.configBits &&& ~~~bit }

/-- The size of a transfer that fills in a third of a second, in bytes. -/
def transferSize (cmd : Cmd) : U32 :=
  let size := sampleSize * cmd.chanlistLen * oneThirdSecond / cmd.scanBeginArg
  let size := if dmaBufferSize < size then dmaBufferSize else size
  let size := if size < sampleSize then sampleSize else size
  size - size % sampleSize

def triggerBits (cmd : Cmd) (oldConfigBits configBits : U32) : U32 :=
  let bits :=
    if cmd.startSrc = trigNow ∧ oldConfigBits &&& clockMask ≠ configBits &&& clockMask then
      delayTriggerBits
    else postTriggerBits
  if cmd.startSrc = trigExt then bits ||| hwTrigEn else bits

/-- `a2150_ai_cmd` from the timing on. -/
def startDma (x : Acq) (cmd : Cmd) (oldConfigBits : U32) : Acq :=
  let size := transferSize cmd
  let p := x.p.outw x.p.configBits configReg
  let p := { p with count := cmd.stopArg * cmd.chanlistLen, dmaTransferSize := size }
  let p := p.outw 0 dmaTcClearReg
  let p := { p with irqDmaBits := p.irqDmaBits ||| (dmaIntrEnBit ||| dmaEnBit) }
  let p := p.outw p.irqDmaBits irqDmaCntrlReg
  let p := { p with written := p.written ++ [Write.i8254Load 2 72 0] }
  let p := p.outw (triggerBits cmd oldConfigBits p.configBits) triggerReg
  let p := if cmd.startSrc = trigNow then p.outw 0 fifoStartReg else p
  { x with p := p, programmed := size, enabled := true }

def a2150AiCmd (behind : Behind) (x : Acq) (cmd : Cmd) : Option (Int × Cmd × Acq) :=
  if x.p.irq = 0 ∨ x.p.dma = 0 then some (-1, cmd, x)
  else if cmd.flags &&& trigRt ≠ 0 then some (-1, cmd, x)
  else do
    let p := x.p.outw 0 fifoResetReg
    let first ← entryAt cmd behind 0
    let set := a2150SetChanlist p (crChan first) cmd.chanlistLen
    if set.1 < 0 then return (-1, cmd, { x with p := set.2 })
    let third ← entryAt cmd behind 2
    let p := coupling (coupling set.2 ac0Bit (crAref first)) ac1Bit (crAref third)
    let t := a2150GetTiming board cmd.scanBeginArg p cmd.flags
    let cmd := { cmd with scanBeginArg := t.1 }
    return (0, cmd, startDma { x with p := t.2 } cmd x.p.configBits)

end Command

def a2150Cancel (x : Acq) : Acq :=
  let p := { x.p with irqDmaBits := x.p.irqDmaBits &&& (~~~dmaIntrEnBit &&& ~~~dmaEnBit) }
  let p := p.outw p.irqDmaBits irqDmaCntrlReg
  { x with p := p.outw 0 fifoResetReg, enabled := false }

def toUnsigned (dpnt : U16) : U16 := dpnt ^^^ 0x8000

section Interrupt

variable (cmd : Cmd)

/-- The loop over the points of a transfer, of which `n` are left, from point `i` on. -/
def writePoints : Nat → Nat → Acq → Acq
  | 0, _, x => x
  | n + 1, i, x =>
    let x := { x with sink := put x.sink (toUnsigned (x.dmaBuffer i)) }
    if counts cmd then
      let x := { x with p := { x.p with count := x.p.count - 1 } }
      if x.p.count = 0 then
        let x := a2150Cancel x
        { x with sink := raise x.sink comediCbEoa }
      else writePoints n (i + 1) x
    else writePoints n (i + 1) x

def maxPoints (p : Private) : U32 := p.dmaTransferSize / sampleSize

def numPoints (p : Private) (residue : U32) : U32 :=
  let n := maxPoints p - residue
  if p.count < n ∧ counts cmd then p.count else n

/-- How many points the next transfer has. -/
def leftover (p : Private) (residue : U32) : U32 :=
  let n :=
    if cmd.stopSrc = trigNone then maxPoints p
    else if maxPoints p < p.count then
      let n := p.count - maxPoints p
      if maxPoints p < n then maxPoints p else n
    else 0
  if residue ≠ 0 then 0 else n

def abort (x : Acq) : Acq :=
  let x := a2150Cancel x
  { x with sink := raise x.sink (comediCbError ||| comediCbEoa) }

/-- The interrupt at the end of a transfer. -/
def serveDma (x : Acq) (residueBytes : U32) : Acq :=
  let residue := residueBytes / sampleSize
  let n := numPoints cmd x.p residue
  let left := leftover cmd x.p residue
  let x := writePoints cmd n.toNat 0 { x with enabled := false }
  let x := if left ≠ 0 then { x with programmed := left * sampleSize, enabled := true } else x
  { x with p := x.p.outw 0 dmaTcClearReg, sink := raise x.sink comediCbBlock }

/-- `a2150_interrupt` of an attached device; `free` is the space that the buffer has then. -/
def a2150Interrupt (x : Acq) (status : U16) (residueBytes : U32) (free : Nat) : Acq :=
  let x := { x with sink := { x.sink with free := free, events := 0 } }
  if status &&& intrBit = 0 then x
  else
    let x := if status &&& ovflBit ≠ 0 then abort x else x
    if status &&& dmaTcBit = 0 then abort x
    else serveDma cmd x residueBytes

end Interrupt

end Comedi.A2150
