import Comedi.ArgFixes
import Comedi.FakeWaveform
import Comedi.I8253Pacing
import Comedi.Pci230

namespace Comedi.Pci9118Cmdtest

open ArgFixes ChanlistCheck
open FakeWaveform (entriesOf)
open I8253 (Timer cascadeNsToTimer2div trigRoundMask)
open Pci230 (trigExt crAref arefDiff)
open RtTimer (trigNone trigNow trigFollow trigTimer trigCount trigInt cmdtestHelper)

/-- The length of the channel list. -/
def pci9118Chanlen : U32 := 255

def pci9118BipolarRanges : U32 := 4

/-- The base of the oscillator, for 4 MHz. -/
def i8254OscBase : U32 := 250

/-- The members of the board and of the device that commands depend on. -/
structure Pci9118 where
  aiNsMin : U32
  nAichanlist : U32 := pci9118Chanlen
  nAichand : U32 := 8
  master : Bool
  usemux : Bool := false
  aiNsMin_pos : 0 < aiNsMin.toNat := by decide
  nAichanlist_pos : 0 < nAichanlist.toNat := by decide

section Cmdtest

variable (dev : Pci9118)

def maskSources (cmd : Cmd) : Bool × Cmd :=
  cmdtestHelper cmd (trigNow ||| trigExt ||| trigInt)
    (if dev.master then trigTimer ||| trigExt ||| trigFollow else trigFollow)
    (if dev.master then trigTimer ||| trigExt ||| trigNow else trigTimer ||| trigExt)
    trigCount (trigCount ||| trigNone ||| trigExt)

/-- Step 2 of `pci9118_ai_cmdtest`. -/
def mendSources (cmd : Cmd) : Bool × Cmd :=
  let start := put (cmd.startSrc ≠ trigNow ∧ cmd.startSrc ≠ trigInt ∧ cmd.startSrc ≠ trigExt)
    trigNow cmd.startSrc
  let scanBegin := put (cmd.scanBeginSrc ≠ trigTimer ∧ cmd.scanBeginSrc ≠ trigExt ∧
    cmd.scanBeginSrc ≠ trigInt ∧ cmd.scanBeginSrc ≠ trigFollow) trigFollow cmd.scanBeginSrc
  let convert := put (cmd.convertSrc ≠ trigTimer ∧ cmd.convertSrc ≠ trigExt ∧
    cmd.convertSrc ≠ trigNow) trigTimer cmd.convertSrc
  let scanEnd := only trigCount cmd.scanEndSrc
  let stop := put (cmd.stopSrc ≠ trigNone ∧ cmd.stopSrc ≠ trigCount ∧ cmd.stopSrc ≠ trigInt ∧
    cmd.stopSrc ≠ trigExt) trigCount cmd.stopSrc
  let startExt := put (start.2 = trigExt ∧ scanBegin.2 = trigExt) trigNow start.2
  let startInt := put (startExt.2 = trigInt ∧ scanBegin.2 = trigInt) trigNow startExt.2
  let convertScan := put (scanBegin.2 &&& (trigTimer ||| trigExt) ≠ 0 ∧
    convert.2 &&& (trigTimer ||| trigNow) = 0) trigTimer convert.2
  let convertFollow := put (scanBegin.2 = trigFollow ∧
    convertScan.2 &&& (trigTimer ||| trigExt) = 0) trigTimer convertScan.2
  let stopExt := put (stop.2 = trigExt ∧ scanBegin.2 = trigExt) trigCount stop.2
  (start.1 || scanBegin.1 || convert.1 || scanEnd.1 || stop.1 || startExt.1 || startInt.1 ||
      convertScan.1 || convertFollow.1 || stopExt.1,
    { cmd with
      startSrc := startInt.2
      scanBeginSrc := scanBegin.2
      convertSrc := convertFollow.2
      scanEndSrc := scanEnd.2
      stopSrc := stopExt.2 })

def startArg (src arg : U32) : Bool × U32 :=
  if src &&& (trigNow ||| trigExt) ≠ 0 then only 0 arg else (false, arg)

/-- The argument of a scan that is not timed. -/
def idleArg (src arg : U32) : Bool × U32 :=
  if src &&& (trigFollow ||| trigExt) ≠ 0 then only 0 arg else (false, arg)

/-- Timed scans of one timed conversion. -/
def rewritable (cmd : Cmd) : Prop :=
  cmd.scanBeginSrc = trigTimer ∧ cmd.convertSrc = trigTimer ∧ cmd.scanEndArg = 1

instance (cmd : Cmd) : Decidable (rewritable cmd) := by unfold rewritable; infer_instance

/-- Timed scans of one conversion become conversions that follow one another. This is not counted
as a change. -/
def rewrite (cmd : Cmd) : Cmd :=
  if rewritable cmd then
    { cmd with scanBeginSrc := trigFollow, convertArg := cmd.scanBeginArg, scanBeginArg := 0 }
  else cmd

def scanBeginArg (src arg : U32) : Bool × U32 :=
  if src = trigTimer then put (arg < dev.aiNsMin) dev.aiNsMin arg else (false, arg)

/-- Scans that begin with an external trigger must not have an argument. -/
def externalScan (cmd : Cmd) : Bool × Cmd :=
  if cmd.scanBeginSrc = trigExt ∧ cmd.scanBeginArg ≠ 0 then
    (true, { cmd with scanBeginArg := 0, scanEndArg := (put (65535 < cmd.scanEndArg) 65535
      cmd.scanEndArg).2 })
  else (false, cmd)

def convertArg (src arg : U32) : Bool × U32 :=
  if src &&& (trigTimer ||| trigNow) ≠ 0 then put (arg < dev.aiNsMin) dev.aiNsMin arg
  else if src = trigExt then only 0 arg
  else (false, arg)

def stopArg (src arg : U32) : Bool × U32 :=
  if src = trigCount then put (arg = 0) 1 arg else only 0 arg

def chanlistLen (len : U32) : Bool × U32 :=
  let some := put (len = 0) 1 len
  let most := put (dev.nAichanlist < some.2) dev.nAichanlist some.2
  (some.1 || most.1, most.2)

/-- Whole passes through the channel list. -/
def scanEndArg (len arg : U32) : Bool × U32 :=
  let pass := put (arg < len) len arg
  let whole := put (pass.2 % len ≠ 0) (len * (pass.2 / len)) pass.2
  (pass.1 || whole.1, whole.2)

/-- Step 3 of `pci9118_ai_cmdtest`, after the arguments of the start and of scans that are not
timed. -/
def fixPeriods (cmd : Cmd) : Bool × Cmd :=
  let scanBegin := scanBeginArg dev cmd.scanBeginSrc cmd.scanBeginArg
  let external := externalScan { cmd with scanBeginArg := scanBegin.2 }
  let convert := convertArg dev cmd.convertSrc cmd.convertArg
  let stop := stopArg cmd.stopSrc cmd.stopArg
  let len := chanlistLen dev cmd.chanlistLen
  let scanEnd := scanEndArg len.2 external.2.scanEndArg
  (scanBegin.1 || external.1 || convert.1 || stop.1 || len.1 || scanEnd.1,
    { external.2 with
      convertArg := convert.2
      stopArg := stop.2
      chanlistLen := len.2
      scanEndArg := scanEnd.2 })

/-- Step 3 of `pci9118_ai_cmdtest`. -/
def fixArgs (cmd : Cmd) : Bool × Cmd :=
  let start := startArg cmd.startSrc cmd.startArg
  let idle := idleArg cmd.scanBeginSrc cmd.scanBeginArg
  let periods := fixPeriods dev (rewrite { cmd with startArg := start.2, scanBeginArg := idle.2 })
  (start.1 || idle.1 || periods.1, periods.2)

def roundMode (cmd : Cmd) : U32 := cmd.flags &&& trigRoundMask

/-- A period is rounded, and raised to the least one again. -/
def pace (d1 d2 ns mode : U32) : U32 × Timer :=
  let t := cascadeNsToTimer2div i8254OscBase ⟨d1, d2, ns⟩ mode
  (raise dev.aiNsMin t.nanosec, t)

/-- The period of the scans, and the divisors that are left. -/
def roundScan (cmd : Cmd) : U32 × U32 × U32 :=
  if cmd.scanBeginSrc = trigTimer then
    let p := pace dev 0 0 cmd.scanBeginArg (roundMode cmd)
    (p.1, p.2.d1, p.2.d2)
  else (cmd.scanBeginArg, 0, 0)

/-- A burst must be over before the next scan. -/
def leastScan (cmd : Cmd) (convert : U32) : U32 :=
  if convert = 0 then dev.aiNsMin * (cmd.scanEndArg + 2) else convert * cmd.chanlistLen

/-- Step 4 of `pci9118_ai_cmdtest`. -/
def roundArgs (cmd : Cmd) : Bool × Cmd :=
  let scan := roundScan dev cmd
  if cmd.convertSrc &&& (trigTimer ||| trigNow) ≠ 0 then
    let convert := (pace dev scan.2.1 scan.2.2 cmd.convertArg (roundMode cmd)).1
    let burst :=
      if cmd.scanBeginSrc = trigTimer ∧ cmd.convertSrc = trigNow then
        put (scan.1 < leastScan dev cmd convert) (leastScan dev cmd convert) scan.1
      else (false, scan.1)
    (cmd.scanBeginArg ≠ scan.1 || cmd.convertArg ≠ convert || burst.1,
      { cmd with scanBeginArg := burst.2, convertArg := convert })
  else (cmd.scanBeginArg ≠ scan.1, { cmd with scanBeginArg := scan.1 })

/-- `check_channel_list`. -/
def checkChannelList (nChan : U32) (chanlist : List U32) (frontadd backadd : U32) : Bool :=
  let entries := chanlist.take nChan.toNat
  let differencial := crAref (entries.getD 0 0) = arefDiff
  let bipolar := crRange (entries.getD 0 0) < pci9118BipolarRanges
  0 < nChan ∧ frontadd + nChan + backadd ≤ dev.nAichanlist ∧ ∀ entry ∈ entries.tail,
    (crAref entry = arefDiff ↔ differencial) ∧
      (crRange entry < pci9118BipolarRanges ↔ bipolar) ∧
      ¬ (¬ dev.usemux ∧ differencial ∧ dev.nAichand ≤ crChan entry)

/-- Step 5 of `pci9118_ai_cmdtest` finds an error. -/
def badChanlist (cmd : Cmd) : Bool :=
  cmd.chanlist ≠ .null && !checkChannelList dev cmd.chanlistLen (entriesOf cmd.chanlist) 0 0

def pci9118AiCmdtest (cmd : Cmd) : Int × Cmd :=
  let masked := maskSources dev cmd
  if masked.1 then (1, masked.2)
  else
    let mended := mendSources masked.2
    if mended.1 then (2, mended.2)
    else
      let args := fixArgs dev mended.2
      if args.1 then (3, args.2)
      else
        let rounded := roundArgs dev args.2
        if rounded.1 then (4, rounded.2)
        else if badChanlist dev rounded.2 then (5, rounded.2)
        else (0, rounded.2)

end Cmdtest

end Comedi.Pci9118Cmdtest
