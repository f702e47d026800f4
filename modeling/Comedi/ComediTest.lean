import Comedi.Retests
import Comedi.RtTimer

namespace Comedi.ComediTest

open RtTimer Retests

def nanoPerMicro : U32 := 1000

/-- `nano_per_micro * ((tmp + (nano_per_micro / 2)) / nano_per_micro)`, where `tmp` is an `int`. -/
def nearestMicro (tmp : U32) : U32 :=
  nanoPerMicro * (tmp + nanoPerMicro.sdiv 2).sdiv nanoPerMicro

/-- The command after one `if` of the driver, and whether that counted an error. -/
def fix (bad : Prop) [Decidable bad] (fixed cmd : Cmd) : Bool × Cmd :=
  if bad then (true, fixed) else (false, cmd)

def badSources (cmd : Cmd) : Prop :=
  (cmd.convertSrc ≠ trigNow ∧ cmd.convertSrc ≠ trigTimer) ∨
    (cmd.stopSrc ≠ trigCount ∧ cmd.stopSrc ≠ trigNone)

instance (cmd : Cmd) : Decidable (badSources cmd) := by unfold badSources; infer_instance

def fixStart (cmd : Cmd) : Bool × Cmd := fix (cmd.startArg ≠ 0) { cmd with startArg := 0 } cmd

def fixConvert (cmd : Cmd) : Bool × Cmd :=
  fix (cmd.convertSrc = trigNow ∧ cmd.convertArg ≠ 0) { cmd with convertArg := 0 } cmd

def slowScanBegin (cmd : Cmd) : Bool × Cmd :=
  fix (cmd.scanBeginSrc = trigTimer ∧ cmd.scanBeginArg < nanoPerMicro)
    { cmd with scanBeginArg := nanoPerMicro } cmd

def fitScan (cmd : Cmd) : Bool × Cmd :=
  fix (cmd.scanBeginSrc = trigTimer ∧ cmd.convertSrc = trigTimer ∧
      cmd.scanBeginArg < cmd.convertArg * cmd.chanlistLen)
    { cmd with scanBeginArg := cmd.convertArg * cmd.chanlistLen } cmd

def fixChanlistLen (cmd : Cmd) : Bool × Cmd :=
  fix (cmd.chanlistLen = 0) { cmd with chanlistLen := 1 } cmd

def fixScanEnd (cmd : Cmd) : Bool × Cmd :=
  fix (cmd.scanEndArg ≠ cmd.chanlistLen) { cmd with scanEndArg := cmd.chanlistLen } cmd

def fixStop (cmd : Cmd) : Bool × Cmd :=
  if cmd.stopSrc = trigCount then fix (cmd.stopArg = 0) { cmd with stopArg := 1 } cmd
  else fix (cmd.stopArg ≠ 0) { cmd with stopArg := 0 } cmd

/-- Step 3 of `waveform_ai_cmdtest`. -/
def fixArgs (cmd : Cmd) : Bool × Cmd :=
  let start := fixStart cmd
  let convert := fixConvert start.2
  let scanBegin := slowScanBegin convert.2
  let scan := fitScan scanBegin.2
  let chanlistLen := fixChanlistLen scan.2
  let scanEnd := fixScanEnd chanlistLen.2
  let stop := fixStop scanEnd.2
  (start.1 || convert.1 || scanBegin.1 || scan.1 || chanlistLen.1 || scanEnd.1 || stop.1, stop.2)

def roundScanBegin (cmd : Cmd) : Bool × Cmd :=
  if cmd.scanBeginSrc = trigTimer then
    (cmd.scanBeginArg ≠ nearestMicro cmd.scanBeginArg,
      { cmd with scanBeginArg := nearestMicro cmd.scanBeginArg })
  else (false, cmd)

def roundConvert (cmd : Cmd) : Bool × Cmd :=
  if cmd.convertSrc = trigTimer then
    (cmd.convertArg ≠ nearestMicro cmd.convertArg,
      { cmd with convertArg := nearestMicro cmd.convertArg })
  else (false, cmd)

/-- Step 4 of `waveform_ai_cmdtest`. -/
def roundArgs (cmd : Cmd) : Bool × Cmd :=
  let scanBegin := roundScanBegin cmd
  let convert := roundConvert scanBegin.2
  (scanBegin.1 || convert.1, convert.2)

def waveformAiCmdtest (cmd : Cmd) : Int × Cmd :=
  let masked := cmdtestHelper cmd trigNow trigTimer (trigNow ||| trigTimer) trigCount
    (trigCount ||| trigNone)
  if masked.1 then (1, masked.2)
  else if badSources masked.2 then (2, masked.2)
  else
    let args := fixArgs masked.2
    if args.1 then (3, args.2)
    else
      let rounded := roundArgs args.2
      (if rounded.1 then 4 else 0, rounded.2)

/-- Each of the five sources is a single one that the driver supports. -/
structure Supported (cmd : Cmd) : Prop where
  start : cmd.startSrc = trigNow
  scanBegin : cmd.scanBeginSrc = trigTimer
  convert : cmd.convertSrc = trigNow ∨ cmd.convertSrc = trigTimer
  scanEnd : cmd.scanEndSrc = trigCount
  stop : cmd.stopSrc = trigCount ∨ cmd.stopSrc = trigNone

end Comedi.ComediTest
