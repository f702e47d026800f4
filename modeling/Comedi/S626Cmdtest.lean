import Comedi.ArgFixes
import Comedi.Pci230
import Comedi.Retests
import Comedi.SignedTimer

namespace Comedi.S626Cmdtest

open ArgFixes Retests SignedTimer
open I8253 (trigRoundMask)
open NiTimer (slack rounded)
open Pci230 (trigExt)
open RtTimer (trigNone trigNow trigFollow trigTimer trigInt trigCount maskSrc cmdtestHelper)

def maxSpeed : U32 := 200000
def minSpeed : U32 := 2000000000

/-- The clock in nanoseconds. -/
def base : U32 := 500

/-- What `s626_ns_to_timer` returns, and the period that `*nanosec` becomes. -/
def s626NsToTimer (nanosec roundMode : U32) : U32 × U32 :=
  (divider base nanosec roundMode - 1, roundNs base nanosec roundMode)

def maskSources (cmd : Cmd) : Bool × Cmd :=
  cmdtestHelper cmd (trigNow ||| trigInt ||| trigExt) (trigTimer ||| trigExt ||| trigFollow)
    (trigTimer ||| trigExt ||| trigNow) trigCount (trigCount ||| trigNone)

/-- Step 2 of `s626_ai_cmdtest` finds an error. -/
def badSources (cmd : Cmd) : Prop :=
  (cmd.scanBeginSrc ≠ trigTimer ∧ cmd.scanBeginSrc ≠ trigExt ∧ cmd.scanBeginSrc ≠ trigFollow) ∨
    (cmd.convertSrc ≠ trigTimer ∧ cmd.convertSrc ≠ trigExt ∧ cmd.convertSrc ≠ trigNow) ∨
    (cmd.stopSrc ≠ trigCount ∧ cmd.stopSrc ≠ trigNone)

instance (cmd : Cmd) : Decidable (badSources cmd) := by unfold badSources; infer_instance

def startArg (src arg : U32) : Bool × U32 :=
  if src = trigExt then put (39 < arg) 39 arg else only 0 arg

/-- The argument of a scan or a conversion. -/
def triggerArg (src arg : U32) : Bool × U32 :=
  if src = trigExt then put (39 < arg) 39 arg
  else if src = trigTimer then within maxSpeed minSpeed arg
  else (false, arg)

def stopArg (src arg : U32) : Bool × U32 :=
  if src = trigCount then put (0x00ffffff < arg) 0x00ffffff arg else only 0 arg

/-- Step 3 of `s626_ai_cmdtest`. -/
def fixArgs (cmd : Cmd) : Bool × Cmd :=
  let start := startArg cmd.startSrc cmd.startArg
  let scanBegin := triggerArg cmd.scanBeginSrc cmd.scanBeginArg
  let convert := triggerArg cmd.convertSrc cmd.convertArg
  let scanEnd := only cmd.chanlistLen cmd.scanEndArg
  let stop := stopArg cmd.stopSrc cmd.stopArg
  (start.1 || scanBegin.1 || convert.1 || scanEnd.1 || stop.1,
    { cmd with
      startArg := start.2
      scanBeginArg := scanBegin.2
      convertArg := convert.2
      scanEndArg := scanEnd.2
      stopArg := stop.2 })

def mode (cmd : Cmd) : U32 := cmd.flags &&& trigRoundMask

def roundTimed (src arg roundMode : U32) : Bool × U32 :=
  if src = trigTimer then only (s626NsToTimer arg roundMode).2 arg else (false, arg)

/-- A scan that is timed faster than the conversions allow is made longer. -/
def lengthen (cmd : Cmd) : Bool × U32 :=
  put (cmd.convertSrc = trigTimer ∧ cmd.scanBeginSrc = trigTimer ∧
    cmd.scanBeginArg < cmd.convertArg * cmd.scanEndArg) (cmd.convertArg * cmd.scanEndArg)
    cmd.scanBeginArg

/-- Step 4 of `s626_ai_cmdtest`. -/
def roundArgs (cmd : Cmd) : Bool × Cmd :=
  let scanBegin := roundTimed cmd.scanBeginSrc cmd.scanBeginArg (mode cmd)
  let convert := roundTimed cmd.convertSrc cmd.convertArg (mode cmd)
  let cmd := { cmd with scanBeginArg := scanBegin.2, convertArg := convert.2 }
  let long := lengthen cmd
  (scanBegin.1 || convert.1 || long.1, { cmd with scanBeginArg := long.2 })

def s626AiCmdtest (cmd : Cmd) : Int × Cmd :=
  let masked := maskSources cmd
  if masked.1 then (1, masked.2)
  else if badSources masked.2 then (2, masked.2)
  else
    let args := fixArgs masked.2
    if args.1 then (3, args.2)
    else
      let rounded := roundArgs args.2
      (if rounded.1 then 4 else 0, rounded.2)

/-- The ticks that `s626_ai_cmd` loads into the counters for the scans and the conversions. -/
structure AiTicks where
  scanBegin : Option U32
  convert : Option U32

def timerTicks (src arg roundMode : U32) : Option U32 :=
  if src = trigTimer then some (s626NsToTimer arg roundMode).1 else none

def s626AiCmd (cmd : Cmd) : AiTicks :=
  ⟨timerTicks cmd.scanBeginSrc cmd.scanBeginArg (mode cmd),
    timerTicks cmd.convertSrc cmd.convertArg (mode cmd)⟩

end Comedi.S626Cmdtest
