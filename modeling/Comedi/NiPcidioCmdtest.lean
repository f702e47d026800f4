import Comedi.ArgFixes
import Comedi.Pci230
import Comedi.Retests
import Comedi.SignedTimer

namespace Comedi.NiPcidioCmdtest

open ArgFixes Retests SignedTimer
open ConfigRetry (trigRoundNearest trigRoundDown trigRoundUp)
open I8253 (trigRoundMask)
open NiTimer (slack rounded)
open Pci230 (trigExt crEdge crInvert)
open RtTimer (trigNone trigNow trigTimer trigInt trigCount maskSrc cmdtestHelper)

/-- `TIMER_BASE`, the clock in nanoseconds. -/
def timerBase : U32 := 50

/-- What `ni_pcidio_ns_to_timer` returns, and the period that `*nanosec` becomes. -/
def niPcidioNsToTimer (nanosec roundMode : U32) : U32 × U32 :=
  (divider timerBase nanosec roundMode, roundNs timerBase nanosec roundMode)

def maskSources (cmd : Cmd) : Bool × Cmd :=
  cmdtestHelper cmd (trigNow ||| trigInt) (trigTimer ||| trigExt) trigNow trigCount
    (trigCount ||| trigNone)

/-- Step 2 of `ni_pcidio_cmdtest` finds an error. -/
def badSources (cmd : Cmd) : Prop :=
  (cmd.startSrc ≠ trigNow ∧ cmd.startSrc ≠ trigInt) ∨
    (cmd.scanBeginSrc ≠ trigTimer ∧ cmd.scanBeginSrc ≠ trigExt)

instance (cmd : Cmd) : Decidable (badSources cmd) := by unfold badSources; infer_instance

def scanBeginArg (src arg : U32) : Bool × U32 :=
  if src = trigTimer then put (arg < timerBase) timerBase arg
  else put (arg &&& ~~~(crEdge ||| crInvert) ≠ 0) (arg &&& (crEdge ||| crInvert)) arg

def stopArg (src arg : U32) : Bool × U32 :=
  if src = trigCount then (false, arg) else only 0 arg

/-- Step 3 of `ni_pcidio_cmdtest`. -/
def fixArgs (cmd : Cmd) : Bool × Cmd :=
  let start := only 0 cmd.startArg
  let scanBegin := scanBeginArg cmd.scanBeginSrc cmd.scanBeginArg
  let convert := only 0 cmd.convertArg
  let scanEnd := only cmd.chanlistLen cmd.scanEndArg
  let stop := stopArg cmd.stopSrc cmd.stopArg
  (start.1 || scanBegin.1 || convert.1 || scanEnd.1 || stop.1,
    { cmd with
      startArg := start.2
      scanBeginArg := scanBegin.2
      convertArg := convert.2
      scanEndArg := scanEnd.2
      stopArg := stop.2 })

def mode (cmd : Cmd) : U32 := cmd.flags &&& trigRoundMask

/-- Step 4 of `ni_pcidio_cmdtest`. -/
def roundArgs (cmd : Cmd) : Bool × Cmd :=
  if cmd.scanBeginSrc = trigTimer then
    let scanBegin := only (niPcidioNsToTimer cmd.scanBeginArg (mode cmd)).2 cmd.scanBeginArg
    (scanBegin.1, { cmd with scanBeginArg := scanBegin.2 })
  else (false, cmd)

def niPcidioCmdtest (cmd : Cmd) : Int × Cmd :=
  let masked := maskSources cmd
  if masked.1 then (1, masked.2)
  else if badSources masked.2 then (2, masked.2)
  else
    let args := fixArgs masked.2
    if args.1 then (3, args.2)
    else
      let rounded := roundArgs args.2
      (if rounded.1 then 4 else 0, rounded.2)

/-- What `ni_pcidio_cmd` writes to `StartDelay`. -/
def startDelay (cmd : Cmd) : U32 :=
  if cmd.scanBeginSrc = trigTimer then
    (niPcidioNsToTimer cmd.scanBeginArg trigRoundNearest).1
  else 1

end Comedi.NiPcidioCmdtest
