import Comedi.NiChanGain
import Comedi.NiTimer
import Comedi.NiTioCmd

namespace Comedi.NiAiCmdtest

open ArgFixes ChanlistCheck NiTimer
open ConfigRetry (trigRoundNearest)
open I8253 (trigRoundMask)
open NiChanGain (crAltFilter)
open NiTioCmd (cmdfWrite trigOther)
open Pci230 (trigExt crEdge crInvert)
open RtTimer (trigNone trigNow trigTimer trigCount trigInt cmdtestHelper)

def niReg611x : U32 := 0x1
def niReg6143 : U32 := 0x20
def numAdcStages611x : U32 := 3

/-- The members of `ni_board` that the analog input commands depend on. -/
structure NiBoard where
  regType : U32 := 0
  aiSpeed : U32

/-- The channel of an external trigger, no higher than the last one, and its flags. -/
def external (last flags arg : U32) : U32 :=
  (if last < crChan arg then last else crChan arg) ||| (arg &&& flags)

section Cmdtest

variable (board : NiBoard) (clockNs : U32)

def simultaneous : Prop := board.regType = niReg611x ∨ board.regType = niReg6143

instance : Decidable (simultaneous board) := inferInstanceAs (Decidable (_ ∨ _))

def niMinAiScanPeriodNs (numChannels : U32) : U32 :=
  if simultaneous board then board.aiSpeed else board.aiSpeed * numChannels

def maskSources (cmd : Cmd) : Bool × Cmd :=
  cmdtestHelper cmd (trigNow ||| trigInt ||| trigExt) (trigTimer ||| trigExt)
    (if simultaneous board then trigTimer ||| trigExt ||| trigNow else trigTimer ||| trigExt)
    trigCount (trigCount ||| trigNone)

/-- Step 2 of `ni_ai_cmdtest` finds an error. -/
def badSources (cmd : Cmd) : Prop :=
  (cmd.startSrc ≠ trigNow ∧ cmd.startSrc ≠ trigInt ∧ cmd.startSrc ≠ trigExt) ∨
    (cmd.scanBeginSrc ≠ trigTimer ∧ cmd.scanBeginSrc ≠ trigExt ∧
      cmd.scanBeginSrc ≠ trigOther) ∨
    (cmd.convertSrc ≠ trigTimer ∧ cmd.convertSrc ≠ trigExt ∧ cmd.convertSrc ≠ trigNow) ∨
    (cmd.stopSrc ≠ trigCount ∧ cmd.stopSrc ≠ trigNone)

instance (cmd : Cmd) : Decidable (badSources cmd) := by unfold badSources; infer_instance

def startArg (src arg : U32) : Bool × U32 :=
  if src = trigExt then only (external 16 (crInvert ||| crEdge) arg) arg else only 0 arg

def scanBeginArg (src chanlistLen arg : U32) : Bool × U32 :=
  if src = trigTimer then
    within (niMinAiScanPeriodNs board chanlistLen) (clockNs * 0xffffff) arg
  else if src = trigExt then only (external 16 (crInvert ||| crEdge) arg) arg
  else only 0 arg

def convertArg (src arg : U32) : Bool × U32 :=
  if src = trigTimer then
    if simultaneous board then only 0 arg else within board.aiSpeed (clockNs * 0xffff) arg
  else if src = trigExt then only (external 16 (crAltFilter ||| crInvert) arg) arg
  else if src = trigNow then only 0 arg
  else (false, arg)

def maxCount : U32 :=
  if board.regType = niReg611x then 0x1000000 - numAdcStages611x else 0x1000000

def stopArg (src arg : U32) : Bool × U32 :=
  if src = trigCount then
    let most := put (maxCount board < arg) (maxCount board) arg
    let least := put (most.2 < 1) 1 most.2
    (most.1 || least.1, least.2)
  else only 0 arg

/-- Step 3 of `ni_ai_cmdtest`. -/
def fixArgs (cmd : Cmd) : Bool × Cmd :=
  let start := startArg cmd.startSrc cmd.startArg
  let scanBegin := scanBeginArg board clockNs cmd.scanBeginSrc cmd.chanlistLen cmd.scanBeginArg
  let convert := convertArg board clockNs cmd.convertSrc cmd.convertArg
  let scanEnd := only cmd.chanlistLen cmd.scanEndArg
  let stop := stopArg board cmd.stopSrc cmd.stopArg
  (start.1 || scanBegin.1 || convert.1 || scanEnd.1 || stop.1,
    { cmd with
      startArg := start.2
      scanBeginArg := scanBegin.2
      convertArg := convert.2
      scanEndArg := scanEnd.2
      stopArg := stop.2 })

/-- The board times the conversions within a scan. -/
def paced (cmd : Cmd) : Prop := cmd.convertSrc = trigTimer ∧ ¬ simultaneous board

instance (cmd : Cmd) : Decidable (paced board cmd) := inferInstanceAs (Decidable (_ ∧ _))

def roundScanBegin (cmd : Cmd) : U32 :=
  if cmd.scanBeginSrc = trigTimer then
    roundNs clockNs cmd.scanBeginArg (cmd.flags &&& trigRoundMask)
  else cmd.scanBeginArg

def roundConvert (cmd : Cmd) : U32 :=
  if paced board cmd then roundNs clockNs cmd.convertArg (cmd.flags &&& trigRoundMask)
  else cmd.convertArg

/-- The scan has to be made longer for the conversions. -/
def short (cmd : Cmd) (scanBegin convert : U32) : Prop :=
  paced board cmd ∧ cmd.scanBeginSrc = trigTimer ∧ scanBegin < convert * cmd.scanEndArg

instance (cmd : Cmd) (scanBegin convert : U32) : Decidable (short board cmd scanBegin convert) :=
  inferInstanceAs (Decidable (_ ∧ _ ∧ _))

/-- Step 4 of `ni_ai_cmdtest`. -/
def roundArgs (cmd : Cmd) : Bool × Cmd :=
  let scanBegin := roundScanBegin clockNs cmd
  let convert := roundConvert board clockNs cmd
  let fitted := put (short board cmd scanBegin convert) (convert * cmd.scanEndArg) scanBegin
  (cmd.scanBeginArg ≠ scanBegin || cmd.convertArg ≠ convert || fitted.1,
    { cmd with scanBeginArg := fitted.2, convertArg := convert })

def clearWrite (cmd : Cmd) : Cmd :=
  if cmd.flags &&& cmdfWrite ≠ 0 then { cmd with flags := cmd.flags &&& ~~~cmdfWrite } else cmd

def niAiCmdtest (cmd : Cmd) : Int × Cmd :=
  let masked := maskSources board (clearWrite cmd)
  if masked.1 then (1, masked.2)
  else if badSources masked.2 then (2, masked.2)
  else
    let args := fixArgs board clockNs masked.2
    if args.1 then (3, args.2)
    else
      let rounded := roundArgs board clockNs args.2
      (if rounded.1 then 4 else 0, rounded.2)

/-- A value that `ni_ai_cmd` loads into one of the counters of the STC. -/
inductive Load
  | sc (count : U32)
  | si (timer : U32)
  | si2A (timer : U32)
  | si2B (timer : U32)

/-- The counter has 24 or 16 bits. -/
def Load.fits : Load → Prop
  | .sc value | .si value => value.toNat < 2 ^ 24
  | .si2A value | .si2B value => value.toNat < 2 ^ 16

def scanCount (cmd : Cmd) : U32 :=
  if cmd.stopSrc = trigCount then
    if board.regType = niReg611x then cmd.stopArg - 1 + numAdcStages611x else cmd.stopArg - 1
  else 0

def convertTimer (cmd : Cmd) : U32 :=
  if cmd.convertArg = 0 ∨ cmd.convertSrc = trigNow then 1
  else niNsToTimer clockNs cmd.convertArg trigRoundNearest

/-- What `ni_ai_cmd` loads into the counters. -/
def niAiCmd (cmd : Cmd) : List Load :=
  .sc (scanCount board cmd) ::
    ((if cmd.scanBeginSrc = trigTimer then
        [.si (niNsToTimer clockNs cmd.scanBeginArg trigRoundNearest)] else []) ++
      (if cmd.convertSrc = trigTimer ∨ cmd.convertSrc = trigNow then
        [.si2A 1, .si2B (convertTimer clockNs cmd)] else []))

end Cmdtest

end Comedi.NiAiCmdtest
