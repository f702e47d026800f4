import Comedi.FakeWaveform
import Comedi.NiAiAmends

namespace Comedi.NiOutputCmds

open ArgFixes NiTimer
open ConfigRetry (trigRoundNearest)
open FakeWaveform (chanspec)
open I8253 (trigRoundMask)
open NiAiCmdtest (external)
open NiTioCmd (cmdfWrite)
open Pci230 (trigExt crEdge crInvert)
open RtTimer (trigNone trigNow trigTimer trigCount trigInt cmdtestHelper)

def niRegMSeriesMask : U32 := 0x18
def cdoSampleSourceSelectMask : U32 := 0x3f

/-- The members of `ni_board` that the output commands depend on. -/
structure NiBoard where
  regType : U32 := 0
  aoSpeed : U32

section AnalogOutput

variable (board : NiBoard) (clockNs : U32)

def setWrite (cmd : Cmd) : Cmd :=
  if cmd.flags &&& cmdfWrite = 0 then { cmd with flags := cmd.flags ||| cmdfWrite } else cmd

def aoMaskSources (cmd : Cmd) : Bool × Cmd :=
  cmdtestHelper cmd (trigInt ||| trigExt) (trigTimer ||| trigExt) trigNow trigCount
    (trigCount ||| trigNone)

def aoStartArg (src arg : U32) : Bool × U32 :=
  if src = trigExt then only (external 18 (crInvert ||| crEdge) arg) arg else only 0 arg

def aoScanBeginArg (src arg : U32) : Bool × U32 :=
  if src = trigTimer then within board.aoSpeed (clockNs * 0xffffff) arg else (false, arg)

def aoStopArg (src arg : U32) : Bool × U32 :=
  if src = trigCount then put (0xffffff < arg) 0xffffff arg else only 0 arg

/-- Step 3 of `ni_ao_cmdtest`. -/
def aoFixArgs (cmd : Cmd) : Bool × Cmd :=
  let start := aoStartArg cmd.startSrc cmd.startArg
  let scanBegin := aoScanBeginArg board clockNs cmd.scanBeginSrc cmd.scanBeginArg
  let convert := only 0 cmd.convertArg
  let scanEnd := only cmd.chanlistLen cmd.scanEndArg
  let stop := aoStopArg cmd.stopSrc cmd.stopArg
  (start.1 || scanBegin.1 || convert.1 || scanEnd.1 || stop.1,
    { cmd with
      startArg := start.2
      scanBeginArg := scanBegin.2
      convertArg := convert.2
      scanEndArg := scanEnd.2
      stopArg := stop.2 })

/-- Step 4 of `ni_ao_cmdtest`. -/
def aoRoundArgs (cmd : Cmd) : Bool × Cmd :=
  let ns :=
    if cmd.scanBeginSrc = trigTimer then
      roundNs clockNs cmd.scanBeginArg (cmd.flags &&& trigRoundMask)
    else cmd.scanBeginArg
  (cmd.scanBeginArg ≠ ns, { cmd with scanBeginArg := ns })

def niAoCmdtest (cmd : Cmd) : Int × Cmd :=
  let masked := aoMaskSources (setWrite cmd)
  if masked.1 then (1, masked.2)
  else if masked.2.stopSrc ≠ trigCount ∧ masked.2.stopSrc ≠ trigNone then (2, masked.2)
  else
    let args := aoFixArgs board clockNs masked.2
    if args.1 then (3, args.2)
    else
      let rounded := aoRoundArgs clockNs args.2
      (if rounded.1 then 4 else 0, rounded.2)

/-- What `ni_ao_cmd` loads into the UC counter, the last value for its reloads. -/
def ucLoads (cmd : Cmd) : List U32 :=
  if cmd.stopSrc = trigCount then
    if board.regType &&& niRegMSeriesMask ≠ 0 then [cmd.stopArg - 1]
    else [cmd.stopArg, cmd.stopArg - 1]
  else if cmd.stopSrc = trigNone then [0xffffff, 0xffffff]
  else [0, cmd.stopArg]

/-- What `ni_ao_cmd` does: it refuses, it comes upon a `BUG()`, or it loads the counters. -/
inductive Outcome
  | refused (ret : Int)
  | bug
  | loaded (uc ui : List U32)

def niAoCmd (irq : U32) (cmd : Cmd) : Outcome :=
  if irq = 0 then .refused (-eio)
  else if cmd.startSrc ≠ trigInt ∧ cmd.startSrc ≠ trigNow ∧ cmd.startSrc ≠ trigExt then .bug
  else if cmd.scanBeginSrc = trigTimer then
    .loaded (ucLoads board cmd) [1, niNsToTimer clockNs cmd.scanBeginArg trigRoundNearest]
  else if cmd.scanBeginSrc = trigExt then .loaded (ucLoads board cmd) []
  else .bug

end AnalogOutput

section DigitalOutput

def cdioMaskSources (cmd : Cmd) : Bool × Cmd :=
  cmdtestHelper cmd trigInt trigExt trigNow trigCount trigNone

/-- Step 2 of `ni_cdio_cmdtest` finds an error. -/
def cdioBadSources (cmd : Cmd) : Prop :=
  cmd.startSrc ≠ trigInt ∨ cmd.scanBeginSrc ≠ trigExt ∨ cmd.convertSrc ≠ trigNow ∨
    cmd.stopSrc ≠ trigNone

instance (cmd : Cmd) : Decidable (cdioBadSources cmd) := by unfold cdioBadSources; infer_instance

/-- The bits of an external source that the digital output has. -/
def cdioSourceMask : U32 := cdoSampleSourceSelectMask ||| crInvert

/-- Step 3 of `ni_cdio_cmdtest`, where `scan_begin_arg` is found wrong and left. -/
def cdioFixArgs (cmd : Cmd) : Bool × Cmd :=
  let start := only 0 cmd.startArg
  let convert := only 0 cmd.convertArg
  let scanEnd := only cmd.chanlistLen cmd.scanEndArg
  let stop := only 0 cmd.stopArg
  (start.1 || cmd.scanBeginArg &&& cdioSourceMask ≠ cmd.scanBeginArg || convert.1 || scanEnd.1 ||
      stop.1,
    { cmd with
      startArg := start.2
      convertArg := convert.2
      scanEndArg := scanEnd.2
      stopArg := stop.2 })

/-- Step 5 of `ni_cdio_cmdtest` finds an error. -/
def cdioBadChanlist (cmd : Cmd) : Prop :=
  ∃ i < cmd.chanlistLen.toNat, chanspec cmd i ≠ BitVec.ofNat 32 i

instance (cmd : Cmd) : Decidable (cdioBadChanlist cmd) :=
  inferInstanceAs (Decidable (∃ i < _, _))

def niCdioCmdtest (cmd : Cmd) : Int × Cmd :=
  let masked := cdioMaskSources cmd
  if masked.1 then (1, masked.2)
  else if cdioBadSources masked.2 then (2, masked.2)
  else
    let args := cdioFixArgs masked.2
    if args.1 then (3, args.2)
    else (if cdioBadChanlist args.2 then 5 else 0, args.2)

end DigitalOutput

end Comedi.NiOutputCmds
