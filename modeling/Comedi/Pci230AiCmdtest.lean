import Comedi.ArgFixes
import Comedi.FakeWaveform
import Comedi.Pci230Chanlist
import Comedi.Pci230Timer
import Comedi.Pcidas

namespace Comedi.Pci230AiCmdtest

open ArgFixes ChanlistCheck Pci230 Pci230Chanlist Pci230Timer
open ConfigRetry (trigRoundUp)
open FakeWaveform (entriesOf)
open I8253 (trigRoundMask)
open Pcidas (crFlagsMask)
open RtTimer (trigNone trigNow trigFollow trigTimer trigCount trigInt cmdtestHelper)

def maxSpeedAiSe : U32 := 3200
def maxSpeedAiDiff : U32 := 8000
def maxSpeedAiPlus : U32 := 4000

/-- The number of entries of the channel list that the subdevice allows. -/
def lenChanlist : U32 := 256

/-- The members of `pci230_board` that the analog input commands depend on. -/
structure Pci230Board where
  haveDio : Bool
  minHwver : U16 := 0
  aiChans : U32 := 16

def pci230 : Pci230Board where
  haveDio := true

def combine (old new mask : U32) : U32 := (old &&& ~~~mask) ||| (new &&& mask)

/-- The least scan period, in 32 bits, and whether it was found to overflow. -/
def minScanPeriod (chanlistLen convertArg : U32) : Bool × U32 :=
  let len := if chanlistLen = 0 then 1 else chanlistLen
  put (len * convertArg < len ∨ len * convertArg < convertArg) 0xffffffff (len * convertArg)

/-- Whether the scan period is not accepted, and what it is made. -/
def pci230AiCheckScanPeriod (chanlistLen convertArg scanBeginArg : U32) : Bool × U32 :=
  let least := minScanPeriod chanlistLen convertArg
  let longer := put (scanBeginArg < least.2) least.2 scanBeginArg
  (least.1 || longer.1, longer.2)

section Cmdtest

variable (board : Pci230Board) (hwver : U16)

def maskSources (cmd : Cmd) : Bool × Cmd :=
  cmdtestHelper cmd (trigNow ||| trigInt)
    (if board.haveDio ∨ 0 < board.minHwver then trigFollow ||| trigTimer ||| trigInt ||| trigExt
      else trigFollow ||| trigTimer ||| trigInt)
    (trigTimer ||| trigInt ||| trigExt) trigCount (trigCount ||| trigNone)

/-- Step 2 of `pci230_ai_cmdtest` finds an error. -/
def badSources (cmd : Cmd) : Prop :=
  cmd.startSrc &&& (cmd.startSrc - 1) ≠ 0 ∨ cmd.scanBeginSrc &&& (cmd.scanBeginSrc - 1) ≠ 0 ∨
    cmd.convertSrc &&& (cmd.convertSrc - 1) ≠ 0 ∨ cmd.scanEndSrc &&& (cmd.scanEndSrc - 1) ≠ 0 ∨
    cmd.stopSrc &&& (cmd.stopSrc - 1) ≠ 0 ∨
    (cmd.scanBeginSrc ≠ trigFollow ∧ cmd.convertSrc ≠ trigTimer)

instance (cmd : Cmd) : Decidable (badSources cmd) := by unfold badSources; infer_instance

/-- The reference of the first channel is looked at if there is a channel list. -/
def maxSpeedAi (chanlist : Chanlist) (chanlistLen : U32) : U32 :=
  if hwver = 0 then
    if chanlist ≠ .null ∧ 0 < chanlistLen then
      if crAref ((entriesOf chanlist).getD 0 0) = arefDiff then maxSpeedAiDiff else maxSpeedAiSe
    else maxSpeedAiSe
  else maxSpeedAiPlus

/-- An external trigger for the conversions. The flags that are not allowed are taken out of
`start_arg`, as the driver does. -/
def externalArg (startArg arg : U32) : Bool × U32 :=
  if arg &&& crFlagsMask ≠ 0 then
    let number := put (arg &&& ~~~crFlagsMask ≠ 0) (combine arg 0 (~~~crFlagsMask)) arg
    let edge := put (number.2 &&& (crFlagsMask &&& ~~~crInvert) ≠ crEdge)
      (combine startArg crEdge (crFlagsMask &&& ~~~crInvert)) number.2
    (number.1 || edge.1, edge.2)
  else put (1 < arg) 1 arg

def convertArg (speed src startArg arg : U32) : Bool × U32 :=
  if src = trigTimer then within speed 0xffffffff arg
  else if src = trigExt then externalArg startArg arg
  else only 0 arg

def externalScan (arg : U32) : Bool × U32 :=
  let number := put (arg &&& ~~~crFlagsMask ≠ 0) (combine arg 0 (~~~crFlagsMask)) arg
  let flags := put (number.2 &&& crFlagsMask &&& ~~~crEdge ≠ 0)
    (combine number.2 0 (crFlagsMask &&& ~~~crEdge)) number.2
  (number.1 || flags.1, flags.2)

def scanBeginArg (src chanlistLen convertArg arg : U32) : Bool × U32 :=
  if src = trigExt then externalScan arg
  else if src = trigTimer then pci230AiCheckScanPeriod chanlistLen convertArg arg
  else only 0 arg

def stopArg (src arg : U32) : Bool × U32 := if src = trigNone then only 0 arg else (false, arg)

/-- Step 3 of `pci230_ai_cmdtest`. -/
def fixArgs (cmd : Cmd) : Bool × Cmd :=
  let start := only 0 cmd.startArg
  let convert := convertArg (maxSpeedAi hwver cmd.chanlist cmd.chanlistLen) cmd.convertSrc start.2
    cmd.convertArg
  let scanEnd := only cmd.chanlistLen cmd.scanEndArg
  let stop := stopArg cmd.stopSrc cmd.stopArg
  let scanBegin := scanBeginArg cmd.scanBeginSrc cmd.chanlistLen convert.2 cmd.scanBeginArg
  (start.1 || convert.1 || scanEnd.1 || stop.1 || scanBegin.1,
    { cmd with
      startArg := start.2
      convertArg := convert.2
      scanEndArg := scanEnd.2
      stopArg := stop.2
      scanBeginArg := scanBegin.2 })

def roundConvert (cmd : Cmd) : U32 :=
  if cmd.convertSrc = trigTimer then
    pci230NsToSingleTimer cmd.convertArg (cmd.flags &&& trigRoundMask)
  else cmd.convertArg

/-- A scan period that is too short once it is rounded is rounded up. -/
def roundScan (chanlistLen convertArg arg roundMode : U32) : U32 :=
  let checked :=
    pci230AiCheckScanPeriod chanlistLen convertArg (pci230NsToSingleTimer arg roundMode)
  if checked.1 then
    (pci230AiCheckScanPeriod chanlistLen convertArg
      (pci230NsToSingleTimer checked.2 trigRoundUp)).2
  else checked.2

def roundScanBegin (cmd : Cmd) (convertArg : U32) : U32 :=
  if cmd.scanBeginSrc = trigTimer then
    roundScan cmd.chanlistLen convertArg cmd.scanBeginArg (cmd.flags &&& trigRoundMask)
  else cmd.scanBeginArg

/-- Step 4 of `pci230_ai_cmdtest`. -/
def roundArgs (cmd : Cmd) : Bool × Cmd :=
  let convert := roundConvert cmd
  let scanBegin := roundScanBegin cmd convert
  (cmd.convertArg ≠ convert || cmd.scanBeginArg ≠ scanBegin,
    { cmd with convertArg := convert, scanBeginArg := scanBegin })

/-- Step 5 of `pci230_ai_cmdtest`. -/
def checkList (cmd : Cmd) : Int :=
  if cmd.chanlist ≠ .null ∧ 0 < cmd.chanlistLen then
    checkChanlist board.aiChans ((entriesOf cmd.chanlist).take cmd.chanlistLen.toNat) hwver
  else 0

def pci230AiCmdtest (cmd : Cmd) : Int × Cmd :=
  let masked := maskSources board cmd
  if masked.1 then (1, masked.2)
  else if badSources masked.2 then (2, masked.2)
  else
    let args := fixArgs hwver masked.2
    if args.1 then (3, args.2)
    else
      let rounded := roundArgs args.2
      if rounded.1 then (4, rounded.2) else (checkList board hwver rounded.2, rounded.2)

end Cmdtest

section Command

/-- The monostable that gates the conversions of a scan. -/
def monostable (cmd : Cmd) : ClkSrc × Nat :=
  pci230CtSetupNsMode (cmd.convertArg.toNat * cmd.scanEndArg.toNat) trigRoundUp

/-- What `pci230_ai_cmd` programs in the counters, in its order. -/
def aiTimers (cmd : Cmd) : List (Res × ClkSrc × Nat) :=
  if cmd.convertSrc = trigTimer then
    (2, pci230CtSetupNsMode cmd.convertArg.toNat (cmd.flags &&& trigRoundMask)) ::
      (if cmd.scanBeginSrc ≠ trigFollow then
        (0, monostable cmd) ::
          (if cmd.scanBeginSrc = trigTimer then
            [(1, pci230CtSetupNsMode cmd.scanBeginArg.toNat (cmd.flags &&& trigRoundMask))]
          else [])
      else [])
  else []

end Command

section Accepted

variable {board : Pci230Board} {hwver : U16} {cmd : Cmd}

theorem externalArg_kept {startArg arg : U32} (h : (externalArg startArg arg).1 = false) :
    (externalArg startArg arg).2 = arg := by
  unfold externalArg at h ⊢
  split at h
  next hflags =>
    obtain ⟨hnumber, hedge⟩ := Bool.or_eq_false_iff.mp h
    rw [if_pos hflags]
    exact (put_kept hedge).trans (put_kept hnumber)
  next hnone =>
    rw [if_neg hnone]
    exact put_kept h

theorem convertArg_kept {speed src startArg arg : U32}
    (h : (convertArg speed src startArg arg).1 = false) :
    (convertArg speed src startArg arg).2 = arg := by
  unfold convertArg at h ⊢
  split at h
  next htimer =>
    rw [if_pos htimer]
    exact within_kept h
  next htimer =>
    rw [if_neg htimer]
    split at h
    next hext =>
      rw [if_pos hext]
      exact externalArg_kept h
    next hext =>
      rw [if_neg hext]
      exact put_kept h

theorem check_kept {chanlistLen convert arg : U32}
    (h : (pci230AiCheckScanPeriod chanlistLen convert arg).1 = false) :
    (pci230AiCheckScanPeriod chanlistLen convert arg).2 = arg :=
  put_kept (Bool.or_eq_false_iff.mp h).2

theorem scanBeginArg_kept {src chanlistLen convert arg : U32}
    (h : (scanBeginArg src chanlistLen convert arg).1 = false) :
    (scanBeginArg src chanlistLen convert arg).2 = arg := by
  unfold scanBeginArg at h ⊢
  split at h
  next hext =>
    rw [if_pos hext]
    obtain ⟨hnumber, hflags⟩ := Bool.or_eq_false_iff.mp h
    exact (put_kept hflags).trans (put_kept hnumber)
  next hext =>
    rw [if_neg hext]
    split at h
    next htimer =>
      rw [if_pos htimer]
      exact check_kept h
    next htimer =>
      rw [if_neg htimer]
      exact put_kept h

theorem stopArg_kept {src arg : U32} (h : (stopArg src arg).1 = false) :
    (stopArg src arg).2 = arg := by
  unfold stopArg at h ⊢
  split at h
  next hnone =>
    rw [if_pos hnone]
    exact put_kept h
  next hnone => rw [if_neg hnone]

/-- What step 3 leaves as it is. -/
structure Fixed (hwver : U16) (cmd : Cmd) : Prop where
  start : cmd.startArg = 0
  convert : (convertArg (maxSpeedAi hwver cmd.chanlist cmd.chanlistLen) cmd.convertSrc 0
    cmd.convertArg).1 = false
  scanEnd : cmd.scanEndArg = cmd.chanlistLen
  stop : (stopArg cmd.stopSrc cmd.stopArg).1 = false
  scanBegin : (scanBeginArg cmd.scanBeginSrc cmd.chanlistLen cmd.convertArg
    cmd.scanBeginArg).1 = false

theorem fixArgs_eq_false : (fixArgs hwver cmd).1 = false ↔ Fixed hwver cmd := by
  unfold fixArgs
  dsimp only
  simp only [Bool.or_eq_false_iff, only_eq_false, only_snd]
  constructor
  · rintro ⟨⟨⟨⟨hstart, hconvert⟩, hscanEnd⟩, hstop⟩, hscanBegin⟩
    rw [convertArg_kept hconvert] at hscanBegin
    exact ⟨hstart, hconvert, hscanEnd, hstop, hscanBegin⟩
  · rintro ⟨hstart, hconvert, hscanEnd, hstop, hscanBegin⟩
    rw [convertArg_kept hconvert]
    exact ⟨⟨⟨⟨hstart, hconvert⟩, hscanEnd⟩, hstop⟩, hscanBegin⟩

theorem fixArgs_kept (h : (fixArgs hwver cmd).1 = false) : (fixArgs hwver cmd).2 = cmd := by
  obtain ⟨hstart, hconvert, hscanEnd, hstop, hscanBegin⟩ := fixArgs_eq_false.mp h
  unfold fixArgs
  dsimp only
  rw [only_snd, only_snd, convertArg_kept hconvert, stopArg_kept hstop,
    scanBeginArg_kept hscanBegin, ← hstart]
  exact congrArg (fun x => { cmd with scanEndArg := x }) hscanEnd.symm

theorem roundArgs_eq_false : (roundArgs cmd).1 = false ↔
    roundConvert cmd = cmd.convertArg ∧ roundScanBegin cmd cmd.convertArg = cmd.scanBeginArg := by
  unfold roundArgs
  dsimp only
  rw [Bool.or_eq_false_iff, decide_eq_false_iff_not, decide_eq_false_iff_not, not_not, not_not]
  constructor
  · rintro ⟨hconvert, hscan⟩
    rw [← hconvert] at hscan
    exact ⟨hconvert.symm, hscan.symm⟩
  · rintro ⟨hconvert, hscan⟩
    rw [hconvert]
    exact ⟨rfl, hscan.symm⟩

theorem roundArgs_kept (h : (roundArgs cmd).1 = false) : (roundArgs cmd).2 = cmd := by
  obtain ⟨hconvert, hscan⟩ := roundArgs_eq_false.mp h
  unfold roundArgs
  dsimp only
  rw [hconvert, hscan]

/-- A command that `pci230_ai_cmdtest` accepts. -/
structure Accepted (board : Pci230Board) (hwver : U16) (cmd : Cmd) : Prop where
  masked : (maskSources board cmd).1 = false
  sources : ¬ badSources cmd
  fixed : Fixed hwver cmd
  convert : roundConvert cmd = cmd.convertArg
  scanBegin : roundScanBegin cmd cmd.convertArg = cmd.scanBeginArg
  list : checkList board hwver cmd = 0

theorem accepted_of_ret (h : (pci230AiCmdtest board hwver cmd).1 = 0) :
    Accepted board hwver cmd := by
  unfold pci230AiCmdtest at h
  dsimp only at h
  split at h
  · exact absurd (show (1 : Int) = 0 from h) (by decide)
  next hmask =>
  have hmasked : (maskSources board cmd).2 = cmd :=
    RtTimer.cmdtestHelper_ok (Bool.eq_false_iff.mpr hmask)
  rw [hmasked] at h
  split at h
  · exact absurd (show (2 : Int) = 0 from h) (by decide)
  next hsrc =>
  split at h
  · exact absurd (show (3 : Int) = 0 from h) (by decide)
  next hfix =>
  have hfixed := Bool.eq_false_iff.mpr hfix
  rw [fixArgs_kept hfixed] at h
  split at h
  · exact absurd (show (4 : Int) = 0 from h) (by decide)
  next hround =>
  have hrounded := Bool.eq_false_iff.mpr hround
  rw [roundArgs_kept hrounded] at h
  obtain ⟨hconvert, hscan⟩ := roundArgs_eq_false.mp hrounded
  exact ⟨Bool.eq_false_iff.mpr hmask, hsrc, fixArgs_eq_false.mp hfixed, hconvert, hscan, h⟩

end Accepted

end Comedi.Pci230AiCmdtest
