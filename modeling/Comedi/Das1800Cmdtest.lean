import Comedi.ArgFixes
import Comedi.Das1800
import Comedi.FakeWaveform
import Comedi.I8253Pacing
import Comedi.Pci230

namespace Comedi.Das1800Cmdtest

open ArgFixes ChanlistCheck Das1800
open FakeWaveform (entriesOf)
open I8253 (Timer cascadeNsToTimer2div trigRoundMask trigRoundDown trigRoundUp)
open Pci230 (trigExt)
open RtTimer (trigNone trigNow trigFollow trigTimer trigCount cmdtestHelper)

def timerBase : U32 := 200

/-- The command that is tested, and the divisors of the device. -/
structure AiTest where
  cmd : Cmd
  divisor1 : U32 := 0
  divisor2 : U32 := 0

/-- `burst_convert_arg`. -/
def burstConvertArg (convertArg roundMode : U32) : U32 :=
  let convertArg := if 64000 < convertArg then 64000 else convertArg
  let microSec :=
    if roundMode = trigRoundDown then convertArg / 1000
    else if roundMode = trigRoundUp then (convertArg - 1) / 1000 + 1
    else (convertArg + 500) / 1000
  microSec * 1000

def maskSources (cmd : Cmd) : Bool × Cmd :=
  cmdtestHelper cmd (trigNow ||| trigExt) (trigFollow ||| trigTimer ||| trigExt)
    (trigTimer ||| trigExt) trigCount (trigCount ||| trigExt ||| trigNone)

/-- Step 2 of `das1800_ai_do_cmdtest` finds an error. -/
def badSources (cmd : Cmd) : Prop :=
  (cmd.startSrc ≠ trigNow ∧ cmd.startSrc ≠ trigExt) ∨
    (cmd.scanBeginSrc ≠ trigFollow ∧ cmd.scanBeginSrc ≠ trigTimer ∧
      cmd.scanBeginSrc ≠ trigExt) ∨
    (cmd.convertSrc ≠ trigTimer ∧ cmd.convertSrc ≠ trigExt) ∨
    (cmd.stopSrc ≠ trigCount ∧ cmd.stopSrc ≠ trigNone ∧ cmd.stopSrc ≠ trigExt) ∨
    (cmd.scanBeginSrc ≠ trigFollow ∧ cmd.convertSrc ≠ trigTimer)

instance (cmd : Cmd) : Decidable (badSources cmd) := by unfold badSources; infer_instance

def stopArg (src arg : U32) : Bool × U32 :=
  if src = trigCount then put (arg = 0) 1 arg
  else if src = trigNone then only 0 arg
  else (false, arg)

/-- Step 3 of `das1800_ai_do_cmdtest`. -/
def fixArgs (aiSpeed : U32) (cmd : Cmd) : Bool × Cmd :=
  let start := only 0 cmd.startArg
  let convert := put (cmd.convertSrc = trigTimer ∧ cmd.convertArg < aiSpeed) aiSpeed cmd.convertArg
  let chanlistLen := put (cmd.chanlistLen = 0) 1 cmd.chanlistLen
  let scanEnd := only chanlistLen.2 cmd.scanEndArg
  let stop := stopArg cmd.stopSrc cmd.stopArg
  (start.1 || convert.1 || chanlistLen.1 || scanEnd.1 || stop.1,
    { cmd with
      startArg := start.2
      convertArg := convert.2
      chanlistLen := chanlistLen.2
      scanEndArg := scanEnd.2
      stopArg := stop.2 })

def pace (x : AiTest) (ns : U32) : Timer :=
  cascadeNsToTimer2div timerBase ⟨x.divisor1, x.divisor2, ns⟩ (x.cmd.flags &&& trigRoundMask)

/-- Conversions that follow one another. -/
def roundConvert (x : AiTest) : Bool × AiTest :=
  let t := pace x x.cmd.convertArg
  (x.cmd.convertArg ≠ t.nanosec, ⟨{ x.cmd with convertArg := t.nanosec }, t.d1, t.d2⟩)

/-- A scan that is timed faster than the conversions allow is made longer. -/
def roundScan (x : AiTest) (convert : U32) : Bool × AiTest :=
  let scan := put (x.cmd.scanBeginArg < convert * x.cmd.chanlistLen)
    (convert * x.cmd.chanlistLen) x.cmd.scanBeginArg
  let t := pace x scan.2
  (scan.1 || scan.2 ≠ t.nanosec,
    ⟨{ x.cmd with convertArg := convert, scanBeginArg := t.nanosec }, t.d1, t.d2⟩)

/-- Burst mode. -/
def roundBurst (x : AiTest) : Bool × AiTest :=
  let convert := burstConvertArg x.cmd.convertArg (x.cmd.flags &&& trigRoundMask)
  if x.cmd.scanBeginSrc = trigTimer then
    let scan := roundScan x convert
    (x.cmd.convertArg ≠ convert || scan.1, scan.2)
  else (x.cmd.convertArg ≠ convert, { x with cmd := { x.cmd with convertArg := convert } })

/-- Step 4 of `das1800_ai_do_cmdtest`. -/
def roundArgs (x : AiTest) : Bool × AiTest :=
  if x.cmd.convertSrc = trigTimer then
    if x.cmd.scanBeginSrc = trigFollow then roundConvert x else roundBurst x
  else (false, x)

/-- The channel list mixes unipolar and bipolar ranges. -/
def mixedRanges (cmd : Cmd) : Bool :=
  let entries := (entriesOf cmd.chanlist).take cmd.chanlistLen.toNat
  cmd.chanlist ≠ .null ∧
    entries.any fun entry =>
      crRange (entries.getD 0 0) &&& unipolarBit ≠ crRange entry &&& unipolarBit

def das1800AiDoCmdtest (aiSpeed : U32) (x : AiTest) : Int × AiTest :=
  let masked := maskSources x.cmd
  if masked.1 then (1, { x with cmd := masked.2 })
  else if badSources masked.2 then (2, { x with cmd := masked.2 })
  else
    let args := fixArgs aiSpeed masked.2
    if args.1 then (3, { x with cmd := args.2 })
    else
      let rounded := roundArgs { x with cmd := args.2 }
      if rounded.1 then (4, rounded.2)
      else if mixedRanges rounded.2.cmd then (5, rounded.2)
      else (0, rounded.2)

section Accepted

variable {aiSpeed : U32} {cmd : Cmd} {x : AiTest}

theorem stopArg_kept {src arg : U32} (h : (stopArg src arg).1 = false) :
    (stopArg src arg).2 = arg := by
  unfold stopArg at h ⊢
  split at h
  next hcount =>
    rw [if_pos hcount]
    exact put_kept h
  next hcount =>
    rw [if_neg hcount]
    split at h
    next hnone =>
      rw [if_pos hnone]
      exact put_kept h
    next hnone => rw [if_neg hnone]

/-- What step 3 leaves as it is. -/
structure Fixed (aiSpeed : U32) (cmd : Cmd) : Prop where
  start : cmd.startArg = 0
  convert : cmd.convertSrc = trigTimer → ¬ cmd.convertArg < aiSpeed
  len : cmd.chanlistLen ≠ 0
  scanEnd : cmd.scanEndArg = cmd.chanlistLen
  stop : (stopArg cmd.stopSrc cmd.stopArg).1 = false

theorem fixArgs_eq_false : (fixArgs aiSpeed cmd).1 = false ↔ Fixed aiSpeed cmd := by
  unfold fixArgs
  dsimp only
  simp only [Bool.or_eq_false_iff, only_eq_false, put_eq_false]
  constructor
  · rintro ⟨⟨⟨⟨hstart, hconvert⟩, hlen⟩, hscanEnd⟩, hstop⟩
    rw [put_of_not hlen] at hscanEnd
    exact ⟨hstart, fun htimer hlt => hconvert ⟨htimer, hlt⟩, hlen, hscanEnd, hstop⟩
  · rintro ⟨hstart, hconvert, hlen, hscanEnd, hstop⟩
    rw [put_of_not hlen]
    exact ⟨⟨⟨⟨hstart, fun h => hconvert h.1 h.2⟩, hlen⟩, hscanEnd⟩, hstop⟩

theorem fixArgs_kept (h : (fixArgs aiSpeed cmd).1 = false) : (fixArgs aiSpeed cmd).2 = cmd := by
  obtain ⟨hstart, hconvert, hlen, hscanEnd, hstop⟩ := fixArgs_eq_false.mp h
  unfold fixArgs
  dsimp only
  rw [put_of_not fun hslow => hconvert hslow.1 hslow.2, put_of_not hlen, only_snd, only_snd,
    stopArg_kept hstop, ← hstart]
  exact congrArg (fun n => { cmd with scanEndArg := n }) hscanEnd.symm

theorem roundConvert_kept (h : (roundConvert x).1 = false) : (roundConvert x).2.cmd = x.cmd := by
  have hsame : x.cmd.convertArg = (pace x x.cmd.convertArg).nanosec :=
    not_not.mp (decide_eq_false_iff_not.mp h)
  change { x.cmd with convertArg := (pace x x.cmd.convertArg).nanosec } = x.cmd
  rw [← hsame]

theorem roundBurst_kept (h : (roundBurst x).1 = false) : (roundBurst x).2.cmd = x.cmd := by
  unfold roundBurst at h ⊢
  dsimp only at h ⊢
  split at h
  next hscan =>
    rw [if_pos hscan]
    obtain ⟨hconvert, hrest⟩ := Bool.or_eq_false_iff.mp h
    obtain ⟨hlong, hsame⟩ := Bool.or_eq_false_iff.mp hrest
    have hconvert' := not_not.mp (decide_eq_false_iff_not.mp hconvert)
    have hsame' := not_not.mp (decide_eq_false_iff_not.mp hsame)
    unfold roundScan
    dsimp only
    rw [← hsame', put_kept hlong]
    exact congrArg (fun ns => { x.cmd with convertArg := ns }) hconvert'.symm
  next hscan =>
    rw [if_neg hscan]
    dsimp only
    rw [← not_not.mp (decide_eq_false_iff_not.mp h)]

theorem roundArgs_kept (h : (roundArgs x).1 = false) : (roundArgs x).2.cmd = x.cmd := by
  unfold roundArgs at h ⊢
  split at h
  next htimer =>
    rw [if_pos htimer]
    split at h
    next hscan =>
      rw [if_pos hscan]
      exact roundConvert_kept h
    next hscan =>
      rw [if_neg hscan]
      exact roundBurst_kept h
  next htimer => rw [if_neg htimer]

/-- A command that `das1800_ai_do_cmdtest` accepts. -/
structure Accepted (aiSpeed : U32) (x : AiTest) : Prop where
  masked : (maskSources x.cmd).1 = false
  sources : ¬ badSources x.cmd
  fixed : Fixed aiSpeed x.cmd
  rounded : (roundArgs x).1 = false

theorem accepted_of_ret (h : (das1800AiDoCmdtest aiSpeed x).1 = 0) :
    Accepted aiSpeed x ∧ (das1800AiDoCmdtest aiSpeed x).2 = (roundArgs x).2 := by
  unfold das1800AiDoCmdtest at h ⊢
  dsimp only at h ⊢
  by_cases hmask : (maskSources x.cmd).1 = true
  · rw [if_pos hmask] at h
    exact absurd (show (1 : Int) = 0 from h) (by decide)
  have hmasked : (maskSources x.cmd).2 = x.cmd :=
    RtTimer.cmdtestHelper_ok (Bool.eq_false_iff.mpr hmask)
  rw [if_neg hmask, hmasked] at h ⊢
  by_cases hsrc : badSources x.cmd
  · rw [if_pos hsrc] at h
    exact absurd (show (2 : Int) = 0 from h) (by decide)
  rw [if_neg hsrc] at h ⊢
  by_cases hfix : (fixArgs aiSpeed x.cmd).1 = true
  · rw [if_pos hfix] at h
    exact absurd (show (3 : Int) = 0 from h) (by decide)
  have hfixed := Bool.eq_false_iff.mpr hfix
  rw [if_neg hfix, fixArgs_kept hfixed] at h ⊢
  by_cases hround : (roundArgs x).1 = true
  · rw [if_pos hround] at h
    exact absurd (show (4 : Int) = 0 from h) (by decide)
  rw [if_neg hround] at h ⊢
  refine ⟨⟨Bool.eq_false_iff.mpr hmask, hsrc, fixArgs_eq_false.mp hfixed,
    Bool.eq_false_iff.mpr hround⟩, ?_⟩
  split
  · rfl
  · rfl

end Accepted

end Comedi.Das1800Cmdtest
