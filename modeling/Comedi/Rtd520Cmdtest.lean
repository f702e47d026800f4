import Comedi.NiTimer
import Comedi.Pci230
import Comedi.Retests
import Comedi.Rtd520

namespace Comedi.Rtd520Cmdtest

open ArgFixes Retests
open ConfigRetry (trigRoundNearest trigRoundDown trigRoundUp)
open I8253 (trigRoundMask)
open NiTimer (niNsToTimer slack rounded)
open Pci230 (trigExt)
open Rtd520 (rtdMaxChanlist)
open RtTimer (trigNone trigNow trigTimer trigCount maskSrc cmdtestHelper)

/-- Clock period in nanoseconds. -/
def rtdClockBase : U32 := 125

def rtdMaxSpeed : U32 := 1625

/-- If single channel. -/
def rtdMaxSpeed1 : U32 := 875

def rtdMinSpeed : U32 := 2097151875

def rtdMinSpeed1 : U32 := 5000000

section Timer

variable (base : U32)

/-- What is counted for a period. -/
def divider (nanosec roundMode : U32) : U32 :=
  let divider :=
    if roundMode = trigRoundDown then nanosec / base
    else if roundMode = trigRoundUp then (nanosec + base - 1) / base
    else (nanosec + base / 2) / base
  if divider < 2 then 2 else divider

/-- What `rtd_ns_to_timer_base` returns, and the period that `*nanosec` becomes. -/
def rtdNsToTimerBase (nanosec roundMode : U32) : U32 × U32 :=
  (divider base nanosec roundMode - 1, base * divider base nanosec roundMode)

end Timer

def rtdNsToTimer (ns roundMode : U32) : U32 × U32 := rtdNsToTimerBase rtdClockBase ns roundMode

section Cmdtest

def maskSources (cmd : Cmd) : Bool × Cmd :=
  cmdtestHelper cmd trigNow (trigTimer ||| trigExt) (trigTimer ||| trigExt) trigCount
    (trigCount ||| trigNone)

/-- Step 2 of `rtd_ai_cmdtest` finds an error. -/
def badSources (cmd : Cmd) : Prop :=
  (cmd.scanBeginSrc ≠ trigTimer ∧ cmd.scanBeginSrc ≠ trigExt) ∨
    (cmd.convertSrc ≠ trigTimer ∧ cmd.convertSrc ≠ trigExt) ∨
    (cmd.stopSrc ≠ trigCount ∧ cmd.stopSrc ≠ trigNone)

instance (cmd : Cmd) : Decidable (badSources cmd) := by unfold badSources; infer_instance

/-- A period is brought within the limits, which are rounded themselves. -/
def limited (fastest slowest arg : U32) : Bool × U32 :=
  let fast := put (arg < fastest) (rtdNsToTimer fastest trigRoundUp).2 arg
  let slow := put (slowest < fast.2) (rtdNsToTimer slowest trigRoundDown).2 fast.2
  (fast.1 || slow.1, slow.2)

def periodArg (src chanlistLen arg : U32) : Bool × U32 :=
  if src = trigTimer then
    if chanlistLen = 1 then limited rtdMaxSpeed1 rtdMinSpeed1 arg
    else limited rtdMaxSpeed rtdMinSpeed arg
  else put (9 < arg) 9 arg

def stopArg (src arg : U32) : Bool × U32 := if src = trigCount then (false, arg) else only 0 arg

/-- Step 3 of `rtd_ai_cmdtest`. -/
def fixArgs (cmd : Cmd) : Bool × Cmd :=
  let start := only 0 cmd.startArg
  let scanBegin := periodArg cmd.scanBeginSrc cmd.chanlistLen cmd.scanBeginArg
  let convert := periodArg cmd.convertSrc cmd.chanlistLen cmd.convertArg
  let stop := stopArg cmd.stopSrc cmd.stopArg
  (start.1 || scanBegin.1 || convert.1 || stop.1,
    { cmd with
      startArg := start.2
      scanBeginArg := scanBegin.2
      convertArg := convert.2
      stopArg := stop.2 })

def mode (cmd : Cmd) : U32 := cmd.flags &&& trigRoundMask

def roundPeriod (src roundMode arg : U32) : Bool × U32 :=
  if src = trigTimer then only (rtdNsToTimer arg roundMode).2 arg else (false, arg)

/-- Step 4 of `rtd_ai_cmdtest`. -/
def roundArgs (cmd : Cmd) : Bool × Cmd :=
  let chanlistLen := put (rtdMaxChanlist < cmd.chanlistLen) rtdMaxChanlist cmd.chanlistLen
  let scanBegin := roundPeriod cmd.scanBeginSrc (mode cmd) cmd.scanBeginArg
  let convert := roundPeriod cmd.convertSrc (mode cmd) cmd.convertArg
  let least := convert.2 * cmd.scanEndArg
  let raised := put (cmd.convertSrc = trigTimer ∧ cmd.scanBeginSrc = trigTimer ∧
    scanBegin.2 < least) least scanBegin.2
  (chanlistLen.1 || scanBegin.1 || convert.1 || raised.1,
    { cmd with
      scanBeginArg := raised.2
      convertArg := convert.2
      chanlistLen := chanlistLen.2 })

def rtdAiCmdtest (cmd : Cmd) : Int × Cmd :=
  let masked := maskSources cmd
  if masked.1 then (1, masked.2)
  else if badSources masked.2 then (2, masked.2)
  else
    let args := fixArgs masked.2
    if args.1 then (3, args.2)
    else
      let rounded := roundArgs args.2
      (if rounded.1 then 4 else 0, rounded.2)

end Cmdtest

/-- The counters that `rtd_ai_cmd` loads, if it does. -/
structure Counters where
  pacer : Option U32
  burst : Option U32

/-- The timers of `rtd_ai_cmd`. The burst counter is only needed for several channels. -/
def rtdAiCmd (cmd : Cmd) : Counters where
  pacer :=
    if cmd.scanBeginSrc = trigTimer then some (rtdNsToTimer cmd.scanBeginArg trigRoundNearest).1
    else none
  burst :=
    if cmd.convertSrc = trigTimer ∧ 1 < cmd.chanlistLen then
      some (rtdNsToTimer cmd.convertArg trigRoundNearest).1
    else none

variable {x lo hi ns m : U32} {cmd : Cmd}

section Periods

theorem base_pos : 0 < rtdClockBase.toNat := by decide

theorem divider_toNat (h : 2 * rtdClockBase.toNat ≤ ns.toNat)
    (h' : ns.toNat ≤ rtdMinSpeed.toNat) :
    (divider rtdClockBase ns m).toNat = (ns.toNat + slack rtdClockBase m) / rtdClockBase.toNat := by
  have hslack := NiTimer.slack_lt base_pos m
  have hbase : rtdClockBase.toNat = 125 := rfl
  have hslow : rtdMinSpeed.toNat = 2097151875 := rfl
  have hcount := NiTimer.divider_toNat base_pos ns m
  rw [Nat.mod_eq_of_lt (by omega)] at hcount
  have hsame : divider rtdClockBase ns m =
      if niNsToTimer rtdClockBase ns m + 1 < 2 then 2 else niNsToTimer rtdClockBase ns m + 1 := by
    unfold divider niNsToTimer
    dsimp only
    rw [BitVec.sub_add_cancel]
  have htwo : ¬ niNsToTimer rtdClockBase ns m + 1 < 2 := by
    have hval : (2 : U32).toNat = 2 := rfl
    rw [BitVec.lt_def, hcount, hval]
    refine Nat.not_lt.mpr ((Nat.le_div_iff_mul_le base_pos).mpr ?_)
    omega
  rw [hsame, if_neg htwo, hcount]

/-- A period within the limits is brought to a whole number of clocks. -/
theorem rtdNsToTimer_toNat (h : 2 * rtdClockBase.toNat ≤ ns.toNat)
    (h' : ns.toNat ≤ rtdMinSpeed.toNat) :
    (rtdNsToTimer ns m).2.toNat = rounded rtdClockBase m ns.toNat := by
  have hslack := NiTimer.slack_lt base_pos m
  have hbase : rtdClockBase.toNat = 125 := rfl
  have hslow : rtdMinSpeed.toNat = 2097151875 := rfl
  have hle := @NiTimer.rounded_le rtdClockBase m ns.toNat
  unfold rtdNsToTimer rtdNsToTimerBase
  rw [BitVec.toNat_mul, divider_toNat h h', Nat.mul_comm]
  exact Nat.mod_eq_of_lt (by
    unfold rounded at hle
    omega)

/-- A whole number of clocks is loaded as it is. -/
theorem timer_exact (h : 2 * rtdClockBase.toNat ≤ ns.toNat) (h' : ns.toNat ≤ rtdMinSpeed.toNat)
    (hdvd : rtdClockBase.toNat ∣ ns.toNat) :
    ((rtdNsToTimer ns m).1.toNat + 1) * 125 = ns.toNat := by
  have hbase : rtdClockBase.toNat = 125 := rfl
  obtain ⟨k, hk⟩ := hdvd
  have hdivider := @divider_toNat ns m h h'
  rw [hk, Nat.mul_add_div base_pos, Nat.div_eq_of_lt (NiTimer.slack_lt base_pos m),
    Nat.add_zero] at hdivider
  have hone : (1 : U32).toNat = 1 := rfl
  have hlt := ns.isLt
  unfold rtdNsToTimer rtdNsToTimerBase
  dsimp only
  rw [BitVec.toNat_sub, hdivider, hone]
  rw [hbase] at h hk
  omega

theorem limited_eq (hlo : (rtdNsToTimer lo trigRoundUp).2 = lo)
    (hhi : (rtdNsToTimer hi trigRoundDown).2 = hi) : limited lo hi = within lo hi := by
  funext arg
  unfold limited within
  rw [hlo, hhi]

end Periods

section Supported

/-- Each source is a single one that the board has. -/
structure Supported (cmd : Cmd) : Prop where
  start : cmd.startSrc = trigNow
  scanBegin : cmd.scanBeginSrc = trigTimer ∨ cmd.scanBeginSrc = trigExt
  convert : cmd.convertSrc = trigTimer ∨ cmd.convertSrc = trigExt
  scanEnd : cmd.scanEndSrc = trigCount
  stop : cmd.stopSrc = trigCount ∨ cmd.stopSrc = trigNone

theorem Supported.masked (h : Supported cmd) : maskSources cmd = (false, cmd) := by
  have hstart : maskSrc cmd.startSrc trigNow = (cmd.startSrc, false) := by
    rw [h.start]
    decide
  have hperiod : ∀ src : U32, src = trigTimer ∨ src = trigExt →
      maskSrc src (trigTimer ||| trigExt) = (src, false) := by
    rintro src (rfl | rfl)
    · decide
    · decide
  have hscanEnd : maskSrc cmd.scanEndSrc trigCount = (cmd.scanEndSrc, false) := by
    rw [h.scanEnd]
    decide
  have hstop : maskSrc cmd.stopSrc (trigCount ||| trigNone) = (cmd.stopSrc, false) := by
    rcases h.stop with hsrc | hsrc <;> rw [hsrc] <;> decide
  unfold maskSources cmdtestHelper
  dsimp only
  rw [hstart, hperiod _ h.scanBegin, hperiod _ h.convert, hscanEnd, hstop]
  rfl

theorem Supported.sources (h : Supported cmd) : ¬ badSources cmd := by
  rintro (⟨htimer, hext⟩ | ⟨htimer, hext⟩ | ⟨hcount, hnone⟩)
  · exact h.scanBegin.elim htimer hext
  · exact h.convert.elim htimer hext
  · exact h.stop.elim hcount hnone

end Supported

end Comedi.Rtd520Cmdtest
