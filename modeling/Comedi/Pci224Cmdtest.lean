import Comedi.ArgFixes
import Comedi.FakeWaveform
import Comedi.I8253Pacing
import Comedi.Pcidas
import Comedi.Pci230AiCmdtest

namespace Comedi.Pci224Cmdtest

open ArgFixes ChanlistCheck
open FakeWaveform (entriesOf)
open I8253 (Timer cascadeNsToTimer2div trigRoundMask trigRoundDown trigRoundUp)
open Pci230 (trigExt crEdge crInvert)
open Pci230AiCmdtest (combine)
open Pcidas (crFlagsMask)
open RtTimer (trigNone trigNow trigTimer trigCount trigInt cmdtestHelper)

def timebase10Mhz : U32 := 100

def maxScanPeriod : U32 := 0xffffffff
def minScanPeriod : U32 := 2500
def convertPeriod : U32 := 625

/-- The command that is tested, and the divisors that the device has cached. -/
structure AoTest where
  cmd : Cmd
  cachedDiv1 : U32 := 0
  cachedDiv2 : U32 := 0
  deriving DecidableEq

def maskSources (cmd : Cmd) : Bool × Cmd :=
  cmdtestHelper cmd (trigInt ||| trigExt) (trigExt ||| trigTimer) trigNow trigCount
    (trigCount ||| trigExt ||| trigNone)

/-- Two uses of the one external trigger signal. -/
def sharedTrigger (cmd : Cmd) : Prop :=
  (cmd.startSrc &&& trigExt ≠ 0 ∧ cmd.scanBeginSrc &&& trigExt ≠ 0) ∨
    (cmd.startSrc &&& trigExt ≠ 0 ∧ cmd.stopSrc &&& trigExt ≠ 0) ∨
    (cmd.scanBeginSrc &&& trigExt ≠ 0 ∧ cmd.stopSrc &&& trigExt ≠ 0)

/-- Step 2 of `pci224_ao_cmdtest` finds an error. -/
def badSources (cmd : Cmd) : Prop :=
  cmd.startSrc &&& (cmd.startSrc - 1) ≠ 0 ∨ cmd.scanBeginSrc &&& (cmd.scanBeginSrc - 1) ≠ 0 ∨
    cmd.convertSrc &&& (cmd.convertSrc - 1) ≠ 0 ∨ cmd.scanEndSrc &&& (cmd.scanEndSrc - 1) ≠ 0 ∨
    cmd.stopSrc &&& (cmd.stopSrc - 1) ≠ 0 ∨ sharedTrigger cmd

instance (cmd : Cmd) : Decidable (badSources cmd) := by
  unfold badSources sharedTrigger
  infer_instance

def clearBits (mask arg : U32) : Bool × U32 := put (arg &&& mask ≠ 0) (combine arg 0 mask) arg

def forbidden (allowed : U32) : U32 := crFlagsMask &&& ~~~allowed

/-- An external trigger is made trigger 0 with no other flags than those that are allowed. -/
def external (allowed arg : U32) : Bool × U32 :=
  let number := clearBits (~~~crFlagsMask) arg
  let flags := clearBits (forbidden allowed) number.2
  (number.1 || flags.1, flags.2)

def startArg (src arg : U32) : Bool × U32 :=
  if src = trigInt then only 0 arg
  else if src = trigExt then external crEdge arg
  else (false, arg)

def leastScan (chanlistLen : U32) : U32 :=
  if chanlistLen * convertPeriod < minScanPeriod then minScanPeriod else chanlistLen * convertPeriod

def timerArg (chanlistLen arg : U32) : Bool × U32 :=
  let high := put (maxScanPeriod < arg) maxScanPeriod arg
  let low := put (high.2 < leastScan chanlistLen) (leastScan chanlistLen) high.2
  (high.1 || low.1, low.2)

def scanBeginArg (src chanlistLen arg : U32) : Bool × U32 :=
  if src = trigTimer then timerArg chanlistLen arg
  else if src = trigExt then external (crEdge ||| crInvert) arg
  else (false, arg)

/-- Unlike the others, this trigger loses its flags without an error. -/
def stopArg (src arg : U32) : Bool × U32 :=
  if src = trigExt then ((clearBits (~~~crFlagsMask) arg).1, (external crEdge arg).2)
  else if src = trigNone then only 0 arg
  else (false, arg)

/-- Step 3 of `pci224_ao_cmdtest`. -/
def fixArgs (cmd : Cmd) : Bool × Cmd :=
  let start := startArg cmd.startSrc cmd.startArg
  let scanBegin := scanBeginArg cmd.scanBeginSrc cmd.chanlistLen cmd.scanBeginArg
  let convert := only 0 cmd.convertArg
  let scanEnd := only cmd.chanlistLen cmd.scanEndArg
  let stop := stopArg cmd.stopSrc cmd.stopArg
  (start.1 || scanBegin.1 || convert.1 || scanEnd.1 || stop.1,
    { cmd with
      startArg := start.2
      scanBeginArg := scanBegin.2
      convertArg := convert.2
      scanEndArg := scanEnd.2
      stopArg := stop.2 })

def roundMode (cmd : Cmd) : U32 := cmd.flags &&& trigRoundMask

/-- `round`. -/
def roundBy (mode : U32) : U32 :=
  if mode = trigRoundDown then 0
  else if mode = trigRoundUp then timebase10Mhz - 1
  else timebase10Mhz / 2

/-- The period in ticks. -/
def ticks (mode ns : U32) : U32 :=
  ns / timebase10Mhz + (roundBy mode + ns % timebase10Mhz) / timebase10Mhz

/-- A single timer will suffice. -/
def single (mode ns : U32) : Prop := ticks mode ns ≤ 0x10000

instance (mode ns : U32) : Decidable (single mode ns) := inferInstanceAs (Decidable (_ ≤ _))

def singleDiv2 (mode ns : U32) : U32 := if ticks mode ns < 2 then 2 else ticks mode ns

def singleNs (mode ns : U32) : U32 :=
  let div2 := singleDiv2 mode ns
  if div2 * timebase10Mhz < div2 ∨ div2 * timebase10Mhz < timebase10Mhz then maxScanPeriod
  else div2 * timebase10Mhz

/-- `pci224_cascade_ns_to_timer` with the cached divisors. -/
def pci224CascadeNsToTimer (x : AoTest) : Timer :=
  cascadeNsToTimer2div timebase10Mhz ⟨x.cachedDiv1, x.cachedDiv2, x.cmd.scanBeginArg⟩
    (roundMode x.cmd)

def roundScan (x : AoTest) : AoTest :=
  if single (roundMode x.cmd) x.cmd.scanBeginArg then
    { x with cmd := { x.cmd with scanBeginArg := singleNs (roundMode x.cmd) x.cmd.scanBeginArg } }
  else
    let t := pci224CascadeNsToTimer x
    ⟨{ x.cmd with scanBeginArg := t.nanosec }, t.d1, t.d2⟩

/-- Step 4 of `pci224_ao_cmdtest`. -/
def roundArgs (x : AoTest) : Bool × AoTest :=
  if x.cmd.scanBeginSrc = trigTimer then
    (x.cmd.scanBeginArg ≠ (roundScan x).cmd.scanBeginArg, roundScan x)
  else (false, x)

def duplicates : List U32 → U32 → Bool
  | [], _ => false
  | entry :: rest, seen =>
    let bit := (1 : U32) <<< crChan entry
    seen &&& bit ≠ 0 || duplicates rest (seen ||| bit)

/-- Step 5 of `pci224_ao_cmdtest` finds an error. -/
def badChanlist (cmd : Cmd) : Bool :=
  let entries := (entriesOf cmd.chanlist).take cmd.chanlistLen.toNat
  (cmd.chanlist ≠ .null ∧ 0 < cmd.chanlistLen) &&
    (duplicates entries 0 || entries.any fun entry => crRange entry ≠ crRange (entries.getD 0 0))

def pci224AoCmdtest (x : AoTest) : Int × AoTest :=
  let masked := maskSources x.cmd
  if masked.1 then (1, { x with cmd := masked.2 })
  else if badSources masked.2 then (2, { x with cmd := masked.2 })
  else
    let args := fixArgs masked.2
    if args.1 then (3, { x with cmd := args.2 })
    else
      let rounded := roundArgs { x with cmd := args.2 }
      if rounded.1 then (4, rounded.2)
      else if badChanlist rounded.2.cmd then (5, rounded.2)
      else (0, rounded.2)

/-- The divisors that `pci224_ao_cmd` comes to for a timed command. -/
def divisors (x : AoTest) : U32 × U32 :=
  if single (roundMode x.cmd) x.cmd.scanBeginArg then
    (1, singleDiv2 (roundMode x.cmd) x.cmd.scanBeginArg &&& 0xffff)
  else ((pci224CascadeNsToTimer x).d1, (pci224CascadeNsToTimer x).d2)

/-- The counters and the counts that `pci224_ao_cmd` gives to `i8254_load`, all in mode 2. -/
def timerLoads (div : U32 × U32) : List (U32 × U32) :=
  if div.1 = 1 then [(0, div.2)] else [(2, div.1), (0, div.2)]

/-- The tests of `i8254_load`, in mode 2. -/
def i8254Loads (load : U32 × U32) : Prop := load.1 ≤ 2 ∧ load.2 ≤ 0xffff ∧ load.2 ≠ 1

section Fixes

variable {cmd : Cmd} {mask allowed src arg len : U32}

theorem combine_zero (old mask : U32) : combine old 0 mask = old &&& ~~~mask := by
  unfold combine
  rw [show (0 : U32) &&& mask = 0 from BitVec.zero_and]
  exact BitVec.or_zero

theorem clearBits_eq_false : (clearBits mask arg).1 = false ↔ arg &&& mask = 0 :=
  put_eq_false.trans not_not

theorem clearBits_snd (mask arg : U32) : (clearBits mask arg).2 = arg &&& ~~~mask := by
  unfold clearBits
  rw [combine_zero]
  by_cases h : arg &&& mask = 0
  · rw [put_of_not (not_not.mpr h)]
    exact (BitFlags.clear_absent h).symm
  · rw [put_of h]

theorem clearBits_none (h : arg &&& mask = 0) : clearBits mask arg = (false, arg) :=
  put_of_not (not_not.mpr h)

theorem external_eq_false : (external allowed arg).1 = false ↔
    arg &&& ~~~crFlagsMask = 0 ∧ arg &&& forbidden allowed = 0 := by
  unfold external
  dsimp only
  rw [Bool.or_eq_false_iff, clearBits_eq_false]
  refine and_congr_right fun hnumber => ?_
  rw [clearBits_none hnumber, clearBits_eq_false]

theorem external_snd (allowed arg : U32) :
    (external allowed arg).2 = arg &&& crFlagsMask &&& ~~~forbidden allowed := by
  unfold external
  dsimp only
  rw [clearBits_snd, clearBits_snd, BitVec.not_not]

theorem external_kept (hnumber : arg &&& ~~~crFlagsMask = 0)
    (hflags : arg &&& forbidden allowed = 0) : (external allowed arg).2 = arg := by
  unfold external
  dsimp only
  rw [clearBits_none hnumber, clearBits_none hflags]

theorem number_cleared (allowed arg : U32) : (external allowed arg).2 &&& ~~~crFlagsMask = 0 := by
  rw [external_snd, BitVec.and_assoc arg, BitVec.and_comm crFlagsMask, ← BitVec.and_assoc arg,
    BitVec.and_assoc (arg &&& ~~~forbidden allowed), BitVec.and_not_self]
  exact BitVec.and_zero

theorem flags_cleared (allowed arg : U32) :
    (external allowed arg).2 &&& forbidden allowed = 0 := by
  rw [external_snd]
  exact BitFlags.cleared (BitVec.and_not_self _)

theorem sound_external (allowed : U32) : Sound (external allowed) where
  kept _ h := external_kept (external_eq_false.mp h).1 (external_eq_false.mp h).2
  done arg := external_eq_false.mpr ⟨number_cleared allowed arg, flags_cleared allowed arg⟩

theorem sound_startArg (src : U32) : Sound (startArg src) :=
  sound_ite (sound_only 0) (sound_ite (sound_external crEdge) sound_keep)

/-- No period is longer than the longest. -/
theorem timerArg_eq (len arg : U32) :
    timerArg len arg = put (arg < leastScan len) (leastScan len) arg := by
  have hmost : ¬ maxScanPeriod < arg := Nat.not_lt.mpr (Nat.le_of_lt_succ arg.isLt)
  unfold timerArg
  dsimp only
  rw [put_of_not hmost, Bool.false_or]

theorem sound_timerArg (len : U32) : Sound (timerArg len) := by
  rw [show timerArg len = fun arg => put (arg < leastScan len) (leastScan len) arg from
    funext (timerArg_eq len)]
  exact sound_put (· < leastScan len) (Nat.lt_irrefl _)

theorem sound_scanBeginArg (src len : U32) : Sound (scanBeginArg src len) :=
  sound_ite (sound_timerArg len) (sound_ite (sound_external _) sound_keep)

theorem stopArg_done (src arg : U32) : (stopArg src (stopArg src arg).2).1 = false := by
  unfold stopArg
  by_cases hext : src = trigExt
  · simp only [if_pos hext]
    exact clearBits_eq_false.mpr (number_cleared crEdge arg)
  · simp only [if_neg hext]
    exact (sound_ite (sound_only 0) sound_keep).done arg

theorem stopArg_kept (h : (stopArg src arg).1 = false)
    (hflags : src = trigExt → arg &&& forbidden crEdge = 0) : (stopArg src arg).2 = arg := by
  unfold stopArg at h ⊢
  by_cases hext : src = trigExt
  · rw [if_pos hext] at h ⊢
    exact external_kept (clearBits_eq_false.mp h) (hflags hext)
  · rw [if_neg hext] at h ⊢
    exact (sound_ite (sound_only 0) sound_keep).kept arg h

theorem stopArg_changed (hext : src = trigExt) (hflags : arg &&& forbidden crEdge ≠ 0) :
    (stopArg src arg).2 ≠ arg := by
  unfold stopArg
  rw [if_pos hext]
  intro hsame
  exact hflags (hsame ▸ flags_cleared crEdge arg)

/-- What step 3 leaves without an error. -/
structure Fixed (cmd : Cmd) : Prop where
  start : (startArg cmd.startSrc cmd.startArg).1 = false
  scanBegin : (scanBeginArg cmd.scanBeginSrc cmd.chanlistLen cmd.scanBeginArg).1 = false
  convert : cmd.convertArg = 0
  scanEnd : cmd.scanEndArg = cmd.chanlistLen
  stop : (stopArg cmd.stopSrc cmd.stopArg).1 = false

theorem fixArgs_eq_false : (fixArgs cmd).1 = false ↔ Fixed cmd := by
  unfold fixArgs
  dsimp only
  simp only [Bool.or_eq_false_iff, only_eq_false]
  constructor
  · rintro ⟨⟨⟨⟨hstart, hscanBegin⟩, hconvert⟩, hscanEnd⟩, hstop⟩
    exact ⟨hstart, hscanBegin, hconvert, hscanEnd, hstop⟩
  · rintro ⟨hstart, hscanBegin, hconvert, hscanEnd, hstop⟩
    exact ⟨⟨⟨⟨hstart, hscanBegin⟩, hconvert⟩, hscanEnd⟩, hstop⟩

def dropFlags (cmd : Cmd) : Cmd := { cmd with stopArg := (stopArg cmd.stopSrc cmd.stopArg).2 }

/-- Without an error, step 3 has changed no more than the flags of `stop_arg`. -/
theorem fixArgs_dropFlags (h : (fixArgs cmd).1 = false) : (fixArgs cmd).2 = dropFlags cmd := by
  obtain ⟨hstart, hscanBegin, hconvert, hscanEnd, -⟩ := fixArgs_eq_false.mp h
  unfold fixArgs dropFlags
  dsimp only
  rw [(sound_startArg _).kept _ hstart, (sound_scanBeginArg _ _).kept _ hscanBegin, only_snd,
    only_snd, ← hconvert]
  exact congrArg (fun n => { dropFlags cmd with scanEndArg := n }) hscanEnd.symm

theorem fixArgs_fixed (cmd : Cmd) : Fixed (fixArgs cmd).2 where
  start := (sound_startArg cmd.startSrc).done cmd.startArg
  scanBegin := (sound_scanBeginArg cmd.scanBeginSrc cmd.chanlistLen).done cmd.scanBeginArg
  convert := only_snd
  scanEnd := only_snd
  stop := stopArg_done cmd.stopSrc cmd.stopArg

end Fixes

section Accepted

variable {cmd : Cmd} {x : AoTest}

theorem roundArgs_eq_false : (roundArgs x).1 = false ↔
    (x.cmd.scanBeginSrc = trigTimer → x.cmd.scanBeginArg = (roundScan x).cmd.scanBeginArg) := by
  unfold roundArgs
  split
  next htimer =>
    rw [decide_eq_false_iff_not, not_not]
    exact ⟨fun hsame _ => hsame, fun h => h htimer⟩
  next htimer => exact iff_of_true rfl fun h => absurd h htimer

theorem roundScan_cmd (x : AoTest) : (roundScan x).cmd =
    { x.cmd with scanBeginArg := (roundScan x).cmd.scanBeginArg } := by
  unfold roundScan
  split
  · rfl
  · rfl

theorem roundArgs_kept (h : (roundArgs x).1 = false) : (roundArgs x).2.cmd = x.cmd := by
  unfold roundArgs at h ⊢
  split at h
  next htimer =>
    rw [if_pos htimer]
    have hsame := not_not.mp (decide_eq_false_iff_not.mp h)
    rw [roundScan_cmd, ← hsame]
  next htimer => rw [if_neg htimer]

/-- A command that `pci224_ao_cmdtest` accepts. -/
structure Accepted (x : AoTest) : Prop where
  masked : (maskSources x.cmd).1 = false
  sources : ¬ badSources x.cmd
  fixed : Fixed x.cmd
  rounded : x.cmd.scanBeginSrc = trigTimer → x.cmd.scanBeginArg = (roundScan x).cmd.scanBeginArg
  chanlist : badChanlist x.cmd = false

theorem roundScan_dropFlags (x : AoTest) : (roundScan { x with cmd := dropFlags x.cmd }).cmd =
    dropFlags (roundScan x).cmd := by
  by_cases hsingle : single (roundMode x.cmd) x.cmd.scanBeginArg
  · rw [show roundScan x = _ from if_pos hsingle]
    rw [show roundScan { x with cmd := dropFlags x.cmd } = _ from if_pos hsingle]
    rfl
  · rw [show roundScan x = _ from if_neg hsingle]
    rw [show roundScan { x with cmd := dropFlags x.cmd } = _ from if_neg hsingle]
    rfl

theorem roundArgs_dropFlags (x : AoTest) : (roundArgs { x with cmd := dropFlags x.cmd }).1 = false ↔
    (roundArgs x).1 = false := by
  rw [roundArgs_eq_false, roundArgs_eq_false, roundScan_dropFlags]
  rfl

theorem accepted_iff : (pci224AoCmdtest x).1 = 0 ↔ Accepted x := by
  unfold pci224AoCmdtest
  dsimp only
  by_cases hmask : (maskSources x.cmd).1 = true
  · rw [if_pos hmask]
    exact iff_of_false (by decide : ¬ (1 : Int) = 0) fun h => by rw [h.masked] at hmask; cases hmask
  have hmasked : (maskSources x.cmd).2 = x.cmd :=
    RtTimer.cmdtestHelper_ok (Bool.eq_false_iff.mpr hmask)
  rw [if_neg hmask, hmasked]
  by_cases hsrc : badSources x.cmd
  · rw [if_pos hsrc]
    exact iff_of_false (by decide : ¬ (2 : Int) = 0) fun h => h.sources hsrc
  rw [if_neg hsrc]
  by_cases hfix : (fixArgs x.cmd).1 = true
  · rw [if_pos hfix]
    refine iff_of_false (by decide : ¬ (3 : Int) = 0) fun h => ?_
    rw [fixArgs_eq_false.mpr h.fixed] at hfix
    cases hfix
  have hfixed := Bool.eq_false_iff.mpr hfix
  rw [if_neg hfix, fixArgs_dropFlags hfixed]
  by_cases hround : (roundArgs { x with cmd := dropFlags x.cmd }).1 = true
  · rw [if_pos hround]
    refine iff_of_false (by decide : ¬ (4 : Int) = 0) fun h => ?_
    rw [(roundArgs_dropFlags x).mpr (roundArgs_eq_false.mpr h.rounded)] at hround
    cases hround
  have hrounded := Bool.eq_false_iff.mpr hround
  rw [if_neg hround, roundArgs_kept hrounded]
  have hlist : badChanlist (dropFlags x.cmd) = badChanlist x.cmd := rfl
  dsimp only
  rw [hlist]
  by_cases hbad : badChanlist x.cmd = true
  · rw [if_pos hbad]
    refine iff_of_false (by decide : ¬ (5 : Int) = 0) fun h => ?_
    rw [h.chanlist] at hbad
    cases hbad
  rw [if_neg hbad]
  exact iff_of_true rfl ⟨Bool.eq_false_iff.mpr hmask, hsrc, fixArgs_eq_false.mp hfixed,
    roundArgs_eq_false.mp ((roundArgs_dropFlags x).mp hrounded), Bool.eq_false_iff.mpr hbad⟩

/-- An accepted command comes back without the flags that `stop_arg` must not have. -/
theorem accepted_cmd (h : Accepted x) : (pci224AoCmdtest x).2.cmd = dropFlags x.cmd := by
  have hmasked : (maskSources x.cmd).2 = x.cmd := RtTimer.cmdtestHelper_ok h.masked
  have hfix := fixArgs_eq_false.mpr h.fixed
  have hround := (roundArgs_dropFlags x).mpr (roundArgs_eq_false.mpr h.rounded)
  have hlist : badChanlist (dropFlags x.cmd) = false := h.chanlist
  unfold pci224AoCmdtest
  dsimp only
  rw [h.masked, hmasked, if_neg Bool.false_ne_true, if_neg h.sources, hfix,
    if_neg Bool.false_ne_true, fixArgs_dropFlags hfix, hround, if_neg Bool.false_ne_true,
    roundArgs_kept hround]
  dsimp only
  rw [hlist, if_neg Bool.false_ne_true]
  exact roundArgs_kept hround

end Accepted

end Comedi.Pci224Cmdtest
