import Comedi.NiOutputCmds
import Comedi.Retests

namespace Comedi.NiOutputSettles

open ArgFixes NiOutputCmds NiTimer Retests
open FakeWaveform (chanspec)
open NiAiAmends (mode external_again)
open NiTioCmd (cmdfWrite)
open Pci230 (trigExt)
open RtTimer (trigNone trigNow trigTimer trigCount trigInt maskSrc cmdtestHelper)

variable {board : NiBoard} {clockNs irq : U32} {cmd : Cmd}

section AnalogOutput

/-- Each source is a single one that the analog output has. -/
structure AoSupported (cmd : Cmd) : Prop where
  start : cmd.startSrc = trigInt ∨ cmd.startSrc = trigExt
  scanBegin : cmd.scanBeginSrc = trigTimer ∨ cmd.scanBeginSrc = trigExt
  convert : cmd.convertSrc = trigNow
  scanEnd : cmd.scanEndSrc = trigCount
  stop : cmd.stopSrc = trigCount ∨ cmd.stopSrc = trigNone

/-- The update period within its limits. -/
def periodOf (board : NiBoard) (clockNs : U32) (cmd : Cmd) : Nat :=
  clamp board.aoSpeed.toNat (scanMax clockNs) cmd.scanBeginArg.toNat

/-- A period is within the limits after it is rounded, and neither that nor rounding it again
overflows. -/
structure Rounds (board : NiBoard) (clockNs roundMode : U32) (period : Nat) : Prop where
  low : board.aoSpeed.toNat ≤ rounded clockNs roundMode period
  high : rounded clockNs roundMode period ≤ scanMax clockNs
  once : period + slack clockNs roundMode < 2 ^ 32
  again : rounded clockNs roundMode period + slack clockNs roundMode < 2 ^ 32

def AoReaches (board : NiBoard) (clockNs : U32) (cmd : Cmd) : Prop :=
  cmd.scanBeginSrc = trigTimer →
    Rounds board clockNs (mode cmd) (periodOf board clockNs cmd)

theorem flags_setWrite (cmd : Cmd) : (setWrite cmd).flags &&& cmdfWrite ≠ 0 := by
  unfold setWrite
  split
  · have hset : (cmd.flags ||| cmdfWrite) &&& cmdfWrite = cmdfWrite := BitFlags.or_self_and
    dsimp only
    rw [hset]
    decide
  next h => exact h

theorem setWrite_of_flags (h : cmd.flags &&& cmdfWrite ≠ 0) : setWrite cmd = cmd := if_neg h

theorem mode_setWrite (cmd : Cmd) : mode (setWrite cmd) = mode cmd := by
  unfold setWrite
  split
  · exact BitFlags.and_or_of_disjoint (by decide)
  · rfl

/-- Only the flags differ. -/
theorem setWrite_eq (cmd : Cmd) : setWrite cmd = { cmd with flags := (setWrite cmd).flags } := by
  unfold setWrite
  split
  · rfl
  · rfl

theorem sound_aoStartArg (src : U32) : Sound (aoStartArg src) :=
  sound_ite (sound_replace (external_again (by decide) (by decide))) (sound_only 0)

theorem sound_aoStopArg (src : U32) : Sound (aoStopArg src) := by
  refine sound_ite ⟨fun _ => put_kept, fun a => put_eq_false.mpr ?_⟩ (sound_only 0)
  unfold put
  split
  · exact BitVec.lt_irrefl _
  next h => exact h

theorem aoFixArgs_again (h : cmd.scanBeginSrc = trigTimer →
    board.aoSpeed.toNat ≤ scanMax clockNs) :
    (aoFixArgs board clockNs (aoFixArgs board clockNs cmd).2).1 = false := by
  have hscan : Sound (aoScanBeginArg board clockNs cmd.scanBeginSrc) := by
    unfold aoScanBeginArg
    by_cases htimer : cmd.scanBeginSrc = trigTimer
    · simp only [if_pos htimer]
      exact sound_limits (h htimer)
    · simp only [if_neg htimer]
      exact sound_keep
  change ((((aoStartArg _ _).1 || (aoScanBeginArg _ _ _ _).1) || (only _ (only _ _).2).1) ||
    (only _ (only _ _).2).1 || (aoStopArg _ _).1) = false
  simp only [Bool.or_eq_false_iff]
  exact ⟨⟨⟨⟨(sound_aoStartArg _).done _, hscan.done _⟩, (sound_only _).done _⟩,
    (sound_only _).done _⟩, (sound_aoStopArg _).done _⟩

/-- What step 3 of `ni_ao_cmdtest` finds nothing wrong with. -/
structure AoRight (board : NiBoard) (clockNs : U32) (cmd : Cmd) : Prop where
  scan : cmd.scanBeginSrc = trigTimer → board.aoSpeed.toNat ≤ cmd.scanBeginArg.toNat ∧
    cmd.scanBeginArg.toNat ≤ scanMax clockNs
  stop : cmd.stopSrc = trigCount → ¬ 0xffffff < cmd.stopArg

theorem aoRight_of_fixed (h : (aoFixArgs board clockNs cmd).1 = false) :
    AoRight board clockNs cmd := by
  unfold aoFixArgs at h
  simp only [Bool.or_eq_false_iff] at h
  obtain ⟨⟨⟨⟨-, hscan⟩, -⟩, -⟩, hstop⟩ := h
  refine ⟨fun htimer => ?_, fun hcount => ?_⟩
  · unfold aoScanBeginArg at hscan
    rw [if_pos htimer] at hscan
    obtain ⟨hlow, hhigh⟩ := within_eq_false.mp hscan
    exact ⟨Nat.not_lt.mp hlow, Nat.not_lt.mp hhigh⟩
  · unfold aoStopArg at hstop
    rw [if_pos hcount] at hstop
    exact put_eq_false.mp hstop

theorem aoFixArgs_kept (h : (aoFixArgs board clockNs cmd).1 = false) :
    (aoFixArgs board clockNs cmd).2 = cmd := by
  have hscan : ∀ src arg, (aoScanBeginArg board clockNs src arg).1 = false →
      (aoScanBeginArg board clockNs src arg).2 = arg := by
    intro src arg hfalse
    unfold aoScanBeginArg at hfalse ⊢
    split at hfalse
    next htimer =>
      rw [if_pos htimer]
      exact within_kept hfalse
    next htimer => rw [if_neg htimer]
  unfold aoFixArgs at h ⊢
  simp only [Bool.or_eq_false_iff] at h
  obtain ⟨⟨⟨⟨hstart, hbegin⟩, hconvert⟩, hscanEnd⟩, hstop⟩ := h
  dsimp only
  rw [(sound_aoStartArg _).kept _ hstart, hscan _ _ hbegin, (sound_only _).kept _ hconvert,
    (sound_only _).kept _ hscanEnd, (sound_aoStopArg _).kept _ hstop]

theorem aoRoundArgs_kept (h : (aoRoundArgs clockNs cmd).1 = false) :
    (aoRoundArgs clockNs cmd).2 = cmd := by
  have heq := not_not.mp (of_decide_eq_false h)
  unfold aoRoundArgs
  dsimp only
  rw [← heq]

/-- A command that passes the test but for the flag that the test sets. -/
structure AoPassed (board : NiBoard) (clockNs : U32) (cmd : Cmd) : Prop where
  fixed : (aoFixArgs board clockNs cmd).1 = false
  rounded : (aoRoundArgs clockNs cmd).1 = false

theorem AoPassed.scan_eq (h : AoPassed board clockNs cmd) (htimer : cmd.scanBeginSrc = trigTimer) :
    roundNs clockNs cmd.scanBeginArg (mode cmd) = cmd.scanBeginArg := by
  have heq := not_not.mp (of_decide_eq_false h.rounded)
  rw [if_pos htimer] at heq
  exact heq.symm

/-- Whatever its sources, an accepted command passes, and is given back with `CMDF_WRITE` set. -/
theorem ao_accepted (h : (niAoCmdtest board clockNs cmd).1 = 0) :
    AoPassed board clockNs (setWrite cmd) ∧ (niAoCmdtest board clockNs cmd).2 = setWrite cmd := by
  unfold niAoCmdtest at h ⊢
  dsimp only at h ⊢
  split at h
  · exact absurd h (by decide : ¬ (1 : Int) = 0)
  next hmask =>
    have hkept : (aoMaskSources (setWrite cmd)).2 = setWrite cmd :=
      RtTimer.cmdtestHelper_ok (Bool.eq_false_iff.mpr hmask)
    rw [if_neg hmask]
    rw [hkept] at h ⊢
    split at h
    · exact absurd h (by decide : ¬ (2 : Int) = 0)
    next hstop =>
      rw [if_neg hstop]
      split at h
      · exact absurd h (by decide : ¬ (3 : Int) = 0)
      next hfix =>
        have hfalse := Bool.eq_false_iff.mpr hfix
        rw [aoFixArgs_kept hfalse] at h ⊢
        rw [if_neg hfix]
        split at h
        · exact absurd h (by decide : ¬ (4 : Int) = 0)
        next hround =>
          have hround' := Bool.eq_false_iff.mpr hround
          exact ⟨⟨hfalse, hround'⟩, aoRoundArgs_kept hround'⟩

theorem AoSupported.setWrite (h : AoSupported cmd) : AoSupported (setWrite cmd) := by
  rw [setWrite_eq]
  exact ⟨h.start, h.scanBegin, h.convert, h.scanEnd, h.stop⟩

theorem AoSupported.masked (h : AoSupported cmd) : aoMaskSources cmd = (false, cmd) := by
  have hstart : maskSrc cmd.startSrc (trigInt ||| trigExt) = (cmd.startSrc, false) := by
    rcases h.start with hsrc | hsrc <;> rw [hsrc] <;> decide
  have hscanBegin : maskSrc cmd.scanBeginSrc (trigTimer ||| trigExt) =
      (cmd.scanBeginSrc, false) := by
    rcases h.scanBegin with hsrc | hsrc <;> rw [hsrc] <;> decide
  have hconvert : maskSrc cmd.convertSrc trigNow = (cmd.convertSrc, false) := by
    rw [h.convert]
    decide
  have hscanEnd : maskSrc cmd.scanEndSrc trigCount = (cmd.scanEndSrc, false) := by
    rw [h.scanEnd]
    decide
  have hstop : maskSrc cmd.stopSrc (trigCount ||| trigNone) = (cmd.stopSrc, false) := by
    rcases h.stop with hsrc | hsrc <;> rw [hsrc] <;> decide
  unfold aoMaskSources cmdtestHelper
  dsimp only
  rw [hstart, hscanBegin, hconvert, hscanEnd, hstop]
  rfl

theorem niAoCmdtest_eq (h : AoSupported cmd) : niAoCmdtest board clockNs cmd =
    if (aoFixArgs board clockNs (setWrite cmd)).1 then
      (3, (aoFixArgs board clockNs (setWrite cmd)).2)
    else (if (aoRoundArgs clockNs (setWrite cmd)).1 then 4 else 0,
      (aoRoundArgs clockNs (setWrite cmd)).2) := by
  have hstop : ¬ ((setWrite cmd).stopSrc ≠ trigCount ∧ (setWrite cmd).stopSrc ≠ trigNone) :=
    fun hbad => h.setWrite.stop.elim hbad.1 hbad.2
  unfold niAoCmdtest
  rw [h.setWrite.masked]
  dsimp only
  rw [if_neg Bool.false_ne_true, if_neg hstop]
  split
  · rfl
  next hfix => rw [aoFixArgs_kept (Bool.eq_false_iff.mpr hfix)]

theorem aoFixArgs_scan (h : cmd.scanBeginSrc = trigTimer) :
    (aoFixArgs board clockNs cmd).2.scanBeginArg.toNat = periodOf board clockNs cmd := by
  change BitVec.toNat (aoScanBeginArg board clockNs cmd.scanBeginSrc cmd.scanBeginArg).2 = _
  unfold aoScanBeginArg
  rw [if_pos h]
  exact within_snd (fun _ _ => BitVec.lt_def.symm) _ _ _

theorem periodOf_aoFixArgs (h : cmd.scanBeginSrc = trigTimer) :
    periodOf board clockNs (aoFixArgs board clockNs cmd).2 = periodOf board clockNs cmd := by
  unfold periodOf
  rw [aoFixArgs_scan h]
  exact clamp_clamp

theorem aoReaches_aoFixArgs :
    AoReaches board clockNs (aoFixArgs board clockNs cmd).2 ↔ AoReaches board clockNs cmd := by
  refine forall_congr' fun htimer => ?_
  rw [@periodOf_aoFixArgs board clockNs cmd htimer]
  rfl

theorem aoReaches_setWrite :
    AoReaches board clockNs (setWrite cmd) ↔ AoReaches board clockNs cmd := by
  unfold AoReaches periodOf
  rw [mode_setWrite, setWrite_eq]

section Clock

variable (hclock : 0 < clockNs.toNat)

include hclock

theorem aoRoundArgs_scan (hfix : (aoFixArgs board clockNs cmd).1 = false)
    (htimer : cmd.scanBeginSrc = trigTimer)
    (honce : periodOf board clockNs cmd + slack clockNs (mode cmd) < 2 ^ 32) :
    (aoRoundArgs clockNs cmd).2.scanBeginArg.toNat =
      rounded clockNs (mode cmd) (periodOf board clockNs cmd) := by
  obtain ⟨hlow, hhigh⟩ := (aoRight_of_fixed hfix).scan htimer
  unfold periodOf at honce ⊢
  rw [clamp_of_mem hlow hhigh] at honce ⊢
  change BitVec.toNat (if _ then _ else _) = _
  rw [if_pos htimer]
  exact roundNs_eq hclock honce

theorem aoRoundArgs_passed (hfix : (aoFixArgs board clockNs cmd).1 = false)
    (hreach : AoReaches board clockNs cmd) :
    AoPassed board clockNs (aoRoundArgs clockNs cmd).2 := by
  by_cases htimer : cmd.scanBeginSrc = trigTimer
  · obtain ⟨hlow, hhigh, honce, hagain⟩ := hreach htimer
    have hscan := aoRoundArgs_scan hclock hfix htimer honce
    rw [← hscan] at hlow hhigh hagain
    constructor
    · have hargs := hfix
      unfold aoFixArgs at hargs ⊢
      simp only [Bool.or_eq_false_iff] at hargs ⊢
      obtain ⟨⟨⟨⟨hstart, -⟩, hconvert⟩, hscanEnd⟩, hstop⟩ := hargs
      refine ⟨⟨⟨⟨hstart, ?_⟩, hconvert⟩, hscanEnd⟩, hstop⟩
      unfold aoScanBeginArg
      rw [if_pos (show (aoRoundArgs clockNs cmd).2.scanBeginSrc = _ from htimer)]
      exact within_eq_false.mpr ⟨Nat.not_lt.mpr hlow, Nat.not_lt.mpr hhigh⟩
    · refine decide_eq_false (not_not.mpr ?_)
      rw [if_pos (show (aoRoundArgs clockNs cmd).2.scanBeginSrc = _ from htimer)]
      refine BitVec.eq_of_toNat_eq ?_
      have hround := roundNs_eq hclock hagain
      rw [rounded_of_dvd hclock (hscan ▸ Nat.dvd_mul_left _ _)] at hround
      exact hround.symm
  · have hsame : (aoRoundArgs clockNs cmd).2 = cmd := by
      unfold aoRoundArgs
      dsimp only
      rw [if_neg htimer]
    rw [hsame]
    refine ⟨hfix, decide_eq_false (not_not.mpr ?_)⟩
    rw [if_neg htimer]

theorem aoStages : Stages (niAoCmdtest board clockNs)
    (fun cmd => aoFixArgs board clockNs (setWrite cmd))
    (fun cmd => aoRoundArgs clockNs (setWrite cmd)) AoSupported (fun _ => True)
    (AoReaches board clockNs) where
  test_eq _ h := niAoCmdtest_eq h
  ok_fix _ h := ⟨h.setWrite.start, h.setWrite.scanBegin, h.setWrite.convert, h.setWrite.scanEnd,
    h.setWrite.stop⟩
  ok_round _ h := ⟨h.setWrite.start, h.setWrite.scanBegin, h.setWrite.convert, h.setWrite.scanEnd,
    h.setWrite.stop⟩
  reach_fix _ _ hreach := aoReaches_aoFixArgs.mpr (aoReaches_setWrite.mpr hreach)
  fixed cmd _ hreach := by
    have hreach' := aoReaches_setWrite.mpr hreach
    rw [@setWrite_of_flags (aoFixArgs board clockNs (setWrite cmd)).2 (flags_setWrite cmd)]
    exact aoFixArgs_again fun htimer => (hreach' htimer).low.trans (hreach' htimer).high
  rounded cmd _ hfix hreach := by
    have hpassed := aoRoundArgs_passed hclock hfix (aoReaches_setWrite.mpr hreach)
    rw [@setWrite_of_flags (aoRoundArgs clockNs (setWrite cmd)).2 (flags_setWrite cmd)]
    exact ⟨hpassed.fixed, hpassed.rounded, trivial⟩

section Fits

variable (hfits : scanMax clockNs + clockNs.toNat ≤ 2 ^ 32)

include hfits

theorem rounds_of_fits {roundMode : U32} {period : Nat} (hperiod : period ≤ scanMax clockNs)
    (hlow : board.aoSpeed.toNat ≤ rounded clockNs roundMode period)
    (hhigh : rounded clockNs roundMode period ≤ scanMax clockNs) :
    Rounds board clockNs roundMode period := by
  have hslack := slack_lt hclock roundMode
  exact ⟨hlow, hhigh, by omega, by omega⟩

theorem aoReaches_of_round (hfix : (aoFixArgs board clockNs cmd).1 = false)
    (hreach : AoReaches board clockNs (aoRoundArgs clockNs cmd).2) :
    AoReaches board clockNs cmd := by
  intro htimer
  have hrounds := hreach htimer
  obtain ⟨hlow, hhigh⟩ := (aoRight_of_fixed hfix).scan htimer
  have hslack := slack_lt hclock (mode cmd)
  have hle : periodOf board clockNs cmd ≤ scanMax clockNs := clamp_le _ _ _
  have hmem : periodOf board clockNs cmd = cmd.scanBeginArg.toNat := clamp_of_mem hlow hhigh
  have hscan := aoRoundArgs_scan hclock hfix htimer (by omega)
  rw [hmem] at hscan
  have heq := Tested.round_clamp rounded_mono (rounded_rounded hclock) (.inr ⟨hmem, hscan⟩)
    hrounds.low hrounds.high
  refine rounds_of_fits hclock hfits hle ?_ ?_
  · exact hrounds.low.trans_eq heq.symm
  · exact heq.trans_le hrounds.high

theorem aoReaches_of_passed (h : AoPassed board clockNs cmd) : AoReaches board clockNs cmd := by
  intro htimer
  obtain ⟨hlow, hhigh⟩ := (aoRight_of_fixed h.fixed).scan htimer
  have hdvd := dvd_roundNs hclock cmd.scanBeginArg (mode cmd)
  rw [h.scan_eq htimer] at hdvd
  have hround : rounded clockNs (mode cmd) (periodOf board clockNs cmd) =
      cmd.scanBeginArg.toNat := by
    unfold periodOf
    rw [clamp_of_mem hlow hhigh]
    exact rounded_of_dvd hclock hdvd
  exact rounds_of_fits hclock hfits (clamp_le _ _ _) (hlow.trans_eq hround.symm)
    (hround.trans_le hhigh)

theorem aoTight : Tight (fun cmd => aoFixArgs board clockNs (setWrite cmd))
    (fun cmd => aoRoundArgs clockNs (setWrite cmd)) AoSupported (fun _ => True)
    (AoReaches board clockNs) where
  reach_of_fix _ _ hreach := aoReaches_setWrite.mp (aoReaches_aoFixArgs.mp hreach)
  reach_of_round _ _ hfix hreach :=
    aoReaches_setWrite.mp (aoReaches_of_round hclock hfits hfix hreach)
  reach_of_passed _ _ hfix hround _ :=
    aoReaches_setWrite.mp (aoReaches_of_passed hclock hfits ⟨hfix, hround⟩)

end Fits

end Clock

/-- The command is carried out, every value fits the 24 bits of its counter, and the one that UC
is reloaded with counts `updates`. -/
def Exact (updates : U32) : Outcome → Prop
  | .refused _ => True
  | .bug => False
  | .loaded uc ui => (∀ value ∈ uc ++ ui, value.toNat < 2 ^ 24) ∧
      ∃ value, uc.getLast? = some value ∧ value.toNat + 1 = updates.toNat

/-- There is an update to count, the sources are single ones, and the update period is not zero and
does not overflow when it is rounded to the nearest. -/
structure Countable (clockNs : U32) (cmd : Cmd) : Prop where
  stop : cmd.stopArg ≠ 0
  start : cmd.startSrc = trigInt ∨ cmd.startSrc = trigNow ∨ cmd.startSrc = trigExt
  scanBegin : cmd.scanBeginSrc = trigTimer ∨ cmd.scanBeginSrc = trigExt
  period : cmd.scanBeginSrc = trigTimer →
    cmd.scanBeginArg ≠ 0 ∧ cmd.scanBeginArg.toNat + clockNs.toNat / 2 < 2 ^ 32

theorem pred_toNat {x : U32} (h : x ≠ 0) : (x - 1).toNat + 1 = x.toNat := by
  have hx : x.toNat ≠ 0 := fun hzero => h (BitVec.eq_of_toNat_eq hzero)
  have hlt := x.isLt
  have hone : (1 : U32).toNat = 1 := rfl
  rw [BitVec.toNat_sub, hone]
  omega

/-- UC counts the updates unless there is none. -/
theorem uc_exact_iff (hcount : cmd.stopSrc = trigCount) (hmost : ¬ 0xffffff < cmd.stopArg) :
    ((∀ value ∈ ucLoads board cmd, value.toNat < 2 ^ 24) ∧
      ∃ value, (ucLoads board cmd).getLast? = some value ∧ value.toNat + 1 = cmd.stopArg.toNat) ↔
      cmd.stopArg ≠ 0 := by
  have hmost' : cmd.stopArg.toNat ≤ 0xffffff := Nat.not_lt.mp hmost
  have hlast : (ucLoads board cmd).getLast? = some (cmd.stopArg - 1) := by
    unfold ucLoads
    rw [if_pos hcount]
    split
    · rfl
    · rfl
  have hmem : ∀ value ∈ ucLoads board cmd, value = cmd.stopArg ∨ value = cmd.stopArg - 1 := by
    intro value hvalue
    unfold ucLoads at hvalue
    rw [if_pos hcount] at hvalue
    split at hvalue
    · exact .inr (List.mem_singleton.mp hvalue)
    · exact List.mem_pair.mp hvalue
  constructor
  · rintro ⟨-, value, hvalue, hsum⟩ hzero
    rw [hlast] at hvalue
    cases hvalue
    rw [hzero] at hsum
    exact absurd hsum (by decide)
  · intro hne
    have hpred := pred_toNat hne
    refine ⟨fun value hvalue => ?_, cmd.stopArg - 1, hlast, hpred⟩
    rcases hmem value hvalue with rfl | rfl
    · omega
    · omega

theorem exact_loaded_iff {updates : U32} {uc ui : List U32} :
    Exact updates (.loaded uc ui) ↔ ((∀ value ∈ uc, value.toNat < 2 ^ 24) ∧
      ∃ value, uc.getLast? = some value ∧ value.toNat + 1 = updates.toNat) ∧
      ∀ value ∈ ui, value.toNat < 2 ^ 24 := by
  unfold Exact
  dsimp only
  rw [List.forall_mem_append]
  exact and_right_comm

theorem exact_iff (hclock : 0 < clockNs.toNat) (hirq : irq ≠ 0)
    (h : AoPassed board clockNs cmd) (hcount : cmd.stopSrc = trigCount) :
    Exact cmd.stopArg (niAoCmd board clockNs irq cmd) ↔ Countable clockNs cmd := by
  have hright := aoRight_of_fixed h.fixed
  have huc := @uc_exact_iff board cmd hcount (hright.stop hcount)
  unfold niAoCmd
  rw [if_neg hirq]
  split
  next hstart =>
    exact iff_of_false id fun hc => hc.start.elim hstart.1 (·.elim hstart.2.1 hstart.2.2)
  next hstart =>
    have hsrc : cmd.startSrc = trigInt ∨ cmd.startSrc = trigNow ∨ cmd.startSrc = trigExt := by
      by_contra hnone
      exact hstart (by simpa only [not_or] using hnone)
    split
    next htimer =>
      have hscan := hright.scan htimer
      have hdvd := dvd_roundNs hclock cmd.scanBeginArg (mode cmd)
      rw [h.scan_eq htimer] at hdvd
      have hle := hscan.2.trans (scanMax_le clockNs)
      have htick := @timer_lt_iff clockNs ConfigRetry.trigRoundNearest hclock cmd.scanBeginArg
        (2 ^ 24) hdvd (hle.trans (Nat.mul_le_mul_left _ (by decide))) (by decide)
      rw [slack_nearest] at htick
      have hone : (1 : U32).toNat < 2 ^ 24 := by decide
      rw [exact_loaded_iff, huc, List.forall_mem_cons, List.forall_mem_singleton, htick]
      exact ⟨fun hall => ⟨hall.1, hsrc, .inl htimer, fun _ => hall.2.2⟩,
        fun hc => ⟨hc.stop, hone, hc.period htimer⟩⟩
    next htimer =>
      split
      next hext =>
        rw [exact_loaded_iff, huc]
        exact ⟨fun hall => ⟨hall.1, hsrc, .inr hext, fun hyes => absurd hyes htimer⟩,
          fun hc => ⟨hc.stop, nofun⟩⟩
      next hext => exact iff_of_false id fun hc => hc.scanBegin.elim htimer hext

end AnalogOutput

section DigitalOutput

/-- Each source is a single one that the digital output has, and the channels are in order. -/
structure CdioSupported (cmd : Cmd) : Prop where
  start : cmd.startSrc = trigInt
  scanBegin : cmd.scanBeginSrc = trigExt
  convert : cmd.convertSrc = trigNow
  scanEnd : cmd.scanEndSrc = trigCount
  stop : cmd.stopSrc = trigNone
  chanlist : ∀ i < cmd.chanlistLen.toNat, chanspec cmd i = BitVec.ofNat 32 i

theorem CdioSupported.masked (h : CdioSupported cmd) : cdioMaskSources cmd = (false, cmd) := by
  have hstart : maskSrc cmd.startSrc trigInt = (cmd.startSrc, false) := by
    rw [h.start]
    decide
  have hscanBegin : maskSrc cmd.scanBeginSrc trigExt = (cmd.scanBeginSrc, false) := by
    rw [h.scanBegin]
    decide
  have hconvert : maskSrc cmd.convertSrc trigNow = (cmd.convertSrc, false) := by
    rw [h.convert]
    decide
  have hscanEnd : maskSrc cmd.scanEndSrc trigCount = (cmd.scanEndSrc, false) := by
    rw [h.scanEnd]
    decide
  have hstop : maskSrc cmd.stopSrc trigNone = (cmd.stopSrc, false) := by
    rw [h.stop]
    decide
  unfold cdioMaskSources cmdtestHelper
  dsimp only
  rw [hstart, hscanBegin, hconvert, hscanEnd, hstop]
  rfl

theorem CdioSupported.fixArgs (h : CdioSupported cmd) : CdioSupported (cdioFixArgs cmd).2 :=
  ⟨h.start, h.scanBegin, h.convert, h.scanEnd, h.stop, h.chanlist⟩

theorem cdioFixArgs_kept (h : (cdioFixArgs cmd).1 = false) : (cdioFixArgs cmd).2 = cmd := by
  unfold cdioFixArgs at h ⊢
  simp only [Bool.or_eq_false_iff] at h
  obtain ⟨⟨⟨⟨hstart, -⟩, hconvert⟩, hscanEnd⟩, hstop⟩ := h
  dsimp only
  rw [(sound_only _).kept _ hstart, (sound_only _).kept _ hconvert, (sound_only _).kept _ hscanEnd,
    (sound_only _).kept _ hstop]

/-- The external source of the updates has only bits that the digital output has. -/
def CdioReaches (cmd : Cmd) : Prop := cmd.scanBeginArg &&& cdioSourceMask = cmd.scanBeginArg

theorem cdioReaches_of_fixed (h : (cdioFixArgs cmd).1 = false) : CdioReaches cmd := by
  unfold cdioFixArgs at h
  simp only [Bool.or_eq_false_iff] at h
  have hkept : ¬ (cmd.scanBeginArg &&& cdioSourceMask ≠ cmd.scanBeginArg) :=
    of_decide_eq_false h.1.1.1.2
  exact not_not.mp hkept

theorem cdioFixArgs_again (h : CdioReaches cmd) : (cdioFixArgs (cdioFixArgs cmd).2).1 = false := by
  have hkeep : decide (cmd.scanBeginArg &&& cdioSourceMask ≠ cmd.scanBeginArg) = false :=
    decide_eq_false fun hne => hne h
  change ((((only _ (only _ _).2).1 || decide (cmd.scanBeginArg &&& _ ≠ cmd.scanBeginArg)) ||
    (only _ (only _ _).2).1) || (only _ (only _ _).2).1 || (only _ (only _ _).2).1) = false
  simp only [Bool.or_eq_false_iff]
  exact ⟨⟨⟨⟨(sound_only _).done _, hkeep⟩, (sound_only _).done _⟩,
    (sound_only _).done _⟩, (sound_only _).done _⟩

theorem niCdioCmdtest_eq (h : CdioSupported cmd) : niCdioCmdtest cmd =
    if (cdioFixArgs cmd).1 then (3, (cdioFixArgs cmd).2) else (0, cmd) := by
  have hsources : ¬ cdioBadSources cmd := by
    rintro (hbad | hbad | hbad | hbad)
    · exact hbad h.start
    · exact hbad h.scanBegin
    · exact hbad h.convert
    · exact hbad h.stop
  have hchanlist : ¬ cdioBadChanlist cmd := fun ⟨i, hi, hne⟩ => hne (h.chanlist i hi)
  unfold niCdioCmdtest
  rw [h.masked]
  dsimp only
  rw [if_neg Bool.false_ne_true, if_neg hsources]
  split
  · rfl
  next hfix =>
    rw [cdioFixArgs_kept (Bool.eq_false_iff.mpr hfix), if_neg hchanlist]

theorem cdioStages : Stages niCdioCmdtest cdioFixArgs (fun cmd => (false, cmd)) CdioSupported
    (fun _ => True) CdioReaches where
  test_eq _ h := niCdioCmdtest_eq h
  ok_fix _ h := h.fixArgs
  ok_round _ h := h
  reach_fix _ _ hreach := hreach
  fixed _ _ hreach := cdioFixArgs_again hreach
  rounded _ _ hfix _ := ⟨hfix, rfl, trivial⟩

theorem cdioTight : Tight cdioFixArgs (fun cmd => (false, cmd)) CdioSupported (fun _ => True)
    CdioReaches where
  reach_of_fix _ _ hreach := hreach
  reach_of_round _ _ _ hreach := hreach
  reach_of_passed _ _ hfix _ _ := cdioReaches_of_fixed hfix

end DigitalOutput

theorem countable_setWrite : Countable clockNs (setWrite cmd) ↔ Countable clockNs cmd := by
  rw [setWrite_eq]
  exact ⟨fun h => ⟨h.1, h.2, h.3, h.4⟩, fun h => ⟨h.1, h.2, h.3, h.4⟩⟩

/-- When the output commands that are accepted run for their length, and when those that are not
can be put right by testing them again. -/
theorem output_commands (hclock : 0 < clockNs.toNat) (hirq : irq ≠ 0) :
    (∀ cmd, (niAoCmdtest board clockNs cmd).1 = 0 → cmd.stopSrc = trigCount →
      (Exact cmd.stopArg (niAoCmd board clockNs irq (niAoCmdtest board clockNs cmd).2) ↔
        Countable clockNs cmd)) ∧
    (∀ cmd, AoSupported cmd →
      (AoReaches board clockNs cmd →
        Settles (niAoCmdtest board clockNs) (fun _ => True) 5 cmd) ∧
      (scanMax clockNs + clockNs.toNat ≤ 2 ^ 32 →
        Settles (niAoCmdtest board clockNs) (fun _ => True) 5 cmd →
        AoReaches board clockNs cmd)) ∧
    ∀ cmd, CdioSupported cmd →
      (Settles niCdioCmdtest (fun _ => True) 5 cmd ↔ CdioReaches cmd) := by
  refine ⟨fun cmd hret hcount => ?_, fun cmd h => ⟨fun hreach => ?_, fun hfits hsettles => ?_⟩,
    fun cmd h => cdioStages.settles_iff_reach cdioTight h (by omega)⟩
  · obtain ⟨hpassed, hsnd⟩ := ao_accepted hret
    have hsame : (setWrite cmd).stopSrc = cmd.stopSrc ∧ (setWrite cmd).stopArg = cmd.stopArg := by
      rw [setWrite_eq]
      exact ⟨rfl, rfl⟩
    rw [hsnd, ← countable_setWrite, ← hsame.2]
    exact exact_iff hclock hirq hpassed (hsame.1.trans hcount)
  · exact ((aoStages hclock).settles_of_reach h hreach).mono (by omega)
  · exact ((aoStages hclock).settles_iff_reach (aoTight hclock hfits) h (by omega)).mp hsettles

def pci6259 : NiBoard := { regType := 0x10, aoSpeed := 350 }

def waveform : Cmd :=
  { startSrc := trigInt, scanBeginSrc := trigTimer, scanBeginArg := 1250, convertSrc := trigNow
    scanEndSrc := trigCount, scanEndArg := 2, stopSrc := trigCount, stopArg := 1000
    chanlist := .kernel [0, 1], chanlistLen := 2 }

def pattern (scanBeginArg : U32) : Cmd :=
  { startSrc := trigInt, scanBeginSrc := trigExt, scanBeginArg, convertSrc := trigNow
    scanEndSrc := trigCount, stopSrc := trigNone, chanlist := .kernel [0, 1], chanlistLen := 2 }

/-- A thousand updates of two channels, a period that is rounded, and a digital pattern. -/
theorem output_commands_run :
    Exact 1000 (niAoCmd pci6259 50 5 (niAoCmdtest pci6259 50 waveform).2) ∧
      Settles (niAoCmdtest pci6259 50) (fun _ => True) 5 { waveform with scanBeginArg := 333 } ∧
      Settles niCdioCmdtest (fun _ => True) 5 (pattern 0x80000005) := by
  obtain ⟨hexact, hao, hcdio⟩ := @output_commands pci6259 50 5 (by decide) (by decide)
  refine ⟨(hexact waveform (by decide +kernel) rfl).mpr
      ⟨by decide, by decide, by decide, by decide⟩,
    (hao _ ⟨by decide, by decide, by decide, by decide, by decide⟩).1 fun _ => ⟨by decide,
      by decide, by decide, by decide⟩,
    (hcdio _ ⟨rfl, rfl, rfl, rfl, rfl, by decide⟩).mpr (by unfold CdioReaches; decide)⟩

/-- No update at all is accepted and makes UC count all its bits; two start sources are accepted
and come upon a `BUG()`; a digital source that does not exist is never replaced. -/
theorem output_commands_fail :
    (niAoCmdtest pci6259 50 { waveform with stopArg := 0 }).1 = 0 ∧
      niAoCmd pci6259 50 5 { waveform with stopArg := 0 } = .loaded [0xffffffff] [1, 24] ∧
      (niAoCmdtest pci6259 50 { waveform with startSrc := trigInt ||| trigExt }).1 = 0 ∧
      niAoCmd pci6259 50 5 { waveform with startSrc := trigInt ||| trigExt } = .bug ∧
      ¬ Settles niCdioCmdtest (fun _ => True) 5 (pattern 0x40) := by
  refine ⟨by decide +kernel, rfl, by decide +kernel, rfl, ?_⟩
  rintro ⟨k, hk, hret, -⟩
  have hnone : ∀ k < 5, (niCdioCmdtest (again niCdioCmdtest k (pattern 0x40))).1 ≠ 0 := by
    decide +kernel
  exact hnone k hk hret

end Comedi.NiOutputSettles
