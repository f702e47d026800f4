import Comedi.BitFlags
import Comedi.NiAiCmdtest

namespace Comedi.NiAiAmends

open ArgFixes ChanlistCheck NiAiCmdtest NiTimer
open I8253 (trigRoundMask)
open NiTioCmd (cmdfWrite)
open Pci230 (trigExt)
open RtTimer (trigNone trigNow trigTimer trigCount trigInt maskSrc cmdtestHelper)

/-- Each source is a single one that the board has. -/
structure Supported (board : NiBoard) (cmd : Cmd) : Prop where
  start : cmd.startSrc = trigNow ∨ cmd.startSrc = trigInt ∨ cmd.startSrc = trigExt
  scanBegin : cmd.scanBeginSrc = trigTimer ∨ cmd.scanBeginSrc = trigExt
  convert : cmd.convertSrc = trigTimer ∨ cmd.convertSrc = trigExt ∨
    cmd.convertSrc = trigNow ∧ simultaneous board
  scanEnd : cmd.scanEndSrc = trigCount
  stop : cmd.stopSrc = trigCount ∨ cmd.stopSrc = trigNone

def mode (cmd : Cmd) : U32 := cmd.flags &&& trigRoundMask

/-- A period within the limits can be rounded up without overflow. -/
structure ClockFits (clockNs : U32) : Prop where
  scan : scanMax clockNs + clockNs.toNat ≤ 2 ^ 32
  convert : convertMax clockNs + clockNs.toNat ≤ 2 ^ 32

section Periods

variable (board : NiBoard) (clockNs : U32) (cmd : Cmd)

/-- The least scan period, without overflow. -/
def least : Nat :=
  if simultaneous board then board.aiSpeed.toNat
  else board.aiSpeed.toNat * cmd.chanlistLen.toNat

/-- The convert period within its limits, rounded. -/
def convertOf : Nat :=
  rounded clockNs (mode cmd) (clamp board.aiSpeed.toNat (convertMax clockNs) cmd.convertArg.toNat)

/-- The scan period within its limits, rounded and made long enough for the conversions. -/
def scanOf : Nat :=
  let scan := rounded clockNs (mode cmd)
    (clamp (least board cmd) (scanMax clockNs) cmd.scanBeginArg.toNat)
  if paced board cmd then max scan (convertOf board clockNs cmd * cmd.chanlistLen.toNat) else scan

/-- The periods that are rounded are within the limits. -/
structure Reaches : Prop where
  convert : paced board cmd → board.aiSpeed.toNat ≤ convertOf board clockNs cmd ∧
    convertOf board clockNs cmd ≤ convertMax clockNs
  scan : cmd.scanBeginSrc = trigTimer → least board cmd ≤ scanOf board clockNs cmd ∧
    scanOf board clockNs cmd ≤ scanMax clockNs

/-- The counters can time the periods of a timed command. -/
structure Countable : Prop where
  scan_max : cmd.scanBeginSrc = trigTimer → cmd.scanBeginArg.toNat ≤ clockNs.toNat * 0xffffff
  scan_dvd : cmd.scanBeginSrc = trigTimer → clockNs.toNat ∣ cmd.scanBeginArg.toNat
  convert_max : cmd.convertSrc = trigTimer → cmd.convertArg.toNat ≤ clockNs.toNat * 0xffff
  convert_dvd : cmd.convertSrc = trigTimer → clockNs.toNat ∣ cmd.convertArg.toNat

/-- The periods of a timed command are ones that the board can keep. -/
structure Bounds : Prop extends Countable clockNs cmd where
  scan_min : cmd.scanBeginSrc = trigTimer → least board cmd ≤ cmd.scanBeginArg.toNat
  convert_fits : cmd.scanBeginSrc = trigTimer → cmd.convertSrc = trigTimer →
    cmd.convertArg.toNat * cmd.scanEndArg.toNat ≤ cmd.scanBeginArg.toNat

/-- The products that the test forms do not overflow. -/
structure Narrow : Prop where
  scan : cmd.scanBeginSrc = trigTimer → least board cmd < 2 ^ 32
  convert : cmd.scanBeginSrc = trigTimer → cmd.convertSrc = trigTimer →
    cmd.convertArg.toNat * cmd.scanEndArg.toNat < 2 ^ 32

end Periods

variable {board : NiBoard} {clockNs : U32} {cmd : Cmd}

section Steps

theorem clearWrite_eq (cmd : Cmd) :
    clearWrite cmd = { cmd with flags := cmd.flags &&& ~~~cmdfWrite } := by
  unfold clearWrite
  split
  · rfl
  next h =>
    rw [BitFlags.clear_absent (not_not.mp h)]

theorem flags_clearWrite (cmd : Cmd) : (clearWrite cmd).flags &&& cmdfWrite = 0 := by
  rw [clearWrite_eq]
  exact BitFlags.cleared (BitVec.and_not_self _)

theorem clearWrite_of_flags (h : cmd.flags &&& cmdfWrite = 0) : clearWrite cmd = cmd :=
  if_neg (not_not.mpr h)

theorem mode_clearWrite (cmd : Cmd) : mode (clearWrite cmd) = mode cmd := by
  rw [clearWrite_eq]
  exact BitFlags.clear_keeps (by decide)

theorem Supported.masked (h : Supported board cmd) : maskSources board cmd = (false, cmd) := by
  have hstart : maskSrc cmd.startSrc (trigNow ||| trigInt ||| trigExt) = (cmd.startSrc, false) := by
    rcases h.start with hsrc | hsrc | hsrc <;> rw [hsrc] <;> decide
  have hscanBegin : maskSrc cmd.scanBeginSrc (trigTimer ||| trigExt) =
      (cmd.scanBeginSrc, false) := by
    rcases h.scanBegin with hsrc | hsrc <;> rw [hsrc] <;> decide
  have hconvert : maskSrc cmd.convertSrc (if simultaneous board then
      trigTimer ||| trigExt ||| trigNow else trigTimer ||| trigExt) = (cmd.convertSrc, false) := by
    by_cases hsim : simultaneous board
    · rw [if_pos hsim]
      rcases h.convert with hsrc | hsrc | ⟨hsrc, -⟩ <;> rw [hsrc] <;> decide
    · rw [if_neg hsim]
      rcases h.convert with hsrc | hsrc | ⟨-, hyes⟩
      · rw [hsrc]
        decide
      · rw [hsrc]
        decide
      · exact absurd hyes hsim
  have hscanEnd : maskSrc cmd.scanEndSrc trigCount = (cmd.scanEndSrc, false) := by
    rw [h.scanEnd]
    decide
  have hstop : maskSrc cmd.stopSrc (trigCount ||| trigNone) = (cmd.stopSrc, false) := by
    rcases h.stop with hsrc | hsrc <;> rw [hsrc] <;> decide
  unfold maskSources cmdtestHelper
  dsimp only
  rw [hstart, hscanBegin, hconvert, hscanEnd, hstop]
  rfl

theorem Supported.sources (h : Supported board cmd) : ¬ badSources cmd := by
  unfold badSources
  rintro (⟨hnow, hint, hext⟩ | ⟨htimer, hext, -⟩ | ⟨htimer, hext, hnow⟩ | ⟨hcount, hnone⟩)
  · exact h.start.elim hnow (·.elim hint hext)
  · exact h.scanBegin.elim htimer hext
  · exact h.convert.elim htimer (·.elim hext fun hsrc => hnow hsrc.1)
  · exact h.stop.elim hcount hnone

theorem Supported.clearWrite (h : Supported board cmd) : Supported board (clearWrite cmd) := by
  rw [clearWrite_eq]
  exact ⟨h.start, h.scanBegin, h.convert, h.scanEnd, h.stop⟩

theorem external_again {last flags : U32} (hflags : (0xffff : U32) &&& flags = 0)
    (hlast : last &&& 0xffff = last) (arg : U32) :
    external last flags (external last flags arg) = external last flags arg := by
  have hchan : ∀ m : U32, m &&& 0xffff = m → crChan (m ||| arg &&& flags) = m := by
    intro m hm
    have hnone : arg &&& flags &&& 0xffff = 0 := by
      rw [BitVec.and_assoc, BitVec.and_comm flags, hflags]
      exact BitVec.and_zero
    exact (BitFlags.and_or_of_disjoint hnone).trans hm
  have hbits : ∀ m : U32, m &&& 0xffff = m → (m ||| arg &&& flags) &&& flags = arg &&& flags := by
    intro m hm
    have hnone : m &&& flags = 0 := by
      rw [← hm, BitVec.and_assoc, hflags]
      exact BitVec.and_zero
    rw [BitVec.or_comm, BitFlags.and_or_of_disjoint hnone, BitVec.and_assoc, BitVec.and_self]
  have hlow : (if last < crChan arg then last else crChan arg) &&& 0xffff =
      if last < crChan arg then last else crChan arg := by
    split
    · exact hlast
    · unfold crChan
      rw [BitVec.and_assoc, BitVec.and_self]
  unfold external
  rw [hbits _ hlow, hchan _ hlow]
  by_cases h : last < crChan arg
  · rw [if_pos h, if_neg (BitVec.lt_irrefl last)]
  · rw [if_neg h, if_neg h]

theorem sound_startArg (src : U32) : Sound (startArg src) :=
  sound_ite (sound_replace (external_again (by decide) (by decide))) (sound_only 0)

theorem sound_stopArg (board : NiBoard) (src : U32) : Sound (stopArg board src) := by
  have hmax : ¬ maxCount board < 1 := by
    unfold maxCount
    split <;> decide
  have hmost : ∀ a, ¬ maxCount board < (put (maxCount board < a) (maxCount board) a).2 := by
    intro a
    unfold put
    split
    · exact BitVec.lt_irrefl _
    next h => exact h
  have hleast : ∀ b, ¬ maxCount board < b →
      ¬ maxCount board < (put (b < 1) 1 b).2 ∧ ¬ (put (b < 1) 1 b).2 < 1 := by
    intro b hb
    unfold put
    split
    · exact ⟨hmax, BitVec.lt_irrefl _⟩
    next h => exact ⟨hb, h⟩
  refine sound_ite ⟨fun a h => ?_, fun a => ?_⟩ (sound_only 0)
  · obtain ⟨hm, hl⟩ := Bool.or_eq_false_iff.mp h
    dsimp only
    rw [put_kept hl, put_kept hm]
  · obtain ⟨hm, hl⟩ := hleast _ (hmost a)
    dsimp only
    rw [put_of_not hm]
    exact put_eq_false.mpr hl

/-- The limits of the two periods are in order. -/
structure Ordered (board : NiBoard) (clockNs : U32) (cmd : Cmd) : Prop where
  scan : cmd.scanBeginSrc = trigTimer →
    (niMinAiScanPeriodNs board cmd.chanlistLen).toNat ≤ scanMax clockNs
  convert : paced board cmd → board.aiSpeed.toNat ≤ convertMax clockNs

theorem Ordered.scanBeginArg (h : Ordered board clockNs cmd) :
    Sound (scanBeginArg board clockNs cmd.scanBeginSrc cmd.chanlistLen) := by
  unfold NiAiCmdtest.scanBeginArg
  by_cases htimer : cmd.scanBeginSrc = trigTimer
  · simp only [if_pos htimer]
    exact sound_limits (h.scan htimer)
  · simp only [if_neg htimer]
    exact sound_ite (sound_replace (external_again (by decide) (by decide))) (sound_only 0)

theorem Ordered.convertArg (h : Ordered board clockNs cmd) :
    Sound (convertArg board clockNs cmd.convertSrc) := by
  unfold NiAiCmdtest.convertArg
  by_cases htimer : cmd.convertSrc = trigTimer
  · simp only [if_pos htimer]
    by_cases hsim : simultaneous board
    · simp only [if_pos hsim]
      exact sound_only 0
    · simp only [if_neg hsim]
      exact sound_limits (h.convert ⟨htimer, hsim⟩)
  · simp only [if_neg htimer]
    exact sound_ite (sound_replace (external_again (by decide) (by decide)))
      (sound_ite (sound_only 0) sound_keep)

/-- What step 3 finds nothing wrong with. -/
structure ArgsRight (board : NiBoard) (clockNs : U32) (cmd : Cmd) : Prop where
  scan : cmd.scanBeginSrc = trigTimer →
    (niMinAiScanPeriodNs board cmd.chanlistLen).toNat ≤ cmd.scanBeginArg.toNat ∧
      cmd.scanBeginArg.toNat ≤ scanMax clockNs
  convert : paced board cmd →
    board.aiSpeed.toNat ≤ cmd.convertArg.toNat ∧ cmd.convertArg.toNat ≤ convertMax clockNs
  unpaced : cmd.convertSrc = trigTimer → simultaneous board → cmd.convertArg = 0
  scanEnd : cmd.scanEndArg = cmd.chanlistLen
  stop : cmd.stopSrc = trigCount → ¬ cmd.stopArg < 1 ∧ ¬ maxCount board < cmd.stopArg

theorem argsRight_of_fixed (h : (fixArgs board clockNs cmd).1 = false) :
    ArgsRight board clockNs cmd := by
  unfold fixArgs at h
  simp only [Bool.or_eq_false_iff] at h
  obtain ⟨⟨⟨⟨-, hscan⟩, hconvert⟩, hscanEnd⟩, hstop⟩ := h
  refine ⟨fun htimer => ?_, fun hpaced => ?_, fun htimer hsim => ?_, only_eq_false.mp hscanEnd,
    fun hcount => ?_⟩
  · unfold scanBeginArg at hscan
    rw [if_pos htimer] at hscan
    obtain ⟨hlow, hhigh⟩ := within_eq_false.mp hscan
    exact ⟨Nat.not_lt.mp hlow, Nat.not_lt.mp hhigh⟩
  · unfold convertArg at hconvert
    rw [if_pos hpaced.1, if_neg hpaced.2] at hconvert
    obtain ⟨hlow, hhigh⟩ := within_eq_false.mp hconvert
    exact ⟨Nat.not_lt.mp hlow, Nat.not_lt.mp hhigh⟩
  · unfold convertArg at hconvert
    rw [if_pos htimer, if_pos hsim] at hconvert
    exact only_eq_false.mp hconvert
  · unfold stopArg at hstop
    rw [if_pos hcount] at hstop
    obtain ⟨hmost, hleast⟩ := Bool.or_eq_false_iff.mp hstop
    have hm := put_eq_false.mp hmost
    rw [put_of_not hm] at hleast
    exact ⟨put_eq_false.mp hleast, hm⟩

theorem ArgsRight.ordered (h : ArgsRight board clockNs cmd) : Ordered board clockNs cmd :=
  ⟨fun htimer => (h.scan htimer).1.trans (h.scan htimer).2,
    fun hpaced => (h.convert hpaced).1.trans (h.convert hpaced).2⟩

theorem fixArgs_kept (h : (fixArgs board clockNs cmd).1 = false) :
    (fixArgs board clockNs cmd).2 = cmd := by
  have hordered := (argsRight_of_fixed h).ordered
  unfold fixArgs at h ⊢
  simp only [Bool.or_eq_false_iff] at h
  obtain ⟨⟨⟨⟨hstart, hscan⟩, hconvert⟩, hscanEnd⟩, hstop⟩ := h
  dsimp only
  rw [(sound_startArg _).kept _ hstart, hordered.scanBeginArg.kept _ hscan,
    hordered.convertArg.kept _ hconvert, (sound_only _).kept _ hscanEnd,
    (sound_stopArg _ _).kept _ hstop]

theorem fixArgs_again (h : Ordered board clockNs cmd) :
    (fixArgs board clockNs (fixArgs board clockNs cmd).2).1 = false := by
  change ((((startArg _ _).1 || (scanBeginArg _ _ _ _ _).1) || (convertArg _ _ _ _).1) ||
    (only _ (only _ _).2).1 || (stopArg _ _ _).1) = false
  simp only [Bool.or_eq_false_iff]
  exact ⟨⟨⟨⟨(sound_startArg _).done _, h.scanBeginArg.done _⟩, h.convertArg.done _⟩,
    (sound_only _).done _⟩, (sound_stopArg _ _).done _⟩

theorem fixArgs_scan (h : cmd.scanBeginSrc = trigTimer) :
    (fixArgs board clockNs cmd).2.scanBeginArg.toNat =
      clamp (niMinAiScanPeriodNs board cmd.chanlistLen).toNat (scanMax clockNs)
        cmd.scanBeginArg.toNat := by
  change (scanBeginArg board clockNs cmd.scanBeginSrc cmd.chanlistLen cmd.scanBeginArg).2.toNat = _
  unfold scanBeginArg
  rw [if_pos h]
  exact within_snd (fun _ _ => BitVec.lt_def.symm) _ _ _

theorem fixArgs_convert (h : paced board cmd) : (fixArgs board clockNs cmd).2.convertArg.toNat =
    clamp board.aiSpeed.toNat (convertMax clockNs) cmd.convertArg.toNat := by
  change (convertArg board clockNs cmd.convertSrc cmd.convertArg).2.toNat = _
  unfold convertArg
  rw [if_pos h.1, if_neg h.2]
  exact within_snd (fun _ _ => BitVec.lt_def.symm) _ _ _

theorem roundArgs_eq_false : (roundArgs board clockNs cmd).1 = false ↔
    roundScanBegin clockNs cmd = cmd.scanBeginArg ∧
      roundConvert board clockNs cmd = cmd.convertArg ∧
      ¬ short board cmd cmd.scanBeginArg cmd.convertArg := by
  unfold roundArgs
  dsimp only
  rw [Bool.or_eq_false_iff, Bool.or_eq_false_iff, decide_eq_false_iff_not,
    decide_eq_false_iff_not, not_not, not_not, put_eq_false, and_assoc]
  constructor
  · rintro ⟨hscan, hconvert, hshort⟩
    rw [← hscan, ← hconvert] at hshort
    exact ⟨hscan.symm, hconvert.symm, hshort⟩
  · rintro ⟨hscan, hconvert, hshort⟩
    rw [hscan, hconvert]
    exact ⟨rfl, rfl, hshort⟩

theorem roundArgs_kept (h : (roundArgs board clockNs cmd).1 = false) :
    (roundArgs board clockNs cmd).2 = cmd := by
  obtain ⟨hscan, hconvert, hshort⟩ := roundArgs_eq_false.mp h
  unfold roundArgs
  dsimp only
  rw [hscan, hconvert, put_of_not hshort]

/-- The test of a command whose sources are supported. -/
theorem niAiCmdtest_eq (h : Supported board cmd) : niAiCmdtest board clockNs cmd =
    if (fixArgs board clockNs (clearWrite cmd)).1 then
      (3, (fixArgs board clockNs (clearWrite cmd)).2)
    else (if (roundArgs board clockNs (clearWrite cmd)).1 then 4 else 0,
      (roundArgs board clockNs (clearWrite cmd)).2) := by
  unfold niAiCmdtest
  rw [h.clearWrite.masked]
  dsimp only
  rw [if_neg Bool.false_ne_true, if_neg h.clearWrite.sources]
  split
  · rfl
  next hfix =>
    rw [fixArgs_kept (Bool.eq_false_iff.mpr hfix)]

/-- A command that passes the test but for the flag that the test clears. -/
structure Passed (board : NiBoard) (clockNs : U32) (cmd : Cmd) : Prop where
  fixed : (fixArgs board clockNs cmd).1 = false
  rounded : (roundArgs board clockNs cmd).1 = false

theorem accepted_iff (h : Supported board cmd) : (niAiCmdtest board clockNs cmd).1 = 0 ↔
    Passed board clockNs (clearWrite cmd) := by
  rw [niAiCmdtest_eq h]
  constructor
  · intro hret
    split at hret
    · exact absurd (show (3 : Int) = 0 from hret) (by decide)
    next hfix =>
      refine ⟨Bool.eq_false_iff.mpr hfix, Bool.eq_false_iff.mpr fun hround => ?_⟩
      dsimp only at hret
      rw [if_pos hround] at hret
      exact absurd (show (4 : Int) = 0 from hret) (by decide)
  · rintro ⟨hfix, hround⟩
    rw [hfix, hround]
    rfl

/-- An accepted command is given back, with `CMDF_WRITE` cleared. -/
theorem accepted_snd (h : Supported board cmd) (hret : (niAiCmdtest board clockNs cmd).1 = 0) :
    (niAiCmdtest board clockNs cmd).2 = clearWrite cmd := by
  obtain ⟨hfix, hround⟩ := (accepted_iff h).mp hret
  rw [niAiCmdtest_eq h, hfix]
  exact roundArgs_kept hround

theorem Supported.fixArgs (h : Supported board cmd) :
    Supported board (fixArgs board clockNs cmd).2 :=
  ⟨h.start, h.scanBegin, h.convert, h.scanEnd, h.stop⟩

theorem Supported.roundArgs (h : Supported board cmd) :
    Supported board (roundArgs board clockNs cmd).2 :=
  ⟨h.start, h.scanBegin, h.convert, h.scanEnd, h.stop⟩

end Steps

section Bounded

theorem least_eq (h : least board cmd < 2 ^ 32) :
    (niMinAiScanPeriodNs board cmd.chanlistLen).toNat = least board cmd := by
  unfold niMinAiScanPeriodNs
  unfold least at h ⊢
  split
  · rfl
  next hsim =>
    rw [if_neg hsim] at h
    rw [BitVec.toNat_mul]
    exact Nat.mod_eq_of_lt h

theorem least_clearWrite : least board (clearWrite cmd) = least board cmd := by
  rw [clearWrite_eq]
  rfl

theorem bounds_clearWrite : Bounds board clockNs (clearWrite cmd) ↔ Bounds board clockNs cmd := by
  rw [clearWrite_eq]
  exact ⟨fun h => ⟨⟨h.1.1, h.1.2, h.1.3, h.1.4⟩, h.2, h.3⟩,
    fun h => ⟨⟨h.1.1, h.1.2, h.1.3, h.1.4⟩, h.2, h.3⟩⟩

theorem narrow_clearWrite : Narrow board (clearWrite cmd) ↔ Narrow board cmd := by
  rw [clearWrite_eq]
  exact ⟨fun h => ⟨h.1, h.2⟩, fun h => ⟨h.1, h.2⟩⟩

variable (hclock : 0 < clockNs.toNat)

include hclock

theorem Passed.scan_dvd (h : Passed board clockNs cmd) (htimer : cmd.scanBeginSrc = trigTimer) :
    clockNs.toNat ∣ cmd.scanBeginArg.toNat := by
  have hround := (roundArgs_eq_false.mp h.rounded).1
  unfold roundScanBegin at hround
  rw [if_pos htimer] at hround
  rw [← hround]
  exact dvd_roundNs hclock _ _

theorem Passed.convert_dvd (h : Passed board clockNs cmd) (hpaced : paced board cmd) :
    clockNs.toNat ∣ cmd.convertArg.toNat := by
  have hround := (roundArgs_eq_false.mp h.rounded).2.1
  unfold roundConvert at hround
  rw [if_pos hpaced] at hround
  rw [← hround]
  exact dvd_roundNs hclock _ _

theorem Passed.countable (h : Passed board clockNs cmd) : Countable clockNs cmd := by
  have hright := argsRight_of_fixed h.fixed
  refine ⟨fun htimer => ?_, fun htimer => h.scan_dvd hclock htimer, fun htimer => ?_,
    fun htimer => ?_⟩
  · exact (hright.scan htimer).2.trans (scanMax_le clockNs)
  · by_cases hsim : simultaneous board
    · rw [hright.unpaced htimer hsim]
      exact Nat.zero_le _
    · exact (hright.convert ⟨htimer, hsim⟩).2.trans (convertMax_le clockNs)
  · by_cases hsim : simultaneous board
    · rw [hright.unpaced htimer hsim]
      exact Nat.dvd_zero _
    · exact h.convert_dvd hclock ⟨htimer, hsim⟩

theorem Passed.bounds (h : Passed board clockNs cmd) (hnarrow : Narrow board cmd) :
    Bounds board clockNs cmd := by
  have hright := argsRight_of_fixed h.fixed
  have hshort := (roundArgs_eq_false.mp h.rounded).2.2
  refine ⟨h.countable hclock, fun htimer => ?_, fun hscan htimer => ?_⟩
  · rw [← least_eq (hnarrow.scan htimer)]
    exact (hright.scan htimer).1
  · by_cases hsim : simultaneous board
    · rw [hright.unpaced htimer hsim]
      exact (Nat.zero_mul _).le.trans (Nat.zero_le _)
    · have hlong : ¬ cmd.scanBeginArg < cmd.convertArg * cmd.scanEndArg := fun hlt =>
        hshort ⟨⟨htimer, hsim⟩, hscan, hlt⟩
      rw [BitVec.lt_def, BitVec.toNat_mul, Nat.mod_eq_of_lt (hnarrow.convert hscan htimer)] at hlong
      exact Nat.not_lt.mp hlong

/-- An accepted command that keeps the bounds is one whose rounded periods are within the
limits. -/
theorem Passed.reaches (h : Passed board clockNs cmd) (hbounds : Bounds board clockNs cmd) :
    Reaches board clockNs cmd := by
  have hright := argsRight_of_fixed h.fixed
  have hconvert : paced board cmd → convertOf board clockNs cmd = cmd.convertArg.toNat := by
    intro hpaced
    obtain ⟨hlow, hhigh⟩ := hright.convert hpaced
    unfold convertOf
    rw [clamp_of_mem hlow hhigh]
    exact rounded_of_dvd hclock (h.convert_dvd hclock hpaced)
  refine ⟨fun hpaced => ?_, fun htimer => ?_⟩
  · rw [hconvert hpaced]
    exact hright.convert hpaced
  · have hlow := hbounds.scan_min htimer
    have hhigh := (hright.scan htimer).2
    have hscan : scanOf board clockNs cmd = cmd.scanBeginArg.toNat := by
      unfold scanOf
      rw [clamp_of_mem hlow hhigh, rounded_of_dvd hclock (h.scan_dvd hclock htimer)]
      dsimp only
      split
      next hpaced =>
        rw [hconvert hpaced, ← hright.scanEnd]
        exact max_eq_left (hbounds.convert_fits htimer hpaced.1)
      · rfl
    rw [hscan]
    exact ⟨hlow, hhigh⟩

end Bounded

section Loads

theorem scanCount_lt (h : Passed board clockNs cmd) :
    (scanCount board cmd).toNat < 2 ^ 24 := by
  have hright := argsRight_of_fixed h.fixed
  unfold scanCount
  split
  next hcount =>
    obtain ⟨hone, hmax⟩ := hright.stop hcount
    unfold maxCount at hmax
    rw [BitVec.lt_def] at hone hmax
    have hone' : (1 : U32).toNat = 1 := rfl
    by_cases hreg : board.regType = niReg611x
    · rw [if_pos hreg] at hmax ⊢
      have hmost : (0x1000000 - numAdcStages611x).toNat = 0x1000000 - 3 := rfl
      have hthree : numAdcStages611x.toNat = 3 := rfl
      rw [hmost] at hmax
      rw [BitVec.toNat_add, BitVec.toNat_sub, hthree]
      omega
    · rw [if_neg hreg] at hmax ⊢
      have hmost : (0x1000000 : U32).toNat = 0x1000000 := rfl
      rw [hmost] at hmax
      rw [BitVec.toNat_sub]
      omega
  · decide

variable (hclock : 0 < clockNs.toNat)

include hclock

theorem loads_fit (hfits : ClockFits clockNs) (hspeed : 0 < board.aiSpeed.toNat)
    (hlen : 0 < cmd.chanlistLen.toNat) (h : Passed board clockNs cmd)
    (hnarrow : Narrow board cmd) :
    ∀ load ∈ niAiCmd board clockNs cmd, load.fits := by
  have hright := argsRight_of_fixed h.fixed
  have hbounds := h.bounds hclock hnarrow
  have hscan : cmd.scanBeginSrc = trigTimer →
      (niNsToTimer clockNs cmd.scanBeginArg ConfigRetry.trigRoundNearest).toNat < 0xffffff := by
    intro htimer
    have hleast : 0 < least board cmd := by
      unfold least
      split
      · exact hspeed
      · exact Nat.mul_pos hspeed hlen
    have hadd := hfits.scan
    have hhigh := (hright.scan htimer).2
    have hslack := slack_lt hclock ConfigRetry.trigRoundNearest
    refine timer_lt hclock ?_ (hbounds.scan_dvd htimer) (hbounds.scan_max htimer) (by omega)
    intro hzero
    have hmin := hbounds.scan_min htimer
    rw [hzero] at hmin
    exact absurd (hleast.trans_le hmin) (Nat.lt_irrefl 0)
  have hconvert : cmd.convertSrc = trigTimer ∨ cmd.convertSrc = trigNow →
      (convertTimer clockNs cmd).toNat < 0xffff := by
    intro hsrc
    unfold convertTimer
    split
    · decide
    next hne =>
      have htimer : cmd.convertSrc = trigTimer := hsrc.resolve_right fun hnow => hne (.inr hnow)
      have hpaced : paced board cmd := ⟨htimer, fun hsim => hne (.inl (hright.unpaced htimer hsim))⟩
      have hadd := hfits.convert
      have hhigh := (hright.convert hpaced).2
      have hslack := slack_lt hclock ConfigRetry.trigRoundNearest
      exact timer_lt hclock (fun hzero => hne (.inl hzero)) (hbounds.convert_dvd htimer)
        (hbounds.convert_max htimer) (by omega)
  intro load hload
  rcases List.mem_cons.mp hload with rfl | hload
  · exact scanCount_lt h
  rcases List.mem_append.mp hload with hload | hload
  · split at hload
    next htimer =>
      rw [List.mem_singleton.mp hload]
      exact (hscan htimer).trans (by decide)
    · exact absurd hload List.not_mem_nil
  · split at hload
    next hsrc =>
      rcases List.mem_pair.mp hload with rfl | rfl
      · change (1 : U32).toNat < 2 ^ 16
        decide
      · exact (hconvert hsrc).trans (by decide)
    · exact absurd hload List.not_mem_nil

end Loads

end Comedi.NiAiAmends
