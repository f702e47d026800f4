import Comedi.Rtd520Cmdtest

namespace Comedi.Rtd520Settles

open ArgFixes Retests Rtd520Cmdtest
open NiTimer (slack rounded)
open Pci230 (trigExt)
open Rtd520 (rtdMaxChanlist)
open RtTimer (trigNone trigNow trigTimer trigCount)

variable {len m src : U32} {cmd : Cmd} {x : Nat}

/-- What is accepted is what is loaded, and the scans are long enough. -/
structure Correct (cmd : Cmd) : Prop where
  chanlistLen : cmd.chanlistLen.toNat ≤ 128
  pacer : ∀ n ∈ (rtdAiCmd cmd).pacer, (n.toNat + 1) * 125 = cmd.scanBeginArg.toNat
  burst : ∀ n ∈ (rtdAiCmd cmd).burst, (n.toNat + 1) * 125 = cmd.convertArg.toNat
  scan : cmd.scanBeginSrc = trigTimer → cmd.convertSrc = trigTimer →
    cmd.convertArg.toNat * cmd.chanlistLen.toNat ≤ cmd.scanBeginArg.toNat

/-- The limits of the periods of a list. -/
def fastest (len : U32) : U32 := if len = 1 then rtdMaxSpeed1 else rtdMaxSpeed

def slowest (len : U32) : U32 := if len = 1 then rtdMinSpeed1 else rtdMinSpeed

/-- A period within its limits, in whole clocks. -/
def tuned (len roundMode : U32) (x : Nat) : Nat :=
  rounded rtdClockBase roundMode (clamp (fastest len).toNat (slowest len).toNat x)

def convertPeriod (cmd : Cmd) : Nat := tuned cmd.chanlistLen (mode cmd) cmd.convertArg.toNat

/-- What the scan period is raised to. -/
def leastScan (cmd : Cmd) : Nat := convertPeriod cmd * cmd.scanEndArg.toNat % 2 ^ 32

def scanPeriod (cmd : Cmd) : Nat :=
  max (tuned cmd.chanlistLen (mode cmd) cmd.scanBeginArg.toNat)
    (rounded rtdClockBase (mode cmd) (leastScan cmd))

/-- With both periods timed the product is within the limits, it is not rounded down below itself,
and the scan period is enough for the list. -/
def Reach (cmd : Cmd) : Prop :=
  cmd.scanBeginSrc = trigTimer → cmd.convertSrc = trigTimer →
    leastScan cmd ≤ (slowest cmd.chanlistLen).toNat ∧ leastScan cmd ≤ scanPeriod cmd ∧
      convertPeriod cmd * min cmd.chanlistLen.toNat 128 ≤ scanPeriod cmd

section Limits

theorem fastest_whole (len : U32) : rtdClockBase.toNat ∣ (fastest len).toNat := by
  unfold fastest
  split <;> decide

theorem slowest_whole (len : U32) : rtdClockBase.toNat ∣ (slowest len).toNat := by
  unfold slowest
  split <;> decide

theorem two_clocks_le (len : U32) : 2 * rtdClockBase.toNat ≤ (fastest len).toNat := by
  unfold fastest
  split <;> decide

theorem fastest_le (len : U32) : (fastest len).toNat ≤ (slowest len).toNat := by
  unfold fastest slowest
  split <;> decide

theorem slowest_le (len : U32) : (slowest len).toNat ≤ rtdMinSpeed.toNat := by
  unfold slowest
  split <;> decide

theorem le_tuned (len m : U32) (x : Nat) : (fastest len).toNat ≤ tuned len m x := by
  have hmono := @NiTimer.rounded_mono rtdClockBase m _ _ (le_clamp (fastest_le len) x)
  rwa [NiTimer.rounded_of_dvd base_pos (fastest_whole len)] at hmono

theorem tuned_le (len m : U32) (x : Nat) : tuned len m x ≤ (slowest len).toNat := by
  have hmono := @NiTimer.rounded_mono rtdClockBase m _ _
    (clamp_le (fastest len).toNat (slowest len).toNat x)
  rwa [NiTimer.rounded_of_dvd base_pos (slowest_whole len)] at hmono

theorem tuned_whole (len m : U32) (x : Nat) : rtdClockBase.toNat ∣ tuned len m x :=
  Nat.dvd_mul_left _ _

theorem tuned_of_mem (hlo : (fastest len).toNat ≤ x) (hhi : x ≤ (slowest len).toNat) :
    tuned len m x = rounded rtdClockBase m x := by
  unfold tuned
  rw [clamp_of_mem hlo hhi]

theorem tuned_clamp (len m : U32) (x : Nat) :
    tuned len m (clamp (fastest len).toNat (slowest len).toNat x) = tuned len m x := by
  unfold tuned
  rw [clamp_clamp]

theorem tuned_tuned (len m : U32) (x : Nat) : tuned len m (tuned len m x) = tuned len m x := by
  rw [tuned_of_mem (le_tuned len m x) (tuned_le len m x)]
  exact NiTimer.rounded_of_dvd base_pos (tuned_whole len m x)

/-- A period that is raised within the limits is rounded in the next test. -/
theorem tuned_max {least : Nat} (h : least ≤ (slowest len).toNat) :
    tuned len m (max (tuned len m x) least) =
      max (tuned len m x) (rounded rtdClockBase m least) := by
  rw [tuned_of_mem ((le_tuned len m x).trans (le_max_left _ _)) (max_le (tuned_le len m x) h),
    NiTimer.rounded_mono.map_max, NiTimer.rounded_of_dvd base_pos (tuned_whole len m x)]

/-- A list that is cut has the limits of the whole one. -/
theorem cut_limits (len : U32) :
    fastest (put (rtdMaxChanlist < len) rtdMaxChanlist len).2 = fastest len ∧
      slowest (put (rtdMaxChanlist < len) rtdMaxChanlist len).2 = slowest len := by
  unfold put
  split
  next hlong =>
    have hlen : len ≠ 1 := by
      rintro rfl
      exact absurd hlong (by decide)
    unfold fastest slowest
    rw [if_neg hlen, if_neg hlen]
    exact ⟨rfl, rfl⟩
  · exact ⟨rfl, rfl⟩

theorem cut_toNat (len : U32) :
    (put (rtdMaxChanlist < len) rtdMaxChanlist len).2.toNat = min len.toNat 128 :=
  @put_high Nat _ U32 _ _ BitVec.toNat (fun _ _ => Iff.rfl) rtdMaxChanlist len

end Limits

section Fixes

theorem periodArg_timer (h : src = trigTimer) (len : U32) :
    periodArg src len = within (fastest len) (slowest len) := by
  funext arg
  unfold periodArg fastest slowest
  rw [if_pos h]
  split
  · rw [limited_eq (by decide) (by decide)]
  · rw [limited_eq (by decide) (by decide)]

theorem periodArg_toNat (h : src = trigTimer) (len arg : U32) :
    (periodArg src len arg).2.toNat =
      clamp (fastest len).toNat (slowest len).toNat arg.toNat := by
  rw [periodArg_timer h]
  exact @within_snd Nat _ U32 _ _ BitVec.toNat (fun _ _ => Iff.rfl) _ _ arg

theorem sound_periodArg (src len : U32) : Sound (periodArg src len) := by
  by_cases h : src = trigTimer
  · rw [periodArg_timer h]
    exact NiTimer.sound_limits (fastest_le len)
  · have hother : periodArg src len = fun arg => put ((9 : U32) < arg) 9 arg := by
      funext arg
      exact if_neg h
    rw [hother]
    exact sound_put ((9 : U32) < ·) (by decide)

theorem sound_stopArg (src : U32) : Sound (stopArg src) := sound_ite sound_keep (sound_only 0)

/-- Step 3 leaves the command as it is. -/
structure Fixed (cmd : Cmd) : Prop where
  start : cmd.startArg = 0
  scan : (periodArg cmd.scanBeginSrc cmd.chanlistLen cmd.scanBeginArg).1 = false
  convert : (periodArg cmd.convertSrc cmd.chanlistLen cmd.convertArg).1 = false
  stop : (stopArg cmd.stopSrc cmd.stopArg).1 = false

theorem fixArgs_eq_false : (fixArgs cmd).1 = false ↔ Fixed cmd := by
  unfold fixArgs
  dsimp only
  simp only [Bool.or_eq_false_iff, only_eq_false]
  constructor
  · rintro ⟨⟨⟨hstart, hscan⟩, hconvert⟩, hstop⟩
    exact ⟨hstart, hscan, hconvert, hstop⟩
  · rintro ⟨hstart, hscan, hconvert, hstop⟩
    exact ⟨⟨⟨hstart, hscan⟩, hconvert⟩, hstop⟩

theorem Fixed.kept (h : Fixed cmd) : (fixArgs cmd).2 = cmd := by
  unfold fixArgs
  dsimp only
  rw [(sound_periodArg _ _).kept _ h.scan, (sound_periodArg _ _).kept _ h.convert,
    (sound_stopArg _).kept _ h.stop, only_snd, ← h.start]

theorem fixArgs_fixed (cmd : Cmd) : Fixed (fixArgs cmd).2 where
  start := only_snd
  scan := (sound_periodArg cmd.scanBeginSrc cmd.chanlistLen).done cmd.scanBeginArg
  convert := (sound_periodArg cmd.convertSrc cmd.chanlistLen).done cmd.convertArg
  stop := (sound_stopArg cmd.stopSrc).done cmd.stopArg

/-- A timed period is within its limits. -/
theorem periodArg_timer_eq_false (h : src = trigTimer) {arg : U32} :
    (periodArg src len arg).1 = false ↔
      (fastest len).toNat ≤ arg.toNat ∧ arg.toNat ≤ (slowest len).toNat := by
  rw [periodArg_timer h, within_eq_false]
  exact and_congr Nat.not_lt Nat.not_lt

theorem periodArg_other (h : src ≠ trigTimer) (len arg : U32) :
    periodArg src len arg = put (9 < arg) 9 arg := if_neg h

end Fixes

section Rounds

variable (h : Fixed cmd)

theorem roundPeriod_toNat (hsrc : src = trigTimer) {arg : U32}
    (h : (periodArg src len arg).1 = false) :
    (roundPeriod src m arg).2.toNat = tuned len m arg.toNat := by
  obtain ⟨hlo, hhi⟩ := (periodArg_timer_eq_false hsrc).mp h
  unfold roundPeriod
  rw [if_pos hsrc, only_snd, tuned_of_mem hlo hhi]
  exact rtdNsToTimer_toNat ((two_clocks_le len).trans hlo) (hhi.trans (slowest_le len))

theorem roundPeriod_other (hsrc : src ≠ trigTimer) (m arg : U32) :
    roundPeriod src m arg = (false, arg) := if_neg hsrc

theorem roundPeriod_eq_false {arg : U32} (h : (periodArg src len arg).1 = false) :
    (roundPeriod src m arg).1 = false ↔ (src = trigTimer → arg.toNat = tuned len m arg.toNat) := by
  by_cases hsrc : src = trigTimer
  · rw [← roundPeriod_toNat hsrc h]
    unfold roundPeriod
    rw [if_pos hsrc, only_eq_false, only_snd]
    exact ⟨fun heq _ => congrArg BitVec.toNat heq, fun heq => BitVec.eq_of_toNat_eq (heq hsrc)⟩
  · rw [roundPeriod_other hsrc]
    exact iff_of_true rfl fun htimer => absurd htimer hsrc

theorem roundPeriod_kept {arg : U32} (h : (roundPeriod src m arg).1 = false) :
    (roundPeriod src m arg).2 = arg := by
  unfold roundPeriod at h ⊢
  split at h
  next hsrc =>
    rw [if_pos hsrc]
    exact put_kept h
  next hsrc => rw [if_neg hsrc]

theorem roundArgs_kept (h : (roundArgs cmd).1 = false) : (roundArgs cmd).2 = cmd := by
  unfold roundArgs at h ⊢
  dsimp only at h ⊢
  simp only [Bool.or_eq_false_iff] at h
  obtain ⟨⟨⟨hlen, hscan⟩, hconvert⟩, hraised⟩ := h
  rw [put_kept hraised, put_kept hlen, roundPeriod_kept hscan, roundPeriod_kept hconvert]

theorem roundArgs_len (cmd : Cmd) :
    (roundArgs cmd).2.chanlistLen.toNat = min cmd.chanlistLen.toNat 128 := cut_toNat _

theorem roundArgs_mode (cmd : Cmd) : mode (roundArgs cmd).2 = mode cmd := rfl

theorem roundArgs_limits (cmd : Cmd) :
    fastest (roundArgs cmd).2.chanlistLen = fastest cmd.chanlistLen ∧
      slowest (roundArgs cmd).2.chanlistLen = slowest cmd.chanlistLen := cut_limits _

theorem roundArgs_tuned (cmd : Cmd) (m : U32) (x : Nat) :
    tuned (roundArgs cmd).2.chanlistLen m x = tuned cmd.chanlistLen m x := by
  unfold tuned
  rw [(roundArgs_limits cmd).1, (roundArgs_limits cmd).2]

theorem roundArgs_scan_alone (hconvert : cmd.convertSrc ≠ trigTimer) :
    (roundArgs cmd).2.scanBeginArg =
      (roundPeriod cmd.scanBeginSrc (mode cmd) cmd.scanBeginArg).2 := by
  unfold roundArgs
  dsimp only
  rw [put_of_not fun hlow => hconvert hlow.1]

theorem roundArgs_scan_other (hscan : cmd.scanBeginSrc ≠ trigTimer) :
    (roundArgs cmd).2.scanBeginArg = cmd.scanBeginArg := by
  unfold roundArgs
  dsimp only
  rw [put_of_not fun hlow => hscan hlow.2.1, roundPeriod_other hscan]

include h

theorem roundArgs_convert (hconvert : cmd.convertSrc = trigTimer) :
    (roundArgs cmd).2.convertArg.toNat = convertPeriod cmd := roundPeriod_toNat hconvert h.convert

theorem least_toNat (hconvert : cmd.convertSrc = trigTimer) :
    ((roundPeriod cmd.convertSrc (mode cmd) cmd.convertArg).2 * cmd.scanEndArg).toNat =
      leastScan cmd := by
  rw [BitVec.toNat_mul, roundPeriod_toNat hconvert h.convert]
  rfl

/-- The scan period is raised when both periods are timed. -/
theorem roundArgs_scan (hscan : cmd.scanBeginSrc = trigTimer)
    (hconvert : cmd.convertSrc = trigTimer) : (roundArgs cmd).2.scanBeginArg.toNat =
      max (tuned cmd.chanlistLen (mode cmd) cmd.scanBeginArg.toNat) (leastScan cmd) := by
  rw [← roundPeriod_toNat hscan h.scan, ← least_toNat h hconvert]
  unfold roundArgs put
  dsimp only
  split
  next hlow => exact (max_eq_right hlow.2.2.le).symm
  next hlow =>
    refine (max_eq_left (Nat.not_lt.mp fun hlt => hlow ⟨hconvert, hscan, ?_⟩)).symm
    exact hlt

/-- A command that is raised within the limits is not put right again. -/
theorem roundArgs_fixed (hleast : cmd.scanBeginSrc = trigTimer → cmd.convertSrc = trigTimer →
    leastScan cmd ≤ (slowest cmd.chanlistLen).toNat) : Fixed (roundArgs cmd).2 where
  start := h.start
  scan := by
    show (periodArg cmd.scanBeginSrc (roundArgs cmd).2.chanlistLen
      (roundArgs cmd).2.scanBeginArg).1 = false
    by_cases hscan : cmd.scanBeginSrc = trigTimer
    · rw [periodArg_timer_eq_false hscan, (roundArgs_limits cmd).1, (roundArgs_limits cmd).2]
      by_cases hconvert : cmd.convertSrc = trigTimer
      · rw [roundArgs_scan h hscan hconvert]
        exact ⟨(le_tuned _ _ _).trans (le_max_left _ _),
          max_le (tuned_le _ _ _) (hleast hscan hconvert)⟩
      · rw [roundArgs_scan_alone hconvert, roundPeriod_toNat hscan h.scan]
        exact ⟨le_tuned _ _ _, tuned_le _ _ _⟩
    · rw [periodArg_other hscan, roundArgs_scan_other hscan, ← periodArg_other hscan]
      exact h.scan
  convert := by
    show (periodArg cmd.convertSrc (roundArgs cmd).2.chanlistLen
      (roundArgs cmd).2.convertArg).1 = false
    by_cases hconvert : cmd.convertSrc = trigTimer
    · rw [periodArg_timer_eq_false hconvert, (roundArgs_limits cmd).1, (roundArgs_limits cmd).2,
        roundArgs_convert h hconvert]
      exact ⟨le_tuned _ _ _, tuned_le _ _ _⟩
    · have hsame : (roundArgs cmd).2.convertArg = cmd.convertArg :=
        congrArg Prod.snd (roundPeriod_other hconvert _ _)
      rw [periodArg_other hconvert, hsame, ← periodArg_other hconvert]
      exact h.convert
  stop := h.stop

/-- Step 4 leaves the command as it is. -/
theorem roundArgs_eq_false : (roundArgs cmd).1 = false ↔ cmd.chanlistLen.toNat ≤ 128 ∧
    (cmd.scanBeginSrc = trigTimer → cmd.scanBeginArg.toNat =
      tuned cmd.chanlistLen (mode cmd) cmd.scanBeginArg.toNat) ∧
    (cmd.convertSrc = trigTimer → cmd.convertArg.toNat = convertPeriod cmd) ∧
    (cmd.scanBeginSrc = trigTimer → cmd.convertSrc = trigTimer →
      leastScan cmd ≤ tuned cmd.chanlistLen (mode cmd) cmd.scanBeginArg.toNat) := by
  have hraised : ¬ (cmd.convertSrc = trigTimer ∧ cmd.scanBeginSrc = trigTimer ∧
      (roundPeriod cmd.scanBeginSrc (mode cmd) cmd.scanBeginArg).2 <
        (roundPeriod cmd.convertSrc (mode cmd) cmd.convertArg).2 * cmd.scanEndArg) ↔
      (cmd.scanBeginSrc = trigTimer → cmd.convertSrc = trigTimer →
        leastScan cmd ≤ tuned cmd.chanlistLen (mode cmd) cmd.scanBeginArg.toNat) := by
    by_cases hboth : cmd.scanBeginSrc = trigTimer ∧ cmd.convertSrc = trigTimer
    · obtain ⟨hs, hc⟩ := hboth
      rw [← roundPeriod_toNat hs h.scan, ← least_toNat h hc]
      exact ⟨fun hnot _ _ => Nat.not_lt.mp fun hlt => hnot ⟨hc, hs, hlt⟩,
        fun hle hlow => Nat.not_lt.mpr (hle hs hc) hlow.2.2⟩
    · exact iff_of_true (fun hlow => hboth ⟨hlow.2.1, hlow.1⟩)
        fun hs hc => absurd ⟨hs, hc⟩ hboth
  have hlong : ¬ rtdMaxChanlist < cmd.chanlistLen ↔ cmd.chanlistLen.toNat ≤ 128 := Nat.not_lt
  unfold roundArgs
  dsimp only
  rw [Bool.or_eq_false_iff, Bool.or_eq_false_iff, Bool.or_eq_false_iff, put_eq_false,
    put_eq_false, roundPeriod_eq_false h.scan, roundPeriod_eq_false h.convert, hraised, hlong,
    and_assoc, and_assoc]
  rfl

end Rounds

section Reaches

variable (h : Fixed cmd)

theorem reach_fixArgs : Reach (fixArgs cmd).2 ↔ Reach cmd := by
  refine forall_congr' fun hscan => forall_congr' fun hconvert => ?_
  have hs : (fixArgs cmd).2.scanBeginArg.toNat = _ :=
    periodArg_toNat hscan cmd.chanlistLen cmd.scanBeginArg
  have hc : (fixArgs cmd).2.convertArg.toNat = _ :=
    periodArg_toNat hconvert cmd.chanlistLen cmd.convertArg
  have hconvertPeriod : convertPeriod (fixArgs cmd).2 = convertPeriod cmd := by
    unfold convertPeriod
    rw [hc]
    exact tuned_clamp _ _ _
  have hleast : leastScan (fixArgs cmd).2 = leastScan cmd := by
    unfold leastScan
    rw [hconvertPeriod]
    rfl
  have hscanPeriod : scanPeriod (fixArgs cmd).2 = scanPeriod cmd := by
    unfold scanPeriod
    rw [hs, hleast]
    exact congrArg (max · _) (tuned_clamp _ _ _)
  rw [hconvertPeriod, hleast, hscanPeriod]
  rfl

include h

theorem convertPeriod_roundArgs (hconvert : cmd.convertSrc = trigTimer) :
    convertPeriod (roundArgs cmd).2 = convertPeriod cmd := by
  show tuned (roundArgs cmd).2.chanlistLen (mode cmd) (roundArgs cmd).2.convertArg.toNat = _
  rw [roundArgs_tuned, roundArgs_convert h hconvert]
  exact tuned_tuned _ _ _

theorem leastScan_roundArgs (hconvert : cmd.convertSrc = trigTimer) :
    leastScan (roundArgs cmd).2 = leastScan cmd := by
  unfold leastScan
  rw [convertPeriod_roundArgs h hconvert]
  rfl

/-- What the scan period comes to is not changed by a test, as long as it is within the limits. -/
theorem tuned_roundArgs (hscan : cmd.scanBeginSrc = trigTimer)
    (hconvert : cmd.convertSrc = trigTimer)
    (hleast : leastScan cmd ≤ (slowest cmd.chanlistLen).toNat) :
    tuned (roundArgs cmd).2.chanlistLen (mode cmd) (roundArgs cmd).2.scanBeginArg.toNat =
      scanPeriod cmd := by
  rw [roundArgs_tuned, roundArgs_scan h hscan hconvert, tuned_max hleast]
  rfl

theorem scanPeriod_roundArgs (hscan : cmd.scanBeginSrc = trigTimer)
    (hconvert : cmd.convertSrc = trigTimer)
    (hleast : leastScan cmd ≤ (slowest cmd.chanlistLen).toNat) :
    scanPeriod (roundArgs cmd).2 = scanPeriod cmd := by
  show max (tuned (roundArgs cmd).2.chanlistLen (mode cmd) (roundArgs cmd).2.scanBeginArg.toNat)
    (rounded rtdClockBase (mode cmd) (leastScan (roundArgs cmd).2)) = _
  rw [tuned_roundArgs h hscan hconvert hleast, leastScan_roundArgs h hconvert]
  exact max_eq_left (le_max_right _ _)

theorem reach_roundArgs : Reach (roundArgs cmd).2 ↔ Reach cmd := by
  refine forall_congr' fun hscan => forall_congr' fun hconvert => ?_
  rw [convertPeriod_roundArgs h hconvert, leastScan_roundArgs h hconvert, roundArgs_len,
    (roundArgs_limits cmd).2, min_assoc, min_self]
  refine and_congr_right fun hleast => ?_
  rw [scanPeriod_roundArgs h hscan hconvert hleast]

theorem cmdtest_fixed (hsupported : Supported cmd) :
    rtdAiCmdtest cmd = (if (roundArgs cmd).1 then 4 else 0, (roundArgs cmd).2) := by
  unfold rtdAiCmdtest
  rw [hsupported.masked]
  dsimp only
  rw [if_neg Bool.false_ne_true, if_neg hsupported.sources, fixArgs_eq_false.mpr h, h.kept,
    if_neg Bool.false_ne_true]

/-- Of a command that is accepted, `Reach` says what it is correct for. -/
theorem correct_iff_reach (hround : (roundArgs cmd).1 = false) : Correct cmd ↔ Reach cmd := by
  obtain ⟨hlen, hscan, hconvert, hleast⟩ := (roundArgs_eq_false h).mp hround
  have hexact : ∀ (src arg : U32), src = trigTimer →
      (periodArg src cmd.chanlistLen arg).1 = false →
      arg.toNat = tuned cmd.chanlistLen (mode cmd) arg.toNat →
      ((rtdNsToTimer arg ConfigRetry.trigRoundNearest).1.toNat + 1) * 125 = arg.toNat := by
    intro src arg htimer hperiod harg
    obtain ⟨hlo, hhi⟩ := (periodArg_timer_eq_false htimer).mp hperiod
    exact timer_exact ((two_clocks_le _).trans hlo) (hhi.trans (slowest_le _))
      (harg ▸ tuned_whole _ _ _)
  have hreach : Reach cmd ↔ (cmd.scanBeginSrc = trigTimer → cmd.convertSrc = trigTimer →
      cmd.convertArg.toNat * cmd.chanlistLen.toNat ≤ cmd.scanBeginArg.toNat) := by
    refine forall_congr' fun htimer => forall_congr' fun htimed => ?_
    obtain ⟨-, hhi⟩ := (periodArg_timer_eq_false htimer).mp h.scan
    have hperiod : scanPeriod cmd = cmd.scanBeginArg.toNat := by
      unfold scanPeriod
      rw [← hscan htimer]
      have hmono := @NiTimer.rounded_mono rtdClockBase (mode cmd) _ _ (hleast htimer htimed)
      rw [NiTimer.rounded_of_dvd base_pos (tuned_whole _ _ _), ← hscan htimer] at hmono
      exact max_eq_left hmono
    have hlow : leastScan cmd ≤ cmd.scanBeginArg.toNat := hscan htimer ▸ hleast htimer htimed
    rw [hperiod, hconvert htimed, min_eq_left hlen]
    exact ⟨fun hall => hall.2.2, fun hlong => ⟨hlow.trans hhi, hlow, hlong⟩⟩
  rw [hreach]
  refine ⟨fun hcorrect => hcorrect.scan, fun hlong => ⟨hlen, ?_, ?_, hlong⟩⟩
  · intro n hn
    unfold rtdAiCmd at hn
    dsimp only at hn
    split at hn
    next htimer =>
      obtain rfl := Option.some.inj hn
      exact hexact _ _ htimer h.scan (hscan htimer)
    · exact absurd hn (by simp)
  · intro n hn
    unfold rtdAiCmd at hn
    dsimp only at hn
    split at hn
    next htimer =>
      obtain rfl := Option.some.inj hn
      exact hexact _ _ htimer.1 h.convert (hconvert htimer.1)
    · exact absurd hn (by simp)

end Reaches

section Settles

theorem supported_fixArgs (h : Supported cmd) : Supported (fixArgs cmd).2 :=
  ⟨h.start, h.scanBegin, h.convert, h.scanEnd, h.stop⟩

theorem supported_roundArgs (h : Supported cmd) : Supported (roundArgs cmd).2 :=
  ⟨h.start, h.scanBegin, h.convert, h.scanEnd, h.stop⟩

theorem cmdtest_fixes (hsupported : Supported cmd) (h : ¬ Fixed cmd) :
    rtdAiCmdtest cmd = (3, (fixArgs cmd).2) := by
  unfold rtdAiCmdtest
  rw [hsupported.masked]
  dsimp only
  rw [if_neg Bool.false_ne_true, if_neg hsupported.sources,
    if_pos (Bool.eq_true_of_not_eq_false (mt fixArgs_eq_false.mp h))]

theorem settles_passed (hsupported : Supported cmd) (h : Fixed cmd)
    (hround : (roundArgs cmd).1 = false) (hreach : Reach cmd) (n : Nat) :
    Settles rtdAiCmdtest Correct (n + 1) cmd := by
  refine settles_now ?_ ((correct_iff_reach h hround).mpr hreach) n
  rw [cmdtest_fixed h hsupported, hround]
  rfl

theorem settles_round {n : Nat} (hsupported : Supported cmd) (h : Fixed cmd)
    (hsettles : Settles rtdAiCmdtest Correct n (roundArgs cmd).2) :
    Settles rtdAiCmdtest Correct (n + 1) cmd := by
  refine Settles.next ?_
  rwa [cmdtest_fixed h hsupported]

/-- A period that is alone is rounded once. -/
theorem passed_alone (h : Fixed cmd)
    (halone : ¬ (cmd.scanBeginSrc = trigTimer ∧ cmd.convertSrc = trigTimer)) :
    Fixed (roundArgs cmd).2 ∧ (roundArgs (roundArgs cmd).2).1 = false := by
  have hfixed := roundArgs_fixed h fun hscan hconvert => absurd ⟨hscan, hconvert⟩ halone
  refine ⟨hfixed, (roundArgs_eq_false hfixed).mpr ⟨?_, ?_, ?_, ?_⟩⟩
  · rw [roundArgs_len]
    exact min_le_right _ _
  · intro (hscan : cmd.scanBeginSrc = trigTimer)
    have hconvert : cmd.convertSrc ≠ trigTimer := fun htimer => halone ⟨hscan, htimer⟩
    have hperiod : (roundArgs cmd).2.scanBeginArg.toNat =
        tuned cmd.chanlistLen (mode cmd) cmd.scanBeginArg.toNat := by
      rw [roundArgs_scan_alone hconvert, roundPeriod_toNat hscan h.scan]
    rw [roundArgs_tuned, hperiod]
    exact (tuned_tuned _ _ _).symm
  · intro (hconvert : cmd.convertSrc = trigTimer)
    rw [convertPeriod_roundArgs h hconvert, roundArgs_convert h hconvert]
  · exact fun hscan hconvert => absurd ⟨hscan, hconvert⟩ halone

/-- Where both periods are timed the one of the scan is raised in one test, and rounded in the
next. -/
theorem passed_both (h : Fixed cmd) (hscan : cmd.scanBeginSrc = trigTimer)
    (hconvert : cmd.convertSrc = trigTimer)
    (hleast : leastScan cmd ≤ (slowest cmd.chanlistLen).toNat)
    (hround : leastScan cmd ≤ scanPeriod cmd) :
    Fixed (roundArgs cmd).2 ∧ Fixed (roundArgs (roundArgs cmd).2).2 ∧
      (roundArgs (roundArgs (roundArgs cmd).2).2).1 = false := by
  have hfixed := roundArgs_fixed h fun _ _ => hleast
  have hleast' : leastScan (roundArgs cmd).2 ≤ (slowest (roundArgs cmd).2.chanlistLen).toNat := by
    rwa [leastScan_roundArgs h hconvert, (roundArgs_limits cmd).2]
  have hfixed' := roundArgs_fixed hfixed fun _ _ => hleast'
  have htuned := tuned_roundArgs hfixed hscan hconvert hleast'
  have hleastScan : leastScan (roundArgs (roundArgs cmd).2).2 = leastScan cmd := by
    rw [leastScan_roundArgs hfixed hconvert, leastScan_roundArgs h hconvert]
  have hperiod : (roundArgs (roundArgs cmd).2).2.scanBeginArg.toNat = scanPeriod cmd := by
    rw [roundArgs_scan hfixed hscan hconvert, leastScan_roundArgs h hconvert]
    show max (tuned _ (mode cmd) _) _ = _
    rw [tuned_roundArgs h hscan hconvert hleast]
    exact max_eq_left hround
  rw [scanPeriod_roundArgs h hscan hconvert hleast, hperiod] at htuned
  refine ⟨hfixed, hfixed', (roundArgs_eq_false hfixed').mpr ⟨?_, ?_, ?_, ?_⟩⟩
  · rw [roundArgs_len]
    exact min_le_right _ _
  · intro _
    rw [roundArgs_mode, hperiod, htuned]
  · intro _
    rw [convertPeriod_roundArgs hfixed hconvert, roundArgs_convert hfixed hconvert]
  · intro _ _
    rw [hleastScan, roundArgs_mode, hperiod, htuned]
    exact hround

theorem settles_fixed (hsupported : Supported cmd) (h : Fixed cmd) (hreach : Reach cmd) :
    Settles rtdAiCmdtest Correct 3 cmd := by
  have hreach' := (reach_roundArgs h).mpr hreach
  by_cases hboth : cmd.scanBeginSrc = trigTimer ∧ cmd.convertSrc = trigTimer
  · obtain ⟨hleast, hround, -⟩ := hreach hboth.1 hboth.2
    obtain ⟨hfixed, hfixed', hpassed⟩ := passed_both h hboth.1 hboth.2 hleast hround
    have hsupported' := supported_roundArgs hsupported
    exact settles_round hsupported h (settles_round hsupported' hfixed
      (settles_passed (supported_roundArgs hsupported') hfixed' hpassed
        ((reach_roundArgs hfixed).mpr hreach') 0))
  · obtain ⟨hfixed, hpassed⟩ := passed_alone h hboth
    have hsupported' := supported_roundArgs hsupported
    exact settles_round hsupported h (settles_passed hsupported' hfixed hpassed hreach' 1)

theorem settles_of_reach (hsupported : Supported cmd) (hreach : Reach cmd) :
    Settles rtdAiCmdtest Correct 4 cmd := by
  by_cases h : Fixed cmd
  · exact (settles_fixed hsupported h hreach).mono (Nat.le_succ 3)
  · refine Settles.next ?_
    rw [cmdtest_fixes hsupported h]
    exact settles_fixed (supported_fixArgs hsupported) (fixArgs_fixed cmd)
      (reach_fixArgs.mpr hreach)

theorem supported_test (hsupported : Supported cmd) : Supported (rtdAiCmdtest cmd).2 := by
  by_cases h : Fixed cmd
  · rw [cmdtest_fixed h hsupported]
    exact supported_roundArgs hsupported
  · rw [cmdtest_fixes hsupported h]
    exact supported_fixArgs hsupported

theorem reach_test (hsupported : Supported cmd) (hreach : Reach (rtdAiCmdtest cmd).2) :
    Reach cmd := by
  by_cases h : Fixed cmd
  · rw [cmdtest_fixed h hsupported] at hreach
    exact (reach_roundArgs h).mp hreach
  · rw [cmdtest_fixes hsupported h] at hreach
    exact reach_fixArgs.mp hreach

theorem accepted_iff (hsupported : Supported cmd) :
    (rtdAiCmdtest cmd).1 = 0 ↔ Fixed cmd ∧ (roundArgs cmd).1 = false := by
  by_cases h : Fixed cmd
  · rw [cmdtest_fixed h hsupported]
    cases (roundArgs cmd).1 with
    | false => exact iff_of_true rfl ⟨h, rfl⟩
    | true => exact iff_of_false (by decide : ¬ (4 : Int) = 0) nofun
  · rw [cmdtest_fixes hsupported h]
    exact iff_of_false (by decide : ¬ (3 : Int) = 0) fun hboth => h hboth.1

theorem accepted_kept (hsupported : Supported cmd) (hret : (rtdAiCmdtest cmd).1 = 0) :
    (rtdAiCmdtest cmd).2 = cmd := by
  obtain ⟨h, hround⟩ := (accepted_iff hsupported).mp hret
  rw [cmdtest_fixed h hsupported]
  exact roundArgs_kept hround

end Settles

/-- Scans and conversions that are both timed. -/
def timedScan (chanlistLen scanBeginArg convertArg scanEndArg : U32) : Cmd :=
  { startSrc := trigNow, scanBeginSrc := trigTimer, scanBeginArg := scanBeginArg,
    convertSrc := trigTimer, convertArg := convertArg, scanEndSrc := trigCount,
    scanEndArg := scanEndArg, stopSrc := trigCount, stopArg := 1, chanlistLen := chanlistLen }

theorem supported_timedScan (len scan convert scanEnd : U32) :
    Supported (timedScan len scan convert scanEnd) := ⟨rfl, .inl rfl, .inl rfl, rfl, .inl rfl⟩

end Comedi.Rtd520Settles
