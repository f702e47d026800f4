import Comedi.NiAiAmends
import Comedi.Retests

namespace Comedi.NiAiSettles

open ArgFixes NiAiCmdtest NiAiAmends NiTimer Retests
open RtTimer (trigNone trigNow trigTimer trigCount)

variable {board : NiBoard} {clockNs : U32} {cmd : Cmd}

theorem reaches_clearWrite :
    Reaches board clockNs (clearWrite cmd) ↔ Reaches board clockNs cmd := by
  have hconvert : convertOf board clockNs (clearWrite cmd) = convertOf board clockNs cmd := by
    unfold convertOf
    rw [mode_clearWrite, clearWrite_eq]
  have hscan : scanOf board clockNs (clearWrite cmd) = scanOf board clockNs cmd := by
    unfold scanOf
    rw [mode_clearWrite, least_clearWrite, hconvert, clearWrite_eq]
    rfl
  have hpaced : paced board (clearWrite cmd) ↔ paced board cmd := by
    rw [clearWrite_eq]
    exact Iff.rfl
  have htimer : (clearWrite cmd).scanBeginSrc = cmd.scanBeginSrc := by
    rw [clearWrite_eq]
  constructor
  · intro h
    refine ⟨fun hp => ?_, fun ht => ?_⟩
    · rw [← hconvert]
      exact h.convert (hpaced.mpr hp)
    · rw [← hscan, ← least_clearWrite]
      exact h.scan (htimer.trans ht)
  · intro h
    refine ⟨fun hp => ?_, fun ht => ?_⟩
    · rw [hconvert]
      exact h.convert (hpaced.mp hp)
    · rw [hscan, least_clearWrite]
      exact h.scan (htimer.symm.trans ht)

theorem scanOf_of_paced (h : paced board cmd) : scanOf board clockNs cmd =
    max (rounded clockNs (mode cmd)
      (clamp (least board cmd) (scanMax clockNs) cmd.scanBeginArg.toNat))
      (convertOf board clockNs cmd * cmd.chanlistLen.toNat) := if_pos h

theorem scanOf_of_not_paced (h : ¬ paced board cmd) : scanOf board clockNs cmd =
    rounded clockNs (mode cmd)
      (clamp (least board cmd) (scanMax clockNs) cmd.scanBeginArg.toNat) := if_neg h

theorem fitted_ge : (roundScanBegin clockNs cmd).toNat ≤
    (roundArgs board clockNs cmd).2.scanBeginArg.toNat := by
  change _ ≤ BitVec.toNat (put _ _ _).2
  unfold put
  split
  next h => exact Nat.le_of_lt h.2.2
  · exact Nat.le_refl _

theorem convertOf_fixArgs (hpaced : paced board cmd) :
    convertOf board clockNs (fixArgs board clockNs cmd).2 = convertOf board clockNs cmd := by
  unfold convertOf
  rw [fixArgs_convert hpaced, clamp_clamp]
  rfl

theorem scanOf_fixArgs (htimer : cmd.scanBeginSrc = trigTimer)
    (hleast : least board cmd < 2 ^ 32) :
    scanOf board clockNs (fixArgs board clockNs cmd).2 = scanOf board clockNs cmd := by
  have hpaced : paced board (fixArgs board clockNs cmd).2 ↔ paced board cmd := Iff.rfl
  have hsame : least board (fixArgs board clockNs cmd).2 = least board cmd := rfl
  unfold scanOf
  rw [fixArgs_scan htimer, least_eq hleast, hsame, clamp_clamp]
  simp only [hpaced]
  by_cases hp : paced board cmd
  · rw [if_pos hp, if_pos hp, convertOf_fixArgs hp]
    rfl
  · rw [if_neg hp, if_neg hp]
    rfl

/-- Step 3 brings no period within the limits that rounding takes out of them. -/
theorem reaches_fixArgs :
    Reaches board clockNs (fixArgs board clockNs cmd).2 ↔ Reaches board clockNs cmd := by
  constructor
  · intro h
    refine ⟨fun hpaced => ?_, fun htimer => ?_⟩
    · rw [← convertOf_fixArgs hpaced]
      exact h.convert hpaced
    · have hscan := h.scan htimer
      rw [← scanOf_fixArgs htimer ((hscan.1.trans hscan.2).trans_lt (scanMax_lt clockNs))]
      exact hscan
  · intro h
    refine ⟨fun hpaced => ?_, fun htimer => ?_⟩
    · rw [@convertOf_fixArgs board clockNs cmd hpaced]
      exact h.convert hpaced
    · have hscan := h.scan htimer
      rw [@scanOf_fixArgs board clockNs cmd htimer
        ((hscan.1.trans hscan.2).trans_lt (scanMax_lt clockNs))]
      exact hscan

theorem ordered_of_reaches (h : Reaches board clockNs cmd) : Ordered board clockNs cmd := by
  refine ⟨fun htimer => ?_, fun hpaced => (h.convert hpaced).1.trans (h.convert hpaced).2⟩
  have hle := (h.scan htimer).1.trans (h.scan htimer).2
  rw [least_eq (hle.trans_lt (scanMax_lt clockNs))]
  exact hle

theorem dvd_scanOf (hclock : 0 < clockNs.toNat) (board : NiBoard) (cmd : Cmd) :
    clockNs.toNat ∣ scanOf board clockNs cmd := by
  by_cases hpaced : paced board cmd
  · rw [scanOf_of_paced hpaced]
    rcases max_choice (rounded clockNs (mode cmd) (clamp (least board cmd) (scanMax clockNs)
      cmd.scanBeginArg.toNat)) (convertOf board clockNs cmd * cmd.chanlistLen.toNat) with h | h
    · rw [h]
      exact Nat.dvd_mul_left _ _
    · rw [h]
      exact (Nat.dvd_mul_left clockNs.toNat _).mul_right _
  · rw [scanOf_of_not_paced hpaced]
    exact Nat.dvd_mul_left _ _

theorem product_lt (hreach : Reaches board clockNs cmd) (hpaced : paced board cmd)
    (htimer : cmd.scanBeginSrc = trigTimer) :
    convertOf board clockNs cmd * cmd.chanlistLen.toNat < 2 ^ 32 := by
  have hhigh := (hreach.scan htimer).2
  rw [scanOf_of_paced hpaced] at hhigh
  exact ((le_max_right _ _).trans hhigh).trans_lt (scanMax_lt clockNs)

section Settling

variable (hclock : 0 < clockNs.toNat) (hfits : ClockFits clockNs)

include hclock hfits

theorem roundNs_scan {ns : U32} (h : ns.toNat ≤ scanMax clockNs) (roundMode : U32) :
    (roundNs clockNs ns roundMode).toNat = rounded clockNs roundMode ns.toNat := by
  have hadd := hfits.scan
  have hslack := slack_lt hclock roundMode
  exact roundNs_eq hclock (by omega)

theorem roundNs_convert {ns : U32} (h : ns.toNat ≤ convertMax clockNs) (roundMode : U32) :
    (roundNs clockNs ns roundMode).toNat = rounded clockNs roundMode ns.toNat := by
  have hadd := hfits.convert
  have hslack := slack_lt hclock roundMode
  exact roundNs_eq hclock (by omega)

/-- What step 4 makes of a command has rounded periods within the limits only if it had. -/
theorem reaches_of_roundArgs (hfix : (fixArgs board clockNs cmd).1 = false)
    (h : Reaches board clockNs (roundArgs board clockNs cmd).2) : Reaches board clockNs cmd := by
  have hright := argsRight_of_fixed hfix
  have hmode : mode (roundArgs board clockNs cmd).2 = mode cmd := rfl
  have hconvert : paced board cmd →
      convertOf board clockNs cmd =
        convertOf board clockNs (roundArgs board clockNs cmd).2 := by
    intro hpaced
    obtain ⟨hlow, hhigh⟩ := hright.convert hpaced
    have hreach := h.convert hpaced
    refine Tested.round_clamp rounded_mono (rounded_rounded hclock) (.inr ⟨?_, ?_⟩) hreach.1
      hreach.2
    · exact clamp_of_mem hlow hhigh
    · change (roundConvert board clockNs cmd).toNat = _
      unfold roundConvert
      rw [if_pos hpaced]
      exact roundNs_convert hclock hfits hhigh _
  refine ⟨fun hpaced => ?_, fun htimer => ?_⟩
  · rw [hconvert hpaced]
    exact h.convert hpaced
  · have hscan := h.scan htimer
    have hleast : (niMinAiScanPeriodNs board cmd.chanlistLen).toNat = least board cmd :=
      least_eq ((hscan.1.trans hscan.2).trans_lt (scanMax_lt clockNs))
    obtain ⟨hlow, hhigh⟩ := hright.scan htimer
    rw [hleast] at hlow
    have hround : (roundScanBegin clockNs cmd).toNat =
        rounded clockNs (mode cmd) cmd.scanBeginArg.toNat := by
      unfold roundScanBegin
      rw [if_pos htimer]
      exact roundNs_scan hclock hfits hhigh _
    by_cases hpaced : paced board cmd
    · rw [@scanOf_of_paced board clockNs (roundArgs board clockNs cmd).2 hpaced,
        ← hconvert hpaced] at hscan
      have hle := round_le_of_le rounded_mono hhigh (hround ▸ fitted_ge)
        ((le_max_left _ _).trans hscan.2)
      rw [scanOf_of_paced hpaced, clamp_of_mem hlow hhigh]
      refine ⟨?_, max_le hle ((le_max_right _ _).trans hscan.2)⟩
      have hconvertLow := (h.convert hpaced).1
      rw [← hconvert hpaced] at hconvertLow
      unfold least
      rw [if_neg hpaced.2]
      exact (Nat.mul_le_mul_right _ hconvertLow).trans (le_max_right _ _)
    · rw [@scanOf_of_not_paced board clockNs (roundArgs board clockNs cmd).2 hpaced]
        at hscan
      have hfitted : (roundArgs board clockNs cmd).2.scanBeginArg.toNat =
          rounded clockNs (mode cmd) cmd.scanBeginArg.toNat := by
        change BitVec.toNat (put _ _ _).2 = _
        rw [put_of_not fun hshort => hpaced hshort.1]
        exact hround
      rw [scanOf_of_not_paced hpaced, Tested.round_clamp rounded_mono (rounded_rounded hclock)
        (.inr ⟨clamp_of_mem hlow hhigh, hfitted⟩) hscan.1 hscan.2]
      exact hscan

section Rounding

variable (hfix : (fixArgs board clockNs cmd).1 = false)

include hfix

theorem roundArgs_convert (hpaced : paced board cmd) :
    (roundArgs board clockNs cmd).2.convertArg.toNat =
      convertOf board clockNs cmd := by
  obtain ⟨hlow, hhigh⟩ := (argsRight_of_fixed hfix).convert hpaced
  change (roundConvert board clockNs cmd).toNat = _
  unfold roundConvert convertOf
  rw [if_pos hpaced, clamp_of_mem hlow hhigh]
  exact roundNs_convert hclock hfits hhigh _

variable (hreach : Reaches board clockNs cmd)

include hreach

theorem roundArgs_scan (htimer : cmd.scanBeginSrc = trigTimer) :
    (roundArgs board clockNs cmd).2.scanBeginArg.toNat =
      scanOf board clockNs cmd := by
  have hright := argsRight_of_fixed hfix
  have hscan := hreach.scan htimer
  have hleast : (niMinAiScanPeriodNs board cmd.chanlistLen).toNat = least board cmd :=
    least_eq ((hscan.1.trans hscan.2).trans_lt (scanMax_lt clockNs))
  obtain ⟨hlow, hhigh⟩ := hright.scan htimer
  rw [hleast] at hlow
  have hround : (roundScanBegin clockNs cmd).toNat =
      rounded clockNs (mode cmd) cmd.scanBeginArg.toNat := by
    unfold roundScanBegin
    rw [if_pos htimer]
    exact roundNs_scan hclock hfits hhigh _
  change BitVec.toNat (put _ _ _).2 = _
  by_cases hpaced : paced board cmd
  · have hproduct : (roundConvert board clockNs cmd * cmd.scanEndArg).toNat =
        convertOf board clockNs cmd * cmd.chanlistLen.toNat := by
      have hconvert : (roundConvert board clockNs cmd).toNat = convertOf board clockNs cmd :=
        roundArgs_convert hclock hfits hfix hpaced
      rw [BitVec.toNat_mul, hconvert, hright.scanEnd]
      exact Nat.mod_eq_of_lt (product_lt hreach hpaced htimer)
    rw [scanOf_of_paced hpaced, clamp_of_mem hlow hhigh, ← hround, ← hproduct]
    unfold put
    split
    next hshort => exact (max_eq_right (Nat.le_of_lt hshort.2.2)).symm
    next hshort =>
      exact (max_eq_left (Nat.not_lt.mp fun hlt => hshort ⟨hpaced, htimer, hlt⟩)).symm
  · rw [put_of_not fun hshort => hpaced hshort.1, scanOf_of_not_paced hpaced,
      clamp_of_mem hlow hhigh]
    exact hround

theorem roundArgs_fixed :
    (fixArgs board clockNs (roundArgs board clockNs cmd).2).1 = false := by
  have hargs := hfix
  unfold fixArgs at hargs ⊢
  simp only [Bool.or_eq_false_iff] at hargs ⊢
  obtain ⟨⟨⟨⟨hstart, hscan⟩, hconvert⟩, hscanEnd⟩, hstop⟩ := hargs
  refine ⟨⟨⟨⟨hstart, ?_⟩, ?_⟩, hscanEnd⟩, hstop⟩
  · by_cases htimer : cmd.scanBeginSrc = trigTimer
    · obtain ⟨hlow, hhigh⟩ := hreach.scan htimer
      have hleast : (niMinAiScanPeriodNs board cmd.chanlistLen).toNat = least board cmd :=
        least_eq ((hlow.trans hhigh).trans_lt (scanMax_lt clockNs))
      have hround := roundArgs_scan hclock hfits hfix hreach htimer
      rw [← hround] at hlow hhigh
      rw [← hleast] at hlow
      unfold scanBeginArg
      rw [if_pos (show (roundArgs board clockNs cmd).2.scanBeginSrc = _ from htimer)]
      exact within_eq_false.mpr ⟨Nat.not_lt.mpr hlow, Nat.not_lt.mpr hhigh⟩
    · have hsame : (roundArgs board clockNs cmd).2.scanBeginArg = cmd.scanBeginArg := by
        change (put _ _ _).2 = _
        rw [put_of_not fun hshort => htimer hshort.2.1]
        exact if_neg htimer
      rw [hsame]
      exact hscan
  · by_cases hpaced : paced board cmd
    · obtain ⟨hlow, hhigh⟩ := hreach.convert hpaced
      rw [← roundArgs_convert hclock hfits hfix hpaced] at hlow hhigh
      unfold convertArg
      rw [if_pos (show (roundArgs board clockNs cmd).2.convertSrc = _ from hpaced.1),
        if_neg hpaced.2]
      exact within_eq_false.mpr ⟨Nat.not_lt.mpr hlow, Nat.not_lt.mpr hhigh⟩
    · have hsame : (roundArgs board clockNs cmd).2.convertArg = cmd.convertArg :=
        if_neg hpaced
      rw [hsame]
      exact hconvert

theorem roundArgs_again :
    (roundArgs board clockNs (roundArgs board clockNs cmd).2).1 =
      false := by
  have hright := argsRight_of_fixed hfix
  refine roundArgs_eq_false.mpr ⟨?_, ?_, ?_⟩
  · unfold roundScanBegin
    split
    next htimer =>
      have hround := roundArgs_scan hclock hfits hfix hreach htimer
      have hhigh := (hreach.scan htimer).2
      rw [← hround] at hhigh
      refine BitVec.eq_of_toNat_eq ?_
      rw [roundNs_scan hclock hfits hhigh, rounded_of_dvd hclock]
      rw [hround]
      exact dvd_scanOf hclock board cmd
    · rfl
  · unfold roundConvert
    split
    next hpaced =>
      have hround := roundArgs_convert hclock hfits hfix hpaced
      have hhigh := (hreach.convert hpaced).2
      rw [← hround] at hhigh
      refine BitVec.eq_of_toNat_eq ?_
      rw [roundNs_convert hclock hfits hhigh, rounded_of_dvd hclock]
      rw [hround]
      exact Nat.dvd_mul_left _ _
    · rfl
  · rintro ⟨hpaced, htimer, hlt⟩
    have hscan := roundArgs_scan hclock hfits hfix hreach htimer
    have hconvert := roundArgs_convert hclock hfits hfix hpaced
    have hend : (roundArgs board clockNs cmd).2.scanEndArg = cmd.chanlistLen :=
      hright.scanEnd
    rw [BitVec.lt_def, BitVec.toNat_mul, hconvert, hend, hscan,
      @scanOf_of_paced board clockNs cmd hpaced,
      Nat.mod_eq_of_lt (product_lt hreach hpaced htimer)] at hlt
    exact absurd hlt (Nat.not_lt.mpr (le_max_right _ _))

end Rounding

theorem bounds_of_reaches (hfix : (fixArgs board clockNs cmd).1 = false)
    (hreach : Reaches board clockNs cmd) :
    Passed board clockNs (roundArgs board clockNs cmd).2 ∧
      Bounds board clockNs (roundArgs board clockNs cmd).2 := by
  have hright := argsRight_of_fixed hfix
  have hpassed : Passed board clockNs (roundArgs board clockNs cmd).2 :=
    ⟨roundArgs_fixed hclock hfits hfix hreach, roundArgs_again hclock hfits hfix hreach⟩
  refine ⟨hpassed, hpassed.bounds hclock ⟨fun htimer => ?_, fun hscan htimer => ?_⟩⟩
  · have hlimits := hreach.scan htimer
    exact (hlimits.1.trans hlimits.2).trans_lt (scanMax_lt clockNs)
  · by_cases hsim : simultaneous board
    · rw [(argsRight_of_fixed hpassed.fixed).unpaced htimer hsim]
      exact (Nat.zero_mul _).trans_lt (Nat.two_pow_pos 32)
    · have hend : (roundArgs board clockNs cmd).2.scanEndArg = cmd.chanlistLen :=
        hright.scanEnd
      rw [roundArgs_convert hclock hfits hfix ⟨htimer, hsim⟩, hend]
      exact product_lt hreach ⟨htimer, hsim⟩ hscan

theorem stages : Stages (niAiCmdtest board clockNs)
    (fun cmd => fixArgs board clockNs (clearWrite cmd))
    (fun cmd => roundArgs board clockNs (clearWrite cmd)) (Supported board)
    (Bounds board clockNs) (Reaches board clockNs) where
  test_eq _ h := niAiCmdtest_eq h
  ok_fix _ h := h.clearWrite.fixArgs
  ok_round _ h := h.clearWrite.roundArgs
  reach_fix _ _ hreach := reaches_fixArgs.mpr (reaches_clearWrite.mpr hreach)
  fixed cmd _ hreach := by
    rw [@clearWrite_of_flags (fixArgs board clockNs (clearWrite cmd)).2 (flags_clearWrite cmd)]
    exact fixArgs_again (ordered_of_reaches (reaches_clearWrite.mpr hreach))
  rounded cmd _ hfix hreach := by
    obtain ⟨hpassed, hbounds⟩ := bounds_of_reaches hclock hfits hfix (reaches_clearWrite.mpr hreach)
    rw [@clearWrite_of_flags (roundArgs board clockNs (clearWrite cmd)).2 (flags_clearWrite cmd)]
    exact ⟨hpassed.fixed, hpassed.rounded, hbounds⟩

theorem tight : Tight (fun cmd => fixArgs board clockNs (clearWrite cmd))
    (fun cmd => roundArgs board clockNs (clearWrite cmd)) (Supported board)
    (Bounds board clockNs) (Reaches board clockNs) where
  reach_of_fix _ _ hreach := reaches_clearWrite.mp (reaches_fixArgs.mp hreach)
  reach_of_round _ _ hfix hreach :=
    reaches_clearWrite.mp (reaches_of_roundArgs hclock hfits hfix hreach)
  reach_of_passed _ _ hfix hround hbounds :=
    reaches_clearWrite.mp (Passed.reaches hclock ⟨hfix, hround⟩ (bounds_clearWrite.mpr hbounds))

end Settling

theorem clockFits_of_le (hclock : 0 < clockNs.toNat) (h : clockNs.toNat ≤ 2 ^ 16) :
    ClockFits clockNs := by
  constructor
  · rw [scanMax_eq]
    omega
  · rw [convertMax_eq]
    omega

/-- The analog input commands that `ni_ai_cmdtest` accepts, and those that it makes acceptable. -/
theorem ai_cmdtest (hspeed : 0 < board.aiSpeed.toNat) (hclock : 0 < clockNs.toNat)
    (hlen : 0 < cmd.chanlistLen.toNat) (h : Supported board cmd) :
    ((niAiCmdtest board clockNs cmd).1 = 0 →
      (niAiCmdtest board clockNs cmd).2 = clearWrite cmd ∧ Countable clockNs cmd ∧
        (Narrow board cmd → Bounds board clockNs cmd ∧
          (ClockFits clockNs → ∀ load ∈ niAiCmd board clockNs (clearWrite cmd), load.fits))) ∧
      (ClockFits clockNs →
        (Settles (niAiCmdtest board clockNs) (Bounds board clockNs) 5 cmd ↔
          Reaches board clockNs cmd)) := by
  refine ⟨fun hret => ⟨accepted_snd h hret, ?_, fun hnarrow => ⟨?_, fun hfits => ?_⟩⟩,
    fun hfits => (stages hclock hfits).settles_iff_reach (tight hclock hfits) h (by omega)⟩
  · have hcountable := ((accepted_iff h).mp hret).countable hclock
    rw [clearWrite_eq] at hcountable
    exact ⟨hcountable.1, hcountable.2, hcountable.3, hcountable.4⟩
  · exact bounds_clearWrite.mp
      (((accepted_iff h).mp hret).bounds hclock (narrow_clearWrite.mpr hnarrow))
  · refine loads_fit hclock hfits hspeed ?_ ((accepted_iff h).mp hret)
      (narrow_clearWrite.mpr hnarrow)
    rw [clearWrite_eq]
    exact hlen

def pci6071e : NiBoard := { aiSpeed := 800 }

def sixteen : Cmd :=
  { startSrc := trigNow, scanBeginSrc := trigTimer, scanBeginArg := 20001, convertSrc := trigTimer
    convertArg := 1234, scanEndSrc := trigCount, stopSrc := trigNone, chanlistLen := 16 }

/-- Sixteen channels, with periods that have to be rounded and a scan that is too short. -/
theorem ai_cmdtest_sixteen :
    Settles (niAiCmdtest pci6071e 50) (Bounds pci6071e 50) 5 sixteen :=
  ((@ai_cmdtest pci6071e 50 sixteen (by decide) (by decide) (by decide)
    ⟨by decide, by decide, by decide, by decide, by decide⟩).2
      (clockFits_of_le (by decide) (by decide))).mpr ⟨by decide, by decide⟩

def opposite : Cmd :=
  { sixteen with flags := 0x40, scanBeginArg := 20000, convertArg := 1250, scanEndArg := 16 }

def overflowing : Cmd :=
  { sixteen with
    scanBeginArg := 4128800, convertArg := 13107000, scanEndArg := 328, chanlistLen := 328 }

/-- The flag of the other direction is cleared in an accepted command, a product is accepted that
overflows, and the longest convert period is never accepted for 257 channels. -/
theorem ai_cmdtest_fails :
    (niAiCmdtest pci6071e 50 opposite).1 = 0 ∧ (niAiCmdtest pci6071e 50 opposite).2.flags = 0 ∧
      (niAiCmdtest pci6071e 200 overflowing).1 = 0 ∧ ¬ 13107000 * 328 ≤ 4128800 ∧
      ¬ Settles (niAiCmdtest pci6071e 50) (fun _ => True) 5
        { sixteen with convertArg := 3276750, chanlistLen := 257 } := by
  refine ⟨by decide +kernel, by decide +kernel, by decide +kernel, by decide, ?_⟩
  rintro ⟨k, hk, hret, -⟩
  have hnone : ∀ k < 5, (niAiCmdtest pci6071e 50 (again (niAiCmdtest pci6071e 50) k
      { sixteen with convertArg := 3276750, chanlistLen := 257 })).1 ≠ 0 := by decide +kernel
  exact hnone k hk hret

end Comedi.NiAiSettles
