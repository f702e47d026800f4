import Comedi.S626Cmdtest

namespace Comedi.S626Settles

open ArgFixes Retests S626Cmdtest SignedTimer
open I8253 (trigRoundMask)
open NiTimer (slack rounded)
open Pci230 (trigExt)
open RtTimer (trigNone trigNow trigFollow trigTimer trigInt trigCount maskSrc cmdtestHelper)

/-- Each source is a single one that the board has. -/
structure Supported (cmd : Cmd) : Prop where
  start : cmd.startSrc = trigNow ∨ cmd.startSrc = trigInt ∨ cmd.startSrc = trigExt
  scanBegin : cmd.scanBeginSrc = trigTimer ∨ cmd.scanBeginSrc = trigExt ∨
    cmd.scanBeginSrc = trigFollow
  convert : cmd.convertSrc = trigTimer ∨ cmd.convertSrc = trigExt ∨ cmd.convertSrc = trigNow
  scanEnd : cmd.scanEndSrc = trigCount
  stop : cmd.stopSrc = trigCount ∨ cmd.stopSrc = trigNone

/-- The scans and the conversions are both timed. -/
def BothTimed (cmd : Cmd) : Prop := cmd.scanBeginSrc = trigTimer ∧ cmd.convertSrc = trigTimer

/-- The counter is loaded, with the ticks of the period. -/
def Loads (ticks : Option U32) (period : U32) : Prop :=
  ∃ tick, ticks = some tick ∧ 0 ≤ tick.toInt ∧ (tick.toInt + 1) * 500 = period.toNat

/-- The scan is long enough, and the counters get what the command says. -/
structure Exact (cmd : Cmd) : Prop where
  long : BothTimed cmd → cmd.convertArg.toNat * cmd.scanEndArg.toNat ≤ cmd.scanBeginArg.toNat
  scanBegin : cmd.scanBeginSrc = trigTimer → Loads (s626AiCmd cmd).scanBegin cmd.scanBeginArg
  convert : cmd.convertSrc = trigTimer → Loads (s626AiCmd cmd).convert cmd.convertArg

/-- The convert period within its limits, in ticks of the clock. -/
def convertOf (cmd : Cmd) : Nat :=
  rounded base (mode cmd) (clamp maxSpeed.toNat minSpeed.toNat cmd.convertArg.toNat)

/-- The conversions of a scan take no longer than the longest period of a scan. -/
def Reach (cmd : Cmd) : Prop :=
  BothTimed cmd → convertOf cmd * cmd.chanlistLen.toNat ≤ minSpeed.toNat

/-- A period that step 3 leaves as it is. -/
def Within (ns : U32) : Prop := maxSpeed.toNat ≤ ns.toNat ∧ ns.toNat ≤ minSpeed.toNat

/-- A period that steps 3 and 4 leave as it is. -/
structure Period (ns : U32) : Prop where
  limits : Within ns
  whole : base.toNat ∣ ns.toNat

/-- What step 3 leaves as it is. -/
structure Fixed (cmd : Cmd) : Prop where
  start : (startArg cmd.startSrc cmd.startArg).1 = false
  scanBegin : (triggerArg cmd.scanBeginSrc cmd.scanBeginArg).1 = false
  convert : (triggerArg cmd.convertSrc cmd.convertArg).1 = false
  scanEnd : cmd.scanEndArg = cmd.chanlistLen
  stop : (stopArg cmd.stopSrc cmd.stopArg).1 = false

/-- What step 4 leaves as it is, with scans that are long enough. -/
structure Paced (cmd : Cmd) : Prop where
  scanBegin : cmd.scanBeginSrc = trigTimer → Period cmd.scanBeginArg
  convert : cmd.convertSrc = trigTimer → Period cmd.convertArg
  long : BothTimed cmd → cmd.convertArg.toNat * cmd.scanEndArg.toNat ≤ cmd.scanBeginArg.toNat

variable {cmd : Cmd} {ns src arg m : U32}

section Periods

theorem base_pos : 0 < base.toNat := by decide

theorem base_lt : base.toNat < 2 ^ 31 := by decide

theorem maxSpeed_whole : base.toNat ∣ maxSpeed.toNat := by decide

theorem minSpeed_whole : base.toNat ∣ minSpeed.toNat := by decide

theorem Within.small (h : Within ns) (m : U32) : ns.toNat + slack base m < 2 ^ 31 := by
  have hslack := NiTimer.slack_lt base_pos m
  have hle : ns.toNat ≤ 2000000000 := h.2
  have hbase : base.toNat = 500 := rfl
  omega

theorem Within.round (h : Within ns) (m : U32) :
    (roundNs base ns m).toNat = rounded base m ns.toNat :=
  roundNs_toNat base_pos base_lt (h.small m)

/-- The limits are whole numbers of ticks, so rounding stays between them. -/
theorem Within.period (h : Within ns) (m : U32) : Period (roundNs base ns m) := by
  have hlow := @NiTimer.rounded_mono base m _ _ h.1
  have hhigh := @NiTimer.rounded_mono base m _ _ h.2
  rw [NiTimer.rounded_of_dvd base_pos maxSpeed_whole] at hlow
  rw [NiTimer.rounded_of_dvd base_pos minSpeed_whole] at hhigh
  refine ⟨?_, ?_⟩
  · unfold Within
    rw [h.round m]
    exact ⟨hlow, hhigh⟩
  · rw [h.round m]
    exact Nat.dvd_mul_left _ _

theorem Period.round_eq (h : Period ns) (m : U32) : roundNs base ns m = ns := by
  apply BitVec.eq_of_toNat_eq
  rw [h.limits.round m, NiTimer.rounded_of_dvd base_pos h.whole]

theorem Period.loads (h : Period ns) (hsrc : src = trigTimer) (m : U32) :
    Loads (timerTicks src ns m) ns := by
  obtain ⟨ticks, hticks⟩ := h.whole
  have hdivider := divider_of_ticks base_pos base_lt hticks (h.limits.small m)
  have hlow : 200000 ≤ ns.toNat := h.limits.1
  have hhigh : ns.toNat ≤ 2000000000 := h.limits.2
  have hbase : base.toNat = 500 := rfl
  have hone : (1 : U32).toNat = 1 := rfl
  rw [hbase] at hticks
  have htick : (divider base ns m - 1).toNat = ticks - 1 := by
    rw [BitVec.toNat_sub, hdivider, hone]
    omega
  have hint : (divider base ns m - 1).toInt = ((ticks - 1 : Nat) : Int) := by
    rw [BitVec.toInt_eq_toNat_of_lt (by omega), htick]
  refine ⟨divider base ns m - 1, if_pos hsrc, ?_, ?_⟩
  · rw [hint]
    exact Int.natCast_nonneg _
  · rw [hint]
    omega

end Periods

section Fixes

theorem sound_startArg (src : U32) : Sound (startArg src) :=
  sound_ite (sound_put (39 < ·) (by decide)) (sound_only 0)

theorem within_toNat (ns : U32) :
    (within maxSpeed minSpeed ns).2.toNat = clamp maxSpeed.toNat minSpeed.toNat ns.toNat :=
  within_snd (fun _ _ => BitVec.lt_def.symm) maxSpeed minSpeed ns

theorem within_within (ns : U32) : Within (within maxSpeed minSpeed ns).2 := by
  unfold Within
  rw [within_toNat]
  exact ⟨le_clamp (by decide) _, clamp_le _ _ _⟩

theorem within_iff : (within maxSpeed minSpeed ns).1 = false ↔ Within ns :=
  within_eq_false.trans (and_congr BitVec.not_lt BitVec.not_lt)

theorem sound_triggerArg (src : U32) : Sound (triggerArg src) :=
  sound_ite (sound_put (39 < ·) (by decide)) (sound_ite
    ⟨fun _ => within_kept, fun ns => within_iff.mpr (within_within ns)⟩ sound_keep)

theorem sound_stopArg (src : U32) : Sound (stopArg src) :=
  sound_ite (sound_put (0x00ffffff < ·) (by decide)) (sound_only 0)

theorem fixArgs_eq_false : (fixArgs cmd).1 = false ↔ Fixed cmd := by
  unfold fixArgs
  dsimp only
  simp only [Bool.or_eq_false_iff, only_eq_false]
  constructor
  · rintro ⟨⟨⟨⟨hstart, hscanBegin⟩, hconvert⟩, hscanEnd⟩, hstop⟩
    exact ⟨hstart, hscanBegin, hconvert, hscanEnd, hstop⟩
  · rintro ⟨hstart, hscanBegin, hconvert, hscanEnd, hstop⟩
    exact ⟨⟨⟨⟨hstart, hscanBegin⟩, hconvert⟩, hscanEnd⟩, hstop⟩

theorem fixArgs_kept (h : (fixArgs cmd).1 = false) : (fixArgs cmd).2 = cmd := by
  obtain ⟨hstart, hscanBegin, hconvert, hscanEnd, hstop⟩ := fixArgs_eq_false.mp h
  unfold fixArgs
  dsimp only
  rw [(sound_startArg _).kept _ hstart, (sound_triggerArg _).kept _ hscanBegin,
    (sound_triggerArg _).kept _ hconvert, (sound_stopArg _).kept _ hstop, only_snd]
  exact congrArg (fun n => { cmd with scanEndArg := n }) hscanEnd.symm

theorem fixed_fixArgs (cmd : Cmd) : Fixed (fixArgs cmd).2 where
  start := (sound_startArg cmd.startSrc).done cmd.startArg
  scanBegin := (sound_triggerArg cmd.scanBeginSrc).done cmd.scanBeginArg
  convert := (sound_triggerArg cmd.convertSrc).done cmd.convertArg
  scanEnd := only_snd
  stop := (sound_stopArg cmd.stopSrc).done cmd.stopArg

theorem triggerArg_timer (hsrc : src = trigTimer) :
    triggerArg src arg = within maxSpeed minSpeed arg := by
  unfold triggerArg
  rw [hsrc, if_neg (by decide), if_pos rfl]

theorem triggerArg_within (hsrc : src = trigTimer) (h : (triggerArg src arg).1 = false) :
    Within arg := by
  rw [triggerArg_timer hsrc] at h
  exact within_iff.mp h

/-- Step 3 makes no difference to a period by which a timed one is replaced. -/
theorem triggerArg_replaced {arg' : U32} (h : (triggerArg src arg).1 = false)
    (hkept : src ≠ trigTimer → arg' = arg) (hwithin : src = trigTimer → Within arg') :
    (triggerArg src arg').1 = false := by
  by_cases hsrc : src = trigTimer
  · rw [triggerArg_timer hsrc]
    exact within_iff.mpr (hwithin hsrc)
  · rwa [hkept hsrc]

end Fixes

section Rounds

theorem roundTimed_timer (hsrc : src = trigTimer) :
    roundTimed src arg m = only (roundNs base arg m) arg := if_pos hsrc

theorem roundTimed_other (hsrc : src ≠ trigTimer) : roundTimed src arg m = (false, arg) :=
  if_neg hsrc

theorem roundTimed_kept (h : (roundTimed src arg m).1 = false) :
    (roundTimed src arg m).2 = arg := by
  by_cases hsrc : src = trigTimer
  · rw [roundTimed_timer hsrc] at h ⊢
    exact put_kept h
  · rw [roundTimed_other hsrc]

theorem roundTimed_period (hsrc : src = trigTimer) (h : (triggerArg src arg).1 = false) :
    Period (roundTimed src arg m).2 := by
  rw [roundTimed_timer hsrc, only_snd]
  exact (triggerArg_within hsrc h).period m

theorem roundTimed_again (h : src = trigTimer → Period arg) :
    (roundTimed src arg m).1 = false := by
  by_cases hsrc : src = trigTimer
  · rw [roundTimed_timer hsrc, only_eq_false]
    exact ((h hsrc).round_eq m).symm
  · rw [roundTimed_other hsrc]

theorem roundArgs_kept (h : (roundArgs cmd).1 = false) : (roundArgs cmd).2 = cmd := by
  unfold roundArgs at h ⊢
  dsimp only at h ⊢
  obtain ⟨hperiods, hlong⟩ := Bool.or_eq_false_iff.mp h
  obtain ⟨hscanBegin, hconvert⟩ := Bool.or_eq_false_iff.mp hperiods
  rw [roundTimed_kept hscanBegin, roundTimed_kept hconvert] at hlong ⊢
  have hkept : (lengthen cmd).2 = cmd.scanBeginArg := put_kept hlong
  change { cmd with scanBeginArg := (lengthen cmd).2 } = cmd
  rw [hkept]

theorem Paced.roundArgs (h : Paced cmd) : (roundArgs cmd).1 = false := by
  unfold S626Cmdtest.roundArgs
  dsimp only
  have hscanBegin := roundTimed_again (m := mode cmd) h.scanBegin
  have hconvert := roundTimed_again (m := mode cmd) h.convert
  rw [roundTimed_kept hscanBegin, roundTimed_kept hconvert, hscanBegin, hconvert]
  refine put_eq_false.mpr fun hshort => ?_
  have hlong := h.long ⟨hshort.2.1, hshort.1⟩
  have hless : cmd.scanBeginArg.toNat < (cmd.convertArg * cmd.scanEndArg).toNat :=
    BitVec.lt_def.mp hshort.2.2
  rw [BitVec.toNat_mul] at hless
  exact absurd (hless.trans_le (Nat.mod_le _ _)) (Nat.not_lt.mpr hlong)

theorem Paced.exact (h : Paced cmd) : Exact cmd where
  long := h.long
  scanBegin hsrc := (h.scanBegin hsrc).loads hsrc (mode cmd)
  convert hsrc := (h.convert hsrc).loads hsrc (mode cmd)

theorem convert_round (hconvert : cmd.convertSrc = trigTimer) (hfix : Fixed cmd) :
    (roundTimed cmd.convertSrc cmd.convertArg (mode cmd)).2.toNat = convertOf cmd := by
  have hwithin := triggerArg_within hconvert hfix.convert
  unfold convertOf
  rw [roundTimed_timer hconvert, only_snd, hwithin.round, clamp_of_mem hwithin.1 hwithin.2]

theorem convertOf_whole (cmd : Cmd) : base.toNat ∣ convertOf cmd := Nat.dvd_mul_left _ _

/-- A scan that can be long enough is so after step 4. -/
theorem paced_roundArgs (hfix : Fixed cmd) (hreach : Reach cmd) : Paced (roundArgs cmd).2 := by
  have hproduct : BothTimed cmd →
      ((roundTimed cmd.convertSrc cmd.convertArg (mode cmd)).2 * cmd.scanEndArg).toNat =
        convertOf cmd * cmd.chanlistLen.toNat := by
    intro hboth
    have hle : convertOf cmd * cmd.chanlistLen.toNat ≤ 2000000000 := hreach hboth
    rw [BitVec.toNat_mul, convert_round hboth.2 hfix, hfix.scanEnd]
    exact Nat.mod_eq_of_lt (by omega)
  unfold S626Cmdtest.roundArgs lengthen
  dsimp only
  constructor
  · intro hscan
    have hperiod := roundTimed_period (m := mode cmd) hscan hfix.scanBegin
    dsimp only at hscan ⊢
    unfold put
    split
    next hshort =>
      have hlow := BitVec.lt_def.mp hshort.2.2
      have hexact := hproduct ⟨hscan, hshort.1⟩
      refine ⟨⟨hperiod.limits.1.trans hlow.le, ?_⟩, ?_⟩
      · rw [hexact]
        exact hreach ⟨hscan, hshort.1⟩
      · rw [hexact]
        exact (convertOf_whole cmd).mul_right _
    next hlong => exact hperiod
  · exact fun hconvert => roundTimed_period hconvert hfix.convert
  · intro (hboth : BothTimed cmd)
    have hexact := hproduct hboth
    have hlen : convertOf cmd * cmd.scanEndArg.toNat = convertOf cmd * cmd.chanlistLen.toNat := by
      rw [hfix.scanEnd]
    dsimp only
    rw [convert_round hboth.2 hfix, hlen]
    unfold put
    split
    next hshort => exact hexact.ge
    next hlong =>
      by_contra hless
      refine hlong ⟨hboth.2, hboth.1, BitVec.lt_def.mpr ?_⟩
      rw [hexact]
      exact Nat.lt_of_not_le hless

end Rounds

section Tests

theorem Supported.masked (h : Supported cmd) : maskSources cmd = (false, cmd) := by
  have hstart : maskSrc cmd.startSrc (trigNow ||| trigInt ||| trigExt) =
      (cmd.startSrc, false) := by
    rcases h.start with hsrc | hsrc | hsrc <;> rw [hsrc] <;> decide
  have hscanBegin : maskSrc cmd.scanBeginSrc (trigTimer ||| trigExt ||| trigFollow) =
      (cmd.scanBeginSrc, false) := by
    rcases h.scanBegin with hsrc | hsrc | hsrc <;> rw [hsrc] <;> decide
  have hconvert : maskSrc cmd.convertSrc (trigTimer ||| trigExt ||| trigNow) =
      (cmd.convertSrc, false) := by
    rcases h.convert with hsrc | hsrc | hsrc <;> rw [hsrc] <;> decide
  have hscanEnd : maskSrc cmd.scanEndSrc trigCount = (cmd.scanEndSrc, false) := by
    rw [h.scanEnd]
    decide
  have hstop : maskSrc cmd.stopSrc (trigCount ||| trigNone) = (cmd.stopSrc, false) := by
    rcases h.stop with hsrc | hsrc <;> rw [hsrc] <;> decide
  unfold maskSources cmdtestHelper
  dsimp only
  rw [hstart, hscanBegin, hconvert, hscanEnd, hstop]
  rfl

theorem Supported.sources (h : Supported cmd) : ¬ badSources cmd := by
  unfold badSources
  rintro (⟨htimer, hext, hfollow⟩ | ⟨htimer, hext, hnow⟩ | ⟨hcount, hnone⟩)
  · exact h.scanBegin.elim htimer (·.elim hext hfollow)
  · exact h.convert.elim htimer (·.elim hext hnow)
  · exact h.stop.elim hcount hnone

theorem cmdtest_eq (h : Supported cmd) : s626AiCmdtest cmd =
    if (fixArgs cmd).1 then (3, (fixArgs cmd).2)
    else (if (roundArgs cmd).1 then 4 else 0, (roundArgs cmd).2) := by
  unfold s626AiCmdtest
  rw [h.masked]
  dsimp only
  rw [if_neg Bool.false_ne_true, if_neg h.sources]
  split
  · rfl
  next hfix => rw [fixArgs_kept (Bool.eq_false_iff.mpr hfix)]

theorem convertOf_fix (hconvert : cmd.convertSrc = trigTimer) :
    convertOf (fixArgs cmd).2 = convertOf cmd := by
  have hclamp : (fixArgs cmd).2.convertArg.toNat =
      clamp maxSpeed.toNat minSpeed.toNat cmd.convertArg.toNat := by
    change (triggerArg cmd.convertSrc cmd.convertArg).2.toNat = _
    rw [triggerArg_timer hconvert, within_toNat]
  unfold convertOf
  rw [hclamp, clamp_clamp]
  rfl

theorem reach_fix : Reach (fixArgs cmd).2 ↔ Reach cmd :=
  forall_congr' fun (hboth : BothTimed cmd) => by
    rw [convertOf_fix hboth.2]
    rfl

theorem convertOf_round (hconvert : cmd.convertSrc = trigTimer) (hfix : Fixed cmd) :
    convertOf (roundArgs cmd).2 = convertOf cmd := by
  have hround : (roundArgs cmd).2.convertArg.toNat = convertOf cmd := convert_round hconvert hfix
  have hperiod := roundTimed_period (m := mode cmd) hconvert hfix.convert
  have hlimits : Within (roundArgs cmd).2.convertArg := hperiod.limits
  unfold convertOf at hround ⊢
  rw [clamp_of_mem hlimits.1 hlimits.2, hround]
  exact NiTimer.rounded_rounded base_pos _

theorem reach_round (hfix : Fixed cmd) : Reach (roundArgs cmd).2 ↔ Reach cmd :=
  forall_congr' fun (hboth : BothTimed cmd) => by
    rw [convertOf_round hboth.2 hfix]
    rfl

theorem fixed_roundArgs (hfix : Fixed cmd) (hpaced : Paced (roundArgs cmd).2) :
    Fixed (roundArgs cmd).2 where
  start := hfix.start
  scanBegin := by
    refine triggerArg_replaced hfix.scanBegin (fun hsrc => ?_) fun hsrc =>
      (hpaced.scanBegin hsrc).limits
    have hnot : ¬ (cmd.convertSrc = trigTimer ∧ cmd.scanBeginSrc = trigTimer ∧
        (roundTimed cmd.scanBeginSrc cmd.scanBeginArg (mode cmd)).2 <
          (roundTimed cmd.convertSrc cmd.convertArg (mode cmd)).2 * cmd.scanEndArg) :=
      fun hshort => hsrc hshort.2.1
    have hsame : (roundArgs cmd).2.scanBeginArg =
        (roundTimed cmd.scanBeginSrc cmd.scanBeginArg (mode cmd)).2 := by
      change (put _ _ _).2 = _
      rw [put_of_not hnot]
    exact hsame.trans (congrArg Prod.snd (roundTimed_other hsrc))
  convert := triggerArg_replaced hfix.convert
    (fun hsrc => congrArg Prod.snd (roundTimed_other hsrc)) fun hsrc =>
      (hpaced.convert hsrc).limits
  scanEnd := hfix.scanEnd
  stop := hfix.stop

theorem stages : Stages s626AiCmdtest fixArgs roundArgs Supported Exact Reach where
  test_eq _ := cmdtest_eq
  ok_fix _ h := ⟨h.start, h.scanBegin, h.convert, h.scanEnd, h.stop⟩
  ok_round _ h := ⟨h.start, h.scanBegin, h.convert, h.scanEnd, h.stop⟩
  reach_fix _ _ := reach_fix.mpr
  fixed cmd _ _ := fixArgs_eq_false.mpr (fixed_fixArgs cmd)
  rounded cmd _ hfix hreach := by
    have hfixed := fixArgs_eq_false.mp hfix
    have hpaced := paced_roundArgs hfixed hreach
    exact ⟨fixArgs_eq_false.mpr (fixed_roundArgs hfixed hpaced), hpaced.roundArgs, hpaced.exact⟩

theorem tight : Tight fixArgs roundArgs Supported Exact Reach where
  reach_of_fix _ _ := reach_fix.mp
  reach_of_round _ _ hfix := (reach_round (fixArgs_eq_false.mp hfix)).mp
  reach_of_passed cmd _ hfix hround hexact hboth := by
    have hfixed := fixArgs_eq_false.mp hfix
    have hlong := hexact.long hboth
    have hconvert : cmd.convertArg.toNat = convertOf cmd := by
      rw [← convert_round hboth.2 hfixed]
      have hkept := congrArg Cmd.convertArg (roundArgs_kept hround)
      exact congrArg BitVec.toNat hkept.symm
    rw [← hconvert, ← hfixed.scanEnd]
    exact hlong.trans (triggerArg_within hboth.1 hfixed.scanBegin).2

/-- Step 4 raises the scan period to the product of the conversions after step 3 has limited it:
a product that the limit does not admit is never accepted as it is. -/
theorem settles_five_iff (h : Supported cmd) : Settles s626AiCmdtest Exact 5 cmd ↔ Reach cmd :=
  stages.settles_iff_reach tight h (by decide)

theorem accepted_kept (h : Supported cmd) (hret : (s626AiCmdtest cmd).1 = 0) :
    (s626AiCmdtest cmd).2 = cmd := by
  obtain ⟨hfix, hround⟩ := (stages.accepted_iff h).mp hret
  rw [cmdtest_eq h, hfix, if_neg Bool.false_ne_true]
  exact roundArgs_kept hround

end Tests

end Comedi.S626Settles
