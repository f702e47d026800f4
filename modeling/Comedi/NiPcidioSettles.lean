import Comedi.NiPcidioCmdtest

namespace Comedi.NiPcidioSettles

open ArgFixes NiPcidioCmdtest Retests SignedTimer
open ConfigRetry (trigRoundNearest trigRoundDown trigRoundUp)
open I8253 (trigRoundMask)
open NiTimer (slack rounded)
open Pci230 (trigExt crEdge crInvert)
open RtTimer (trigNone trigNow trigTimer trigInt trigCount maskSrc cmdtestHelper)

/-- Steps 3 and 4 for a timed command of which only the period can be wrong. -/
def tune (roundMode ns : U32) : Int × U32 :=
  if ns < timerBase then (3, timerBase)
  else (if ns ≠ roundNs timerBase ns roundMode then 4 else 0, roundNs timerBase ns roundMode)

/-- The delay that is written, a number of ticks that is not negative, is the period. -/
def Written (ns : U32) : Prop :=
  0 ≤ (divider timerBase ns trigRoundNearest).toInt ∧
    (divider timerBase ns trigRoundNearest).toInt * 50 = ns.toNat

/-- The period stays a positive `int` in both roundings. -/
def Low (roundMode ns : U32) : Prop :=
  ns.toNat + slack timerBase roundMode < 2 ^ 31 ∧
    rounded timerBase roundMode ns.toNat + slack timerBase roundMode < 2 ^ 31

variable {ns m : U32} {cmd : Cmd}

section Periods

theorem base_pos : 0 < timerBase.toNat := by decide

theorem base_lt : timerBase.toNat < 2 ^ 31 := by decide

theorem slack_nearest : slack timerBase trigRoundNearest = 25 := rfl

theorem slack_pos (h : m ≠ trigRoundDown) : 0 < slack timerBase m := by
  unfold slack
  rw [if_neg h]
  split
  · decide
  · decide

theorem tune_low (h : ns < timerBase) : tune m ns = (3, timerBase) := if_pos h

theorem tune_high (h : timerBase.toNat ≤ ns.toNat) :
    tune m ns =
      (if ns ≠ roundNs timerBase ns m then 4 else 0, roundNs timerBase ns m) :=
  if_neg (Nat.not_lt.mpr h)

/-- Past the positive periods rounding changes a period unless it rounds down. -/
theorem round_ne (hslack : 0 < slack timerBase m) (h : 2 ^ 31 ≤ ns.toNat + slack timerBase m) :
    roundNs timerBase ns m ≠ ns := by
  have hbase : timerBase.toNat = 50 := rfl
  have hlt := NiTimer.slack_lt base_pos m
  have hns := ns.isLt
  intro heq
  have hround := roundNs_negative base_pos base_lt h
  rw [heq, hbase] at hround
  omega

theorem not_written (h : 2 ^ 31 ≤ ns.toNat + 25) : ¬ Written ns := by
  rintro ⟨hpos, hperiod⟩
  refine round_ne (m := trigRoundNearest) (by decide) h ?_
  have hlt := (divider timerBase ns trigRoundNearest).isLt
  have hns := ns.isLt
  have hbase : timerBase.toNat = 50 := rfl
  apply BitVec.eq_of_toNat_eq
  unfold roundNs
  rw [BitVec.toNat_mul, hbase]
  generalize divider timerBase ns trigRoundNearest = d at *
  have htoNat : (d.toNat : Int) = d.toInt := by
    rw [BitVec.toInt_eq_toNat_cond] at hpos ⊢
    split at hpos
    next hsmall => rw [if_pos hsmall]
    next hlarge => omega
  omega

/-- A positive period that is a number of ticks is accepted, and written. -/
theorem accepted_of_ticks (hbase : timerBase.toNat ≤ ns.toNat) (hwhole : timerBase.toNat ∣ ns.toNat)
    (h : ns.toNat + slack timerBase m < 2 ^ 31) : (tune m ns).1 = 0 ∧ Written ns := by
  obtain ⟨ticks, hticks⟩ := hwhole
  have hround : roundNs timerBase ns m = ns := by
    apply BitVec.eq_of_toNat_eq
    rw [roundNs_toNat base_pos base_lt h, hticks]
    exact NiTimer.rounded_of_dvd base_pos (Nat.dvd_mul_right _ _)
  have hval : timerBase.toNat = 50 := rfl
  have hperiod : ns.toNat = 50 * ticks := by rw [hticks, hval]
  have hnear : ns.toNat + slack timerBase trigRoundNearest < 2 ^ 31 := by
    rw [slack_nearest]
    omega
  have hdivider := divider_of_ticks base_pos base_lt hticks hnear
  have hint : (divider timerBase ns trigRoundNearest).toInt = (ticks : Int) := by
    rw [BitVec.toInt_eq_toNat_of_lt (by omega), hdivider]
  refine ⟨?_, ?_, ?_⟩
  · rw [tune_high hbase]
    exact if_neg (not_not.mpr hround.symm)
  · rw [hint]
    exact Int.natCast_nonneg _
  · rw [hint]
    omega

theorem settles_base (n : Nat) : Settles (tune m) Written (n + 1) timerBase := by
  have hslack := NiTimer.slack_lt base_pos m
  have hval : timerBase.toNat = 50 := rfl
  obtain ⟨hret, hwritten⟩ :=
    accepted_of_ticks (m := m) (Nat.le_refl _) (Nat.dvd_refl timerBase.toNat) (by omega)
  exact settles_now hret hwritten n

theorem settles_short (h : ns < timerBase) (n : Nat) :
    Settles (tune m) Written (n + 2) ns := by
  refine Settles.next ?_
  rw [tune_low h]
  exact settles_base n

theorem settles_low (h : Low m ns) (n : Nat) : Settles (tune m) Written (n + 2) ns := by
  by_cases hshort : ns < timerBase
  · exact settles_short hshort n
  have hbase : timerBase.toNat ≤ ns.toNat := Nat.not_lt.mp hshort
  have hround := roundNs_toNat base_pos base_lt h.1
  have hmono := @NiTimer.rounded_mono timerBase m _ _ hbase
  rw [NiTimer.rounded_of_dvd base_pos (Nat.dvd_refl _)] at hmono
  have haccepted := @accepted_of_ticks (roundNs timerBase ns m) m (hround ▸ hmono)
    (hround ▸ Nat.dvd_mul_left _ _) (hround ▸ h.2)
  refine Settles.next ?_
  rw [tune_high hbase]
  exact settles_now haccepted.1 haccepted.2 n

theorem steps_to_zero {ns r s : Nat} (hs : 0 < s) (hlt : s < 50) (h : 2 ^ 31 ≤ ns + s)
    (hr : r = (2 ^ 32 - (2 ^ 32 - (ns + s)) / 50 * 50) % 2 ^ 32) :
    (r = 0 ↔ 2 ^ 32 < ns + s + 50) ∧
      (r ≠ 0 → 2 ^ 31 ≤ r + s ∧ ∀ n, 2 ^ 32 < r + s + 50 * n ↔ 2 ^ 32 < ns + s + 50 * (n + 1)) := by
  have hle := Nat.div_mul_le_self (2 ^ 32 - (ns + s)) 50
  have hmod := Nat.lt_div_mul_add (a := 2 ^ 32 - (ns + s)) (by decide : 0 < 50)
  generalize (2 ^ 32 - (ns + s)) / 50 = k at hle hmod hr
  rcases Nat.eq_zero_or_pos k with hk | hk
  · subst hk
    have hr0 : r = 0 := hr
    exact ⟨iff_of_true hr0 (by omega), fun hne => absurd hr0 hne⟩
  · rw [Nat.mod_eq_of_lt (by omega)] at hr
    refine ⟨iff_of_false (by omega) (by omega), fun _ => ⟨by omega, fun n => ?_⟩⟩
    constructor
    · intro hn
      omega
    · intro hn
      omega

theorem tune_negative (hslack : 0 < slack timerBase m)
    (h : 2 ^ 31 ≤ ns.toNat + slack timerBase m) : tune m ns = (4, roundNs timerBase ns m) := by
  have hval : timerBase.toNat = 50 := rfl
  have hlt := NiTimer.slack_lt base_pos m
  rw [tune_high (by omega), if_pos (round_ne hslack h).symm]

/-- A period that has become negative goes up by a tick with every rounding, until it is zero and
is put right. -/
theorem settles_negative (hslack : 0 < slack timerBase m) (n : Nat)
    (h : 2 ^ 31 ≤ ns.toNat + slack timerBase m) :
    Settles (tune m) Written (n + 2) ns ↔
      0 < n ∧ 2 ^ 32 < ns.toNat + slack timerBase m + 50 * n := by
  have hamended : ∀ ns', 2 ^ 31 ≤ ns'.toNat + slack timerBase m → (tune m ns').1 ≠ 0 := by
    intro ns' hns'
    rw [tune_negative hslack hns']
    exact (by decide : (4 : Int) ≠ 0)
  have hzero : ∀ r : U32, r.toNat = 0 → r < timerBase := by
    intro r hr
    rw [BitVec.lt_def, hr]
    exact base_pos
  induction n generalizing ns with
  | zero =>
    obtain ⟨-, hmore⟩ := steps_to_zero hslack (NiTimer.slack_lt base_pos m) h
      (roundNs_negative base_pos base_lt h)
    rw [settles_of_amended (hamended ns h), tune_negative hslack h]
    dsimp only
    refine iff_of_false ?_ fun hpos => absurd hpos.1 (Nat.lt_irrefl 0)
    have hfails : (tune m (roundNs timerBase ns m)).1 ≠ 0 := by
      by_cases hr : (roundNs timerBase ns m).toNat = 0
      · rw [tune_low (hzero _ hr)]
        exact (by decide : (3 : Int) ≠ 0)
      · exact hamended _ (hmore hr).1
    rw [settles_of_amended hfails]
    exact not_settles_zero _
  | succ n ih =>
    obtain ⟨hnow, hmore⟩ := steps_to_zero hslack (NiTimer.slack_lt base_pos m) h
      (roundNs_negative base_pos base_lt h)
    rw [settles_of_amended (hamended ns h), tune_negative hslack h]
    dsimp only
    by_cases hr : (roundNs timerBase ns m).toNat = 0
    · have hlast := hnow.mp hr
      exact iff_of_true (settles_short (hzero _ hr) n) ⟨Nat.succ_pos n, by omega⟩
    · obtain ⟨hagain, hcount⟩ := hmore hr
      refine (ih hagain).trans ?_
      rw [hcount n]
      refine and_congr_left fun hn => iff_of_true ?_ (Nat.succ_pos n)
      have hnot := mt hnow.mpr hr
      omega

theorem stable_tune (m : U32) : Stable (tune m) := by
  intro ns hret
  by_cases hshort : ns < timerBase
  · rw [tune_low hshort] at hret
    exact absurd (show (3 : Int) = 0 from hret) (by decide)
  · rw [tune_high (Nat.not_lt.mp hshort)] at hret ⊢
    by_contra hne
    rw [if_pos (Ne.symm hne)] at hret
    exact absurd (show (4 : Int) = 0 from hret) (by decide)

theorem round_down (h : 2 ^ 31 ≤ ns.toNat) : (roundNs timerBase ns trigRoundDown).toNat =
    (2 ^ 32 - (2 ^ 32 - ns.toNat) / 50 * 50) % 2 ^ 32 :=
  @roundNs_negative timerBase ns trigRoundDown base_pos base_lt h

theorem round_down_fixed (h : 2 ^ 31 ≤ ns.toNat) (hticks : 50 ∣ 2 ^ 32 - ns.toNat) :
    roundNs timerBase ns trigRoundDown = ns := by
  have hns := ns.isLt
  apply BitVec.eq_of_toNat_eq
  rw [round_down h, Nat.div_mul_cancel hticks, Nat.sub_sub_self hns.le, Nat.mod_eq_of_lt hns]

theorem not_settles_down (h : 2 ^ 31 ≤ ns.toNat) (hticks : 50 ∣ 2 ^ 32 - ns.toNat) (n : Nat) :
    ¬ Settles (tune trigRoundDown) Written (n + 1) ns := by
  have hval : timerBase.toNat = 50 := rfl
  have haccepted : (tune trigRoundDown ns).1 = 0 := by
    rw [tune_high (by omega), round_down_fixed h hticks]
    exact if_neg (not_not.mpr rfl)
  rw [settles_of_accepted (stable_tune trigRoundDown) haccepted]
  exact not_written (by omega)

/-- Rounding down keeps a negative number of ticks, which is not what is written. -/
theorem settles_down (h : 2 ^ 31 ≤ ns.toNat) (n : Nat) :
    Settles (tune trigRoundDown) Written (n + 3) ns ↔ 2 ^ 32 < ns.toNat + 50 := by
  have hval : timerBase.toNat = 50 := rfl
  have hns := ns.isLt
  have hbase : ∀ r : U32, 2 ^ 31 ≤ r.toNat → timerBase.toNat ≤ r.toNat := fun r hr => by omega
  have hround := round_down h
  have hle := Nat.div_mul_le_self (2 ^ 32 - ns.toNat) 50
  have hmod := Nat.lt_div_mul_add (a := 2 ^ 32 - ns.toNat) (by decide : 0 < 50)
  generalize hk : (2 ^ 32 - ns.toNat) / 50 = k at hround hle hmod
  rcases Nat.eq_zero_or_pos k with hzero | hpos
  · rw [hzero] at hround
    have hshort : roundNs timerBase ns trigRoundDown < timerBase := by
      rw [BitVec.lt_def, hround]
      exact base_pos
    have hne : ns ≠ roundNs timerBase ns trigRoundDown := by
      intro heq
      rw [← heq, BitVec.lt_def] at hshort
      omega
    refine iff_of_true (Settles.next ?_) (by omega)
    rw [tune_high (hbase ns h), if_pos hne]
    exact settles_short hshort n
  · rw [Nat.mod_eq_of_lt (by omega)] at hround
    refine iff_of_false ?_ (by omega)
    have hlarge : 2 ^ 31 ≤ (roundNs timerBase ns trigRoundDown).toNat := by omega
    have hticks : 50 ∣ 2 ^ 32 - (roundNs timerBase ns trigRoundDown).toNat := ⟨k, by omega⟩
    by_cases hsame : ns = roundNs timerBase ns trigRoundDown
    · rw [hsame]
      exact not_settles_down hlarge hticks (n + 2)
    · have hstep : tune trigRoundDown ns = (4, roundNs timerBase ns trigRoundDown) := by
        rw [tune_high (hbase ns h), if_pos hsame]
      rw [settles_of_amended (by rw [hstep]; exact (by decide : (4 : Int) ≠ 0)), hstep]
      exact not_settles_down hlarge hticks (n + 1)

/-- How far below zero a period may be that comes to zero before the last of `n + 2` tests. -/
def lag (roundMode : U32) (n : Nat) : Nat :=
  if roundMode = trigRoundDown then 50 else slack timerBase roundMode + 50 * n

theorem low_down (h : ns.toNat < 2 ^ 31) : Low trigRoundDown ns :=
  ⟨h, (@NiTimer.rounded_le timerBase trigRoundDown ns.toNat).trans_lt h⟩

theorem not_settles_high (hslack : 0 < slack timerBase m) {n : Nat} (hn : n ≤ 3)
    (hsmall : ns.toNat + slack timerBase m < 2 ^ 31)
    (hhigh : 2 ^ 31 ≤ rounded timerBase m ns.toNat + slack timerBase m) :
    ¬ Settles (tune m) Written (n + 2) ns := by
  have hval : timerBase.toNat = 50 := rfl
  have hlt := NiTimer.slack_lt base_pos m
  have hle := @NiTimer.rounded_le timerBase m ns.toNat
  have hround := roundNs_toNat base_pos base_lt hsmall
  have hne : ns ≠ roundNs timerBase ns m := by
    intro heq
    rw [← heq] at hround
    omega
  have hstep : tune m ns = (4, roundNs timerBase ns m) := by
    rw [tune_high (by omega), if_pos hne]
  rw [settles_of_amended (by rw [hstep]; exact (by decide : (4 : Int) ≠ 0)), hstep]
  dsimp only
  cases n with
  | zero =>
    intro hsettles
    have hmore := (@settles_negative (roundNs timerBase ns m) m hslack 0 (hround ▸ hhigh)).mp
      (hsettles.mono (by decide))
    exact absurd hmore.1 (Nat.lt_irrefl 0)
  | succ n =>
    rw [settles_negative hslack n (hround ▸ hhigh), hround]
    omega

theorem tune_settles_iff {n : Nat} (hpos : 0 < n) (hn : n ≤ 3) :
    Settles (tune m) Written (n + 2) ns ↔ Low m ns ∨ 2 ^ 32 < ns.toNat + lag m n := by
  by_cases hlow : Low m ns
  · exact iff_of_true (settles_low hlow n) (Or.inl hlow)
  refine Iff.trans ?_ (or_iff_right hlow).symm
  unfold lag
  by_cases hdown : m = trigRoundDown
  · subst hdown
    have hlarge : 2 ^ 31 ≤ ns.toNat := Nat.not_lt.mp fun hsmall => hlow (low_down hsmall)
    obtain ⟨k, rfl⟩ : ∃ k, n = k + 1 := ⟨n - 1, by omega⟩
    rw [if_pos rfl]
    exact settles_down hlarge k
  have hslack := slack_pos hdown
  rw [if_neg hdown]
  by_cases hsmall : ns.toNat + slack timerBase m < 2 ^ 31
  · have hhigh : 2 ^ 31 ≤ rounded timerBase m ns.toNat + slack timerBase m :=
      Nat.not_lt.mp fun hless => hlow ⟨hsmall, hless⟩
    refine iff_of_false (not_settles_high hslack hn hsmall hhigh) ?_
    omega
  · rw [settles_negative hslack n (Nat.not_lt.mp hsmall), Nat.add_assoc]
    exact and_iff_right hpos

/-- The longest period that rounding does not make negative, in one test or the next. -/
def highest (roundMode : U32) : Nat :=
  if roundMode = trigRoundDown then 2 ^ 31 - 1
  else if roundMode = trigRoundUp then 2 ^ 31 - 98
  else 2 ^ 31 - 26

theorem low_iff : Low m ns ↔ ns.toNat ≤ highest m := by
  have hval : timerBase.toNat = 50 := rfl
  unfold Low highest slack rounded slack
  rw [hval]
  split
  · omega
  split
  · omega
  · omega

end Periods

section Commands

/-- Each source is a single one that the board has. -/
structure Supported (cmd : Cmd) : Prop where
  start : cmd.startSrc = trigNow ∨ cmd.startSrc = trigInt
  scanBegin : cmd.scanBeginSrc = trigTimer ∨ cmd.scanBeginSrc = trigExt
  convert : cmd.convertSrc = trigNow
  scanEnd : cmd.scanEndSrc = trigCount
  stop : cmd.stopSrc = trigCount ∨ cmd.stopSrc = trigNone

/-- What `ni_pcidio_cmd` writes for a timed scan is its period. -/
def Exact (cmd : Cmd) : Prop :=
  cmd.scanBeginSrc = trigTimer →
    0 ≤ (startDelay cmd).toInt ∧ (startDelay cmd).toInt * 50 = cmd.scanBeginArg.toNat

/-- Only the argument of the scan can be wrong. -/
def Right (cmd : Cmd) : Prop :=
  cmd.startArg = 0 ∧ cmd.convertArg = 0 ∧ cmd.scanEndArg = cmd.chanlistLen ∧
    (stopArg cmd.stopSrc cmd.stopArg).1 = false

instance (cmd : Cmd) : Decidable (Right cmd) :=
  inferInstanceAs (Decidable (_ ∧ _ ∧ _ ∧ _))

/-- The period is a positive `int` in all of the roundings, or so near below `2 ^ 32` that it comes
to zero in time. -/
def Reach (cmd : Cmd) : Prop :=
  cmd.scanBeginSrc = trigTimer →
    cmd.scanBeginArg.toNat ≤ highest (mode cmd) ∨
      2 ^ 32 < cmd.scanBeginArg.toNat + lag (mode cmd) (if Right cmd then 3 else 2)

theorem Supported.masked (h : Supported cmd) : maskSources cmd = (false, cmd) := by
  have hstart : maskSrc cmd.startSrc (trigNow ||| trigInt) = (cmd.startSrc, false) := by
    rcases h.start with hsrc | hsrc <;> rw [hsrc] <;> decide
  have hscanBegin : maskSrc cmd.scanBeginSrc (trigTimer ||| trigExt) =
      (cmd.scanBeginSrc, false) := by
    rcases h.scanBegin with hsrc | hsrc <;> rw [hsrc] <;> decide
  have hconvert : maskSrc cmd.convertSrc trigNow = (cmd.convertSrc, false) := by
    rw [h.convert]
    decide
  have hscanEnd : maskSrc cmd.scanEndSrc trigCount = (cmd.scanEndSrc, false) := by
    rw [h.scanEnd]
    decide
  have hstop : maskSrc cmd.stopSrc (trigCount ||| trigNone) = (cmd.stopSrc, false) := by
    rcases h.stop with hsrc | hsrc <;> rw [hsrc] <;> decide
  unfold maskSources cmdtestHelper
  dsimp only
  rw [hstart, hscanBegin, hconvert, hscanEnd, hstop]
  rfl

theorem Supported.sources (h : Supported cmd) : ¬ badSources cmd := by
  unfold badSources
  rintro (⟨hnow, hint⟩ | ⟨htimer, hext⟩)
  · exact h.start.elim hnow hint
  · exact h.scanBegin.elim htimer hext

theorem sound_stopArg (src : U32) : Sound (stopArg src) := sound_ite sound_keep (sound_only 0)

theorem sound_scanBeginArg (src : U32) : Sound (scanBeginArg src) := by
  have hcleared : ∀ a : U32, ¬ a &&& (crEdge ||| crInvert) &&& ~~~(crEdge ||| crInvert) ≠ 0 := by
    intro a
    rw [not_not, BitVec.and_assoc, BitVec.and_not_self]
    exact BitVec.and_zero
  refine sound_ite (sound_put (· < timerBase) (by decide)) ⟨fun _ => put_kept, fun a => ?_⟩
  rw [put_eq_false]
  unfold put
  split
  · exact hcleared a
  next hgood => exact hgood

theorem fixArgs_eq_false : (fixArgs cmd).1 = false ↔
    Right cmd ∧ (scanBeginArg cmd.scanBeginSrc cmd.scanBeginArg).1 = false := by
  unfold fixArgs Right
  dsimp only
  simp only [Bool.or_eq_false_iff, only_eq_false]
  constructor
  · rintro ⟨⟨⟨⟨hstart, hscanBegin⟩, hconvert⟩, hscanEnd⟩, hstop⟩
    exact ⟨⟨hstart, hconvert, hscanEnd, hstop⟩, hscanBegin⟩
  · rintro ⟨⟨hstart, hconvert, hscanEnd, hstop⟩, hscanBegin⟩
    exact ⟨⟨⟨⟨hstart, hscanBegin⟩, hconvert⟩, hscanEnd⟩, hstop⟩

theorem fixArgs_right (h : Right cmd) : (fixArgs cmd).2 =
    { cmd with scanBeginArg := (scanBeginArg cmd.scanBeginSrc cmd.scanBeginArg).2 } := by
  obtain ⟨hstart, hconvert, hscanEnd, hstop⟩ := h
  unfold fixArgs
  dsimp only
  rw [only_snd, only_snd, only_snd, (sound_stopArg _).kept _ hstop]
  cases cmd
  cases hstart
  cases hconvert
  cases hscanEnd
  rfl

theorem right_fixArgs (cmd : Cmd) : Right (fixArgs cmd).2 :=
  ⟨only_snd, only_snd, only_snd, (sound_stopArg cmd.stopSrc).done cmd.stopArg⟩

theorem fixArgs_kept (h : (fixArgs cmd).1 = false) : (fixArgs cmd).2 = cmd := by
  obtain ⟨hright, hscanBegin⟩ := fixArgs_eq_false.mp h
  rw [fixArgs_right hright, (sound_scanBeginArg _).kept _ hscanBegin]

theorem fixed_fixArgs (cmd : Cmd) : (fixArgs (fixArgs cmd).2).1 = false :=
  fixArgs_eq_false.mpr ⟨right_fixArgs cmd,
    (sound_scanBeginArg cmd.scanBeginSrc).done cmd.scanBeginArg⟩

theorem roundArgs_kept (h : (roundArgs cmd).1 = false) : (roundArgs cmd).2 = cmd := by
  unfold roundArgs at h ⊢
  split at h
  next htimer =>
    have hkept := put_kept h
    rw [if_pos htimer]
    change { cmd with scanBeginArg := (only _ cmd.scanBeginArg).2 } = cmd
    rw [show (only _ cmd.scanBeginArg).2 = cmd.scanBeginArg from hkept]
  next htimer => rw [if_neg htimer]

theorem cmdtest_eq (h : Supported cmd) : niPcidioCmdtest cmd =
    if (fixArgs cmd).1 then (3, (fixArgs cmd).2)
    else (if (roundArgs cmd).1 then 4 else 0, (roundArgs cmd).2) := by
  unfold niPcidioCmdtest
  rw [h.masked]
  dsimp only
  rw [if_neg Bool.false_ne_true, if_neg h.sources]
  split
  · rfl
  next hfix => rw [fixArgs_kept (Bool.eq_false_iff.mpr hfix)]

theorem accepted_kept (h : Supported cmd) (hret : (niPcidioCmdtest cmd).1 = 0) :
    (niPcidioCmdtest cmd).2 = cmd := by
  rw [cmdtest_eq h] at hret ⊢
  split at hret
  · exact absurd (show (3 : Int) = 0 from hret) (by decide)
  next hfix =>
    rw [if_neg hfix]
    refine roundArgs_kept ?_
    by_contra hround
    rw [if_pos (Bool.eq_true_of_not_eq_false hround)] at hret
    exact absurd (show (4 : Int) = 0 from hret) (by decide)

theorem test_amends (h : Supported cmd) (hfix : (fixArgs cmd).1 = true) :
    niPcidioCmdtest cmd = (3, (fixArgs cmd).2) := by
  rw [cmdtest_eq h, if_pos hfix]

theorem test_timed (h : Supported cmd) (htimer : cmd.scanBeginSrc = trigTimer)
    (hright : Right cmd) : niPcidioCmdtest cmd = ((tune (mode cmd) cmd.scanBeginArg).1,
      { cmd with scanBeginArg := (tune (mode cmd) cmd.scanBeginArg).2 }) := by
  have hscan : scanBeginArg cmd.scanBeginSrc cmd.scanBeginArg =
      put (cmd.scanBeginArg < timerBase) timerBase cmd.scanBeginArg := if_pos htimer
  by_cases hshort : cmd.scanBeginArg < timerBase
  · have hput : put (cmd.scanBeginArg < timerBase) timerBase cmd.scanBeginArg =
        (true, timerBase) := put_of hshort
    have hfix : (fixArgs cmd).1 = true := by
      rw [← Bool.not_eq_false, fixArgs_eq_false, hscan, hput]
      exact fun hboth => Bool.noConfusion hboth.2
    rw [test_amends h hfix, fixArgs_right hright, hscan, hput, tune_low hshort]
  · have hfix : (fixArgs cmd).1 = false := by
      rw [fixArgs_eq_false, hscan]
      exact ⟨hright, put_eq_false.mpr hshort⟩
    rw [cmdtest_eq h, hfix, if_neg Bool.false_ne_true, tune_high (Nat.not_lt.mp hshort)]
    unfold roundArgs
    rw [if_pos htimer]
    dsimp only
    rw [only_snd]
    exact congrArg (·, _) (if_congr only_eq_true rfl rfl)

/-- A timed command of which only the period can be wrong, and its period. -/
structure Tuned (m : U32) (cmd : Cmd) (ns : U32) : Prop where
  supported : Supported cmd
  timer : cmd.scanBeginSrc = trigTimer
  right : Right cmd
  mode : mode cmd = m
  period : cmd.scanBeginArg = ns

theorem settles_tuned (h : Supported cmd) (htimer : cmd.scanBeginSrc = trigTimer)
    (hright : Right cmd) (n : Nat) :
    Settles niPcidioCmdtest Exact n cmd ↔
      Settles (tune (mode cmd)) Written n cmd.scanBeginArg := by
  refine settles_iff_of_simulation (R := Tuned (mode cmd)) ?_ ?_ ?_
    ⟨h, htimer, hright, rfl, rfl⟩ n
  · rintro cmd' ns ⟨hsupported, htimed, hargs, hmode, rfl⟩
    rw [test_timed hsupported htimed hargs, hmode]
  · rintro cmd' ns ⟨hsupported, htimed, hargs, hmode, rfl⟩
    rw [test_timed hsupported htimed hargs, hmode]
    exact ⟨⟨hsupported.start, hsupported.scanBegin, hsupported.convert, hsupported.scanEnd,
      hsupported.stop⟩, htimed, hargs, hmode, rfl⟩
  · rintro cmd' ns ⟨hsupported, htimed, hargs, hmode, rfl⟩ -
    unfold Exact startDelay
    rw [if_pos htimed]
    exact forall_prop_of_true htimed

theorem settles_untimed (h : Supported cmd) (hext : cmd.scanBeginSrc ≠ trigTimer) (n : Nat) :
    Settles niPcidioCmdtest Exact (n + 2) cmd := by
  have haccepted : ∀ cmd', Supported cmd' → cmd'.scanBeginSrc ≠ trigTimer →
      (fixArgs cmd').1 = false → Settles niPcidioCmdtest Exact (n + 1) cmd' := by
    intro cmd' hsupported hother hfix
    refine settles_now ?_ (fun htimer => absurd htimer hother) n
    rw [cmdtest_eq hsupported, hfix, if_neg Bool.false_ne_true]
    unfold roundArgs
    rw [if_neg hother]
    rfl
  by_cases hfix : (fixArgs cmd).1 = true
  · refine Settles.next ?_
    rw [test_amends h hfix]
    exact haccepted _ ⟨h.start, h.scanBegin, h.convert, h.scanEnd, h.stop⟩ hext (fixed_fixArgs cmd)
  · exact (haccepted cmd h hext (Bool.eq_false_iff.mpr hfix)).mono (Nat.le_succ _)

theorem reach_raised (m : U32) (n : Nat) (ns : U32) :
    ((put (ns < timerBase) timerBase ns).2.toNat ≤ highest m ∨
        2 ^ 32 < (put (ns < timerBase) timerBase ns).2.toNat + lag m n) ↔
      ns.toNat ≤ highest m ∨ 2 ^ 32 < ns.toNat + lag m n := by
  by_cases hshort : ns < timerBase
  · have hbase : timerBase.toNat ≤ highest m := by
      have hval : timerBase.toNat = 50 := rfl
      unfold highest
      rw [hval]
      split
      · decide
      split
      · decide
      · decide
    rw [put_of hshort]
    exact iff_of_true (Or.inl hbase) (Or.inl ((BitVec.lt_def.mp hshort).le.trans hbase))
  · rw [put_of_not hshort]

/-- The periods are unsigned, but rounded as an `int`: from half the range on a command is not
accepted in time, or what is written is not its period, unless it wraps around to the shortest. -/
theorem settles_five_iff (h : Supported cmd) :
    Settles niPcidioCmdtest Exact 5 cmd ↔ Reach cmd := by
  by_cases htimer : cmd.scanBeginSrc = trigTimer
  swap
  · exact iff_of_true (settles_untimed h htimer 3) fun htimed => absurd htimed htimer
  refine Iff.trans ?_ (forall_prop_of_true htimer).symm
  by_cases hright : Right cmd
  · rw [settles_tuned h htimer hright, if_pos hright,
      tune_settles_iff (by decide : 0 < 3) (by decide), low_iff]
  · have hfix : (fixArgs cmd).1 = true := by
      rw [← Bool.not_eq_false, fixArgs_eq_false]
      exact fun hboth => hright hboth.1
    have hamends : (niPcidioCmdtest cmd).1 ≠ 0 := by
      rw [test_amends h hfix]
      exact (by decide : (3 : Int) ≠ 0)
    rw [settles_of_amended hamends, test_amends h hfix, if_neg hright]
    have hscan : (fixArgs cmd).2.scanBeginArg =
        (put (cmd.scanBeginArg < timerBase) timerBase cmd.scanBeginArg).2 :=
      congrArg Prod.snd (if_pos htimer)
    have htuned := @settles_tuned (fixArgs cmd).2
      ⟨h.start, h.scanBegin, h.convert, h.scanEnd, h.stop⟩ htimer (right_fixArgs cmd) 4
    refine htuned.trans ?_
    rw [tune_settles_iff (by decide : 0 < 2) (by decide), low_iff, hscan]
    exact reach_raised (mode cmd) 2 cmd.scanBeginArg

end Commands

end Comedi.NiPcidioSettles
