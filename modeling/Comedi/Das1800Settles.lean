import Comedi.Das1800Cmdtest
import Comedi.Retests

namespace Comedi.Das1800Settles

open ArgFixes Das1800Cmdtest I8253Pacing Retests
open I8253 (cascadeNsToTimer2div trigRoundMask trigRoundDown trigRoundUp)
open Pci230 (trigExt)
open RtTimer (trigNone trigNow trigFollow trigTimer trigCount maskSrc cmdtestHelper)

/-- Each source is a single one that the board has, and conversions within a burst are timed. -/
structure Supported (cmd : Cmd) : Prop where
  start : cmd.startSrc = trigNow ∨ cmd.startSrc = trigExt
  scanBegin : cmd.scanBeginSrc = trigFollow ∨ cmd.scanBeginSrc = trigTimer ∨
    cmd.scanBeginSrc = trigExt
  convert : cmd.convertSrc = trigTimer ∨ cmd.convertSrc = trigExt
  timed : cmd.scanBeginSrc ≠ trigFollow → cmd.convertSrc = trigTimer
  scanEnd : cmd.scanEndSrc = trigCount
  stop : cmd.stopSrc = trigCount ∨ cmd.stopSrc = trigNone ∨ cmd.stopSrc = trigExt

/-- A command with supported sources and a number of channels, but without a channel list, and
divisors that searches have left in the device. -/
structure Request (x : AiTest) : Prop extends Supported x.cmd where
  chanlist : x.cmd.chanlist = .null
  len : 0 < x.cmd.chanlistLen.toNat
  most : x.cmd.chanlistLen.toNat ≤ 256
  divisors : Left timerBase x.divisor1 x.divisor2

def mode (cmd : Cmd) : U32 := cmd.flags &&& trigRoundMask

/-- The convert period, at least that of the board. -/
def convertOf (aiSpeed : U32) (cmd : Cmd) : U32 :=
  if cmd.convertArg < aiSpeed then aiSpeed else cmd.convertArg

/-- The least period of a scan, for conversions in burst mode. -/
def leastScan (aiSpeed : U32) (cmd : Cmd) : U32 :=
  burstConvertArg (convertOf aiSpeed cmd) (mode cmd) * cmd.chanlistLen

def longer (least ns : U32) : U32 := if ns < least then least else ns

/-- Rounding does not bring a period, or the least one, below the least one. -/
def Lasting (least mode ns : U32) : Prop :=
  least ≤ pacedNs timerBase (longer least ns) mode ∨ least ≤ pacedNs timerBase least mode

/-- The rounded periods are long enough. -/
structure Reaches (aiSpeed : U32) (cmd : Cmd) : Prop where
  convert : cmd.convertSrc = trigTimer → cmd.scanBeginSrc = trigFollow →
    Lasting aiSpeed (mode cmd) cmd.convertArg
  burst : cmd.scanBeginSrc ≠ trigFollow →
    aiSpeed ≤ burstConvertArg (convertOf aiSpeed cmd) (mode cmd)
  scan : cmd.scanBeginSrc = trigTimer →
    Lasting (leastScan aiSpeed cmd) (mode cmd) cmd.scanBeginArg

/-- What holds of a command for burst mode. -/
structure Burst (aiSpeed : U32) (cmd : Cmd) : Prop where
  least : aiSpeed ≤ cmd.convertArg
  most : cmd.convertArg.toNat ≤ 64000
  whole : 1000 ∣ cmd.convertArg.toNat
  scan : cmd.scanBeginSrc = trigTimer →
    cmd.convertArg.toNat * cmd.chanlistLen.toNat ≤ cmd.scanBeginArg.toNat

/-- A command for burst mode has what it takes. -/
def BurstKept (aiSpeed : U32) (x : AiTest) : Prop :=
  x.cmd.scanBeginSrc ≠ trigFollow → Burst aiSpeed x.cmd

variable {aiSpeed : U32} {cmd : Cmd} {x : AiTest}

section Steps

theorem Supported.masked (h : Supported cmd) : maskSources cmd = (false, cmd) := by
  have hstart : maskSrc cmd.startSrc (trigNow ||| trigExt) = (cmd.startSrc, false) := by
    rcases h.start with hsrc | hsrc <;> rw [hsrc] <;> decide
  have hscanBegin : maskSrc cmd.scanBeginSrc (trigFollow ||| trigTimer ||| trigExt) =
      (cmd.scanBeginSrc, false) := by
    rcases h.scanBegin with hsrc | hsrc | hsrc <;> rw [hsrc] <;> decide
  have hconvert : maskSrc cmd.convertSrc (trigTimer ||| trigExt) = (cmd.convertSrc, false) := by
    rcases h.convert with hsrc | hsrc <;> rw [hsrc] <;> decide
  have hscanEnd : maskSrc cmd.scanEndSrc trigCount = (cmd.scanEndSrc, false) := by
    rw [h.scanEnd]
    decide
  have hstop : maskSrc cmd.stopSrc (trigCount ||| trigExt ||| trigNone) =
      (cmd.stopSrc, false) := by
    rcases h.stop with hsrc | hsrc | hsrc <;> rw [hsrc] <;> decide
  unfold maskSources cmdtestHelper
  dsimp only
  rw [hstart, hscanBegin, hconvert, hscanEnd, hstop]
  rfl

theorem Supported.sources (h : Supported cmd) : ¬ badSources cmd := by
  unfold badSources
  rintro (⟨hnow, hext⟩ | ⟨hfollow, htimer, hext⟩ | ⟨htimer, hext⟩ | ⟨hcount, hnone, hext⟩ |
    ⟨hscan, hconvert⟩)
  · exact h.start.elim hnow hext
  · exact h.scanBegin.elim hfollow (·.elim htimer hext)
  · exact h.convert.elim htimer hext
  · exact h.stop.elim hcount (·.elim hnone hext)
  · exact hconvert (h.timed hscan)

theorem roundArgs_cmd (x : AiTest) : ∃ scanBeginArg convertArg, (roundArgs x).2.cmd =
    { x.cmd with scanBeginArg := scanBeginArg, convertArg := convertArg } := by
  unfold roundArgs roundConvert roundBurst roundScan
  dsimp only
  split
  · split
    · exact ⟨_, _, rfl⟩
    · split
      · exact ⟨_, _, rfl⟩
      · exact ⟨_, _, rfl⟩
  · exact ⟨_, _, rfl⟩

theorem mixedRanges_null (h : cmd.chanlist = .null) : mixedRanges cmd = false := by
  unfold mixedRanges
  dsimp only
  rw [decide_eq_false_iff_not]
  exact fun hmixed => hmixed.1 h

theorem cmdtest_eq (h : Request x) : das1800AiDoCmdtest aiSpeed x =
    if (fixArgs aiSpeed x.cmd).1 then (3, { x with cmd := (fixArgs aiSpeed x.cmd).2 })
    else (if (roundArgs x).1 then 4 else 0, (roundArgs x).2) := by
  unfold das1800AiDoCmdtest
  rw [h.masked]
  dsimp only
  rw [if_neg Bool.false_ne_true, if_neg h.sources]
  split
  · rfl
  next hfix =>
    have hnull : (roundArgs x).2.cmd.chanlist = .null := by
      obtain ⟨scanBeginArg, convertArg, heq⟩ := roundArgs_cmd x
      rw [heq]
      exact h.chanlist
    rw [fixArgs_kept (Bool.eq_false_iff.mpr hfix), mixedRanges_null hnull]
    split
    · rfl
    · rfl

theorem accepted_iff (h : Request x) : (das1800AiDoCmdtest aiSpeed x).1 = 0 ↔
    (fixArgs aiSpeed x.cmd).1 = false ∧ (roundArgs x).1 = false := by
  rw [cmdtest_eq h]
  cases (fixArgs aiSpeed x.cmd).1 with
  | true => exact iff_of_false (by decide : ¬ (3 : Int) = 0) nofun
  | false =>
    cases (roundArgs x).1 with
    | true => exact iff_of_false (by decide : ¬ (4 : Int) = 0) nofun
    | false => exact iff_of_true rfl ⟨rfl, rfl⟩

theorem left_pace (h : Left timerBase x.divisor1 x.divisor2) (ns : U32) :
    Left timerBase (pace x ns).d1 (pace x ns).d2 :=
  @Left.search timerBase ⟨x.divisor1, x.divisor2, ns⟩ (x.cmd.flags &&& trigRoundMask) h

theorem left_round (h : Left timerBase x.divisor1 x.divisor2) :
    Left timerBase (roundArgs x).2.divisor1 (roundArgs x).2.divisor2 := by
  unfold roundArgs roundConvert roundBurst roundScan
  dsimp only
  split
  · split
    · exact left_pace h _
    · split
      · exact left_pace h _
      · exact h
  · exact h

theorem Request.fixArgs (h : Request x) :
    Request { x with cmd := (fixArgs aiSpeed x.cmd).2 } := by
  have hne : x.cmd.chanlistLen ≠ 0 := fun hzero => by
    have hlen := h.len
    rw [hzero] at hlen
    exact absurd hlen (by decide)
  have hlen : (Das1800Cmdtest.fixArgs aiSpeed x.cmd).2.chanlistLen = x.cmd.chanlistLen :=
    congrArg Prod.snd (put_of_not hne)
  exact ⟨⟨h.start, h.scanBegin, h.convert, h.timed, h.scanEnd, h.stop⟩, h.chanlist,
    hlen ▸ h.len, hlen ▸ h.most, h.divisors⟩

theorem Request.roundArgs (h : Request x) : Request (roundArgs x).2 := by
  obtain ⟨scanBeginArg, convertArg, heq⟩ := roundArgs_cmd x
  refine ⟨?_, ?_, ?_, ?_, left_round h.divisors⟩ <;> rw [heq]
  · exact ⟨h.start, h.scanBegin, h.convert, h.timed, h.scanEnd, h.stop⟩
  · exact h.chanlist
  · exact h.len
  · exact h.most

theorem Request.test (h : Request x) : Request (das1800AiDoCmdtest aiSpeed x).2 := by
  rw [cmdtest_eq h]
  split
  · exact h.fixArgs
  · exact h.roundArgs

end Steps

section Periods

variable {c c' ns least m m' : U32}

theorem evenBase : EvenBase timerBase := ⟨by decide, by decide, by decide⟩

theorem paced_again (ns m m' : U32) :
    pacedNs timerBase (pacedNs timerBase ns m) m' = pacedNs timerBase ns m :=
  steady_pacedNs evenBase ns m 0 0 m'

theorem pace_nanosec (h : Request x) (ns : U32) :
    (pace x ns).nanosec = pacedNs timerBase ns (mode x.cmd) :=
  h.divisors.cascade evenBase ns _

theorem longer_of_le (h : least ≤ ns) : longer least ns = ns := if_neg (BitVec.not_lt.mpr h)

theorem longer_of_lt (h : ns < least) : longer least ns = least := if_pos h

theorem le_longer (least ns : U32) : least ≤ longer least ns := by
  unfold longer
  split
  · exact BitVec.le_refl _
  next h => exact BitVec.not_lt.mp h

theorem longer_longer (least ns : U32) : longer least (longer least ns) = longer least ns :=
  longer_of_le (le_longer least ns)

/-- The conversion time in burst mode, in whole microseconds. -/
theorem burst_toNat (hpos : 0 < c.toNat) (m : U32) : (burstConvertArg c m).toNat =
    if m = trigRoundDown then min c.toNat 64000 / 1000 * 1000
    else if m = trigRoundUp then ((min c.toNat 64000 - 1) / 1000 + 1) * 1000
    else (min c.toNat 64000 + 500) / 1000 * 1000 := by
  have hmin : (if 64000 < c then 64000 else c).toNat = min c.toNat 64000 := by
    split
    next h => exact (min_eq_right (Nat.le_of_lt h)).symm
    next h => exact (min_eq_left (Nat.le_of_not_lt h)).symm
  have hone : (1 : U32).toNat = 1 := rfl
  have hround : (500 : U32).toNat = 500 := rfl
  have hthousand : (1000 : U32).toNat = 1000 := rfl
  have hle : min c.toNat 64000 ≤ 64000 := min_le_right _ _
  have hlow : 0 < min c.toNat 64000 := lt_min hpos (by decide)
  unfold burstConvertArg
  dsimp only
  generalize (if 64000 < c then 64000 else c) = capped at hmin ⊢
  generalize min c.toNat 64000 = n at *
  split
  · rw [BitVec.toNat_mul, BitVec.toNat_udiv, hmin, hthousand]
    omega
  split
  · rw [BitVec.toNat_mul, BitVec.toNat_add, BitVec.toNat_udiv, BitVec.toNat_sub, hmin, hone,
      hthousand]
    omega
  · rw [BitVec.toNat_mul, BitVec.toNat_udiv, BitVec.toNat_add, hmin, hround, hthousand]
    omega

theorem burst_le (hpos : 0 < c.toNat) (m : U32) : (burstConvertArg c m).toNat ≤ 64000 := by
  have hle : min c.toNat 64000 ≤ 64000 := min_le_right _ _
  rw [burst_toNat hpos]
  split
  · omega
  split <;> omega

theorem burst_whole (hpos : 0 < c.toNat) (m : U32) : 1000 ∣ (burstConvertArg c m).toNat := by
  rw [burst_toNat hpos]
  split
  · exact Nat.dvd_mul_left _ _
  split <;> exact Nat.dvd_mul_left _ _

theorem burst_again (hpos : 0 < c.toNat) (h : 0 < (burstConvertArg c m).toNat) :
    burstConvertArg (burstConvertArg c m) m = burstConvertArg c m := by
  have hle := burst_le hpos m
  have hwhole := burst_whole hpos m
  apply BitVec.eq_of_toNat_eq
  rw [burst_toNat h, min_eq_left hle]
  split
  · omega
  split <;> omega

theorem burst_mono (hpos : 0 < c.toNat) (h : c ≤ c') :
    burstConvertArg c m ≤ burstConvertArg c' m := by
  have hle : c.toNat ≤ c'.toNat := h
  have hmin : min c.toNat 64000 ≤ min c'.toNat 64000 := min_le_min_right _ hle
  rw [BitVec.le_def, burst_toNat hpos, burst_toNat (hpos.trans_le hle)]
  split
  · omega
  split <;> omega

end Periods

section Rounds

theorem round_follow (htimer : x.cmd.convertSrc = trigTimer)
    (hscan : x.cmd.scanBeginSrc = trigFollow) : roundArgs x = roundConvert x := by
  unfold roundArgs
  rw [if_pos htimer, if_pos hscan]

theorem round_burst (h : Request x) (hscan : x.cmd.scanBeginSrc ≠ trigFollow) :
    roundArgs x = roundBurst x := by
  unfold roundArgs
  rw [if_pos (h.timed hscan), if_neg hscan]

theorem round_untimed (hconvert : x.cmd.convertSrc ≠ trigTimer) : roundArgs x = (false, x) :=
  if_neg hconvert

theorem follow_convert (h : Request x) (htimer : x.cmd.convertSrc = trigTimer)
    (hscan : x.cmd.scanBeginSrc = trigFollow) : (roundArgs x).2.cmd.convertArg =
      pacedNs timerBase x.cmd.convertArg (mode x.cmd) := by
  rw [round_follow htimer hscan]
  exact pace_nanosec h _

theorem follow_iff (h : Request x) (htimer : x.cmd.convertSrc = trigTimer)
    (hscan : x.cmd.scanBeginSrc = trigFollow) : (roundArgs x).1 = false ↔
      pacedNs timerBase x.cmd.convertArg (mode x.cmd) = x.cmd.convertArg := by
  rw [round_follow htimer hscan]
  unfold roundConvert
  dsimp only
  rw [pace_nanosec h, decide_eq_false_iff_not, not_not]
  exact eq_comm

theorem burst_convert (h : Request x) (hscan : x.cmd.scanBeginSrc ≠ trigFollow) :
    (roundArgs x).2.cmd.convertArg = burstConvertArg x.cmd.convertArg (mode x.cmd) := by
  rw [round_burst h hscan]
  unfold roundBurst roundScan
  dsimp only
  split
  · rfl
  · rfl

theorem scan_put (least ns : U32) : (put (ns < least) least ns).2 = longer least ns := by
  unfold put longer
  split
  · rfl
  · rfl

theorem burst_scan (h : Request x) (hscan : x.cmd.scanBeginSrc = trigTimer) :
    (roundArgs x).2.cmd.scanBeginArg =
      pacedNs timerBase (longer (burstConvertArg x.cmd.convertArg (mode x.cmd) *
        x.cmd.chanlistLen) x.cmd.scanBeginArg) (mode x.cmd) := by
  have hne : x.cmd.scanBeginSrc ≠ trigFollow := by rw [hscan]; decide
  rw [round_burst h hne]
  unfold roundBurst
  rw [if_pos hscan]
  change (pace x (put _ _ _).2).nanosec = _
  rw [pace_nanosec h, scan_put]
  rfl

theorem burst_iff (h : Request x) (hscan : x.cmd.scanBeginSrc ≠ trigFollow) :
    (roundArgs x).1 = false ↔
      burstConvertArg x.cmd.convertArg (mode x.cmd) = x.cmd.convertArg ∧
        (x.cmd.scanBeginSrc = trigTimer →
          x.cmd.convertArg * x.cmd.chanlistLen ≤ x.cmd.scanBeginArg ∧
            pacedNs timerBase x.cmd.scanBeginArg (mode x.cmd) = x.cmd.scanBeginArg) := by
  rw [round_burst h hscan]
  unfold roundBurst
  change (if _ then _ else _ : Bool × AiTest).1 = false ↔ burstConvertArg _ (mode x.cmd) = _ ∧ _
  split
  next htimer =>
    unfold roundScan
    dsimp only
    rw [Bool.or_eq_false_iff, Bool.or_eq_false_iff, put_eq_false, decide_eq_false_iff_not,
      decide_eq_false_iff_not, not_not, not_not, pace_nanosec h]
    change _ = burstConvertArg _ (mode x.cmd) ∧ _ ↔ _
    constructor
    · rintro ⟨hconvert, hlong, hsame⟩
      rw [put_of_not hlong] at hsame
      change ¬ _ < burstConvertArg _ (mode x.cmd) * _ at hlong
      rw [← hconvert] at hlong
      exact ⟨hconvert.symm, fun _ => ⟨BitVec.not_lt.mp hlong, hsame.symm⟩⟩
    · rintro ⟨hconvert, hrest⟩
      obtain ⟨hle, hsame⟩ := hrest htimer
      have hlong : ¬ x.cmd.scanBeginArg < burstConvertArg x.cmd.convertArg
          (x.cmd.flags &&& trigRoundMask) * x.cmd.chanlistLen := by
        change ¬ _ < burstConvertArg _ (mode x.cmd) * _
        rw [hconvert]
        exact BitVec.not_lt.mpr hle
      rw [put_of_not hlong]
      exact ⟨hconvert.symm, hlong, hsame.symm⟩
  next htimer =>
    dsimp only
    rw [decide_eq_false_iff_not, not_not]
    exact ⟨fun heq => ⟨heq.symm, fun h => absurd h htimer⟩, fun heq => heq.1.symm⟩

theorem fixed_round (hfix : Fixed aiSpeed x.cmd)
    (hconvert : x.cmd.convertSrc = trigTimer → aiSpeed ≤ (roundArgs x).2.cmd.convertArg) :
    Fixed aiSpeed (roundArgs x).2.cmd := by
  obtain ⟨scanBeginArg, convertArg, heq⟩ := roundArgs_cmd x
  rw [heq] at hconvert ⊢
  exact ⟨hfix.start, fun htimer => BitVec.not_lt.mpr (hconvert htimer), hfix.len, hfix.scanEnd,
    hfix.stop⟩

/-- Rounding changes no more than the periods. -/
structure SameRequest (cmd cmd' : Cmd) : Prop where
  scanBeginSrc : cmd'.scanBeginSrc = cmd.scanBeginSrc
  convertSrc : cmd'.convertSrc = cmd.convertSrc
  chanlistLen : cmd'.chanlistLen = cmd.chanlistLen
  mode : mode cmd' = mode cmd

theorem round_same (x : AiTest) : SameRequest x.cmd (roundArgs x).2.cmd := by
  obtain ⟨scanBeginArg, convertArg, heq⟩ := roundArgs_cmd x
  rw [heq]
  exact ⟨rfl, rfl, rfl, rfl⟩

end Rounds

section Fixes

theorem len_ne (h : Request x) : x.cmd.chanlistLen ≠ 0 := fun hzero => by
  have hlen := h.len
  rw [hzero] at hlen
  exact absurd hlen (by decide)

theorem fix_same (aiSpeed : U32) (h : Request x) : SameRequest x.cmd (fixArgs aiSpeed x.cmd).2 :=
  ⟨rfl, rfl, congrArg Prod.snd (put_of_not (len_ne h)), rfl⟩

theorem fix_convert (htimer : cmd.convertSrc = trigTimer) :
    (fixArgs aiSpeed cmd).2.convertArg = convertOf aiSpeed cmd := by
  change (put (cmd.convertSrc = trigTimer ∧ cmd.convertArg < aiSpeed) _ _).2 = _
  unfold put convertOf
  by_cases hslow : cmd.convertArg < aiSpeed
  · rw [if_pos ⟨htimer, hslow⟩, if_pos hslow]
  · rw [if_neg fun hboth => hslow hboth.2, if_neg hslow]

theorem fix_fixed (h : Request x) : Fixed aiSpeed (fixArgs aiSpeed x.cmd).2 where
  start := only_snd
  convert := by
    intro (htimer : x.cmd.convertSrc = trigTimer)
    rw [fix_convert htimer]
    exact BitVec.not_lt.mpr (le_longer aiSpeed x.cmd.convertArg)
  len := by
    rw [(fix_same aiSpeed h).chanlistLen]
    exact len_ne h
  scanEnd := only_snd
  stop := by
    change (stopArg _ (stopArg _ _).2).1 = false
    have hsound : Sound (stopArg x.cmd.stopSrc) := by
      refine sound_ite ⟨fun _ => put_kept, fun a => ?_⟩ (sound_ite (sound_only 0) sound_keep)
      rw [put_eq_false]
      unfold put
      split
      · decide
      next hne => exact hne
    exact hsound.done _

theorem convertOf_fixed (hfix : Fixed aiSpeed cmd) (htimer : cmd.convertSrc = trigTimer) :
    convertOf aiSpeed cmd = cmd.convertArg := if_neg (hfix.convert htimer)

theorem reaches_fix (h : Request x) :
    Reaches aiSpeed (fixArgs aiSpeed x.cmd).2 ↔ Reaches aiSpeed x.cmd := by
  have hsame := fix_same aiSpeed h
  have hconvert : x.cmd.convertSrc = trigTimer →
      convertOf aiSpeed (fixArgs aiSpeed x.cmd).2 = convertOf aiSpeed x.cmd := by
    intro htimer
    refine Eq.trans ?_ (longer_longer aiSpeed x.cmd.convertArg)
    exact congrArg (longer aiSpeed) (fix_convert htimer)
  have hlasting : x.cmd.convertSrc = trigTimer →
      (Lasting aiSpeed (mode x.cmd) (fixArgs aiSpeed x.cmd).2.convertArg ↔
        Lasting aiSpeed (mode x.cmd) x.cmd.convertArg) := by
    intro htimer
    have hlonger : longer aiSpeed (convertOf aiSpeed x.cmd) = longer aiSpeed x.cmd.convertArg :=
      longer_longer aiSpeed x.cmd.convertArg
    unfold Lasting
    rw [fix_convert htimer, hlonger]
  have hleast : x.cmd.convertSrc = trigTimer →
      leastScan aiSpeed (fixArgs aiSpeed x.cmd).2 = leastScan aiSpeed x.cmd := by
    intro htimer
    unfold leastScan
    rw [hconvert htimer, hsame.mode, hsame.chanlistLen]
  have htimed : x.cmd.scanBeginSrc = trigTimer → x.cmd.convertSrc = trigTimer :=
    fun hscan => h.timed (by rw [hscan]; decide)
  constructor
  · rintro ⟨hfollow, hburst, hscan⟩
    refine ⟨fun htimer hsrc => (hlasting htimer).mp (hfollow htimer hsrc), fun hsrc => ?_,
      fun hsrc => ?_⟩
    · rw [← hconvert (h.timed hsrc)]
      exact hburst hsrc
    · rw [← hleast (htimed hsrc)]
      exact hscan hsrc
  · rintro ⟨hfollow, hburst, hscan⟩
    refine ⟨fun htimer hsrc => (hlasting htimer).mpr (hfollow htimer hsrc), fun hsrc => ?_,
      fun hsrc => ?_⟩
    · rw [hconvert (h.timed hsrc)]
      exact hburst hsrc
    · rw [hleast (htimed hsrc)]
      exact hscan hsrc

end Fixes

section Settling

variable (hspeed : 0 < aiSpeed.toNat)

theorem test_fixed (h : Request x) (hfix : Fixed aiSpeed x.cmd) :
    (das1800AiDoCmdtest aiSpeed x).2 = (roundArgs x).2 := by
  rw [cmdtest_eq h, fixArgs_eq_false.mpr hfix]
  rfl

include hspeed

theorem burst_of_accepted (h : Request x) (hret : (das1800AiDoCmdtest aiSpeed x).1 = 0) :
    BurstKept aiSpeed x := by
  intro hscan
  obtain ⟨hfix, hround⟩ := (accepted_iff h).mp hret
  obtain ⟨hburst, hrest⟩ := (burst_iff h hscan).mp hround
  have hleast : aiSpeed ≤ x.cmd.convertArg :=
    BitVec.not_lt.mp ((fixArgs_eq_false.mp hfix).convert (h.timed hscan))
  have hpos : 0 < x.cmd.convertArg.toNat := hspeed.trans_le hleast
  have hmost : x.cmd.convertArg.toNat ≤ 64000 := hburst ▸ burst_le hpos (mode x.cmd)
  refine ⟨hleast, hmost, hburst ▸ burst_whole hpos (mode x.cmd), fun htimer => ?_⟩
  have hle : (x.cmd.convertArg * x.cmd.chanlistLen).toNat ≤ x.cmd.scanBeginArg.toNat :=
    (hrest htimer).1
  have hproduct := Nat.mul_le_mul hmost h.most
  rwa [BitVec.toNat_mul, Nat.mod_eq_of_lt (by omega)] at hle

theorem settles_accepted (h : Request x) (hfix : Fixed aiSpeed x.cmd)
    (hround : (roundArgs x).1 = false) (n : Nat) :
    Settles (das1800AiDoCmdtest aiSpeed) (BurstKept aiSpeed) (n + 1) x := by
  have hret := (accepted_iff h).mpr ⟨fixArgs_eq_false.mpr hfix, hround⟩
  exact settles_now hret (burst_of_accepted hspeed h hret) n

theorem settles_follow (h : Request x) (hfix : Fixed aiSpeed x.cmd)
    (htimer : x.cmd.convertSrc = trigTimer) (hscan : x.cmd.scanBeginSrc = trigFollow)
    (hlong : aiSpeed ≤ pacedNs timerBase x.cmd.convertArg (mode x.cmd)) :
    Settles (das1800AiDoCmdtest aiSpeed) (BurstKept aiSpeed) 2 x := by
  have hsame := round_same x
  have hconvert := follow_convert h htimer hscan
  refine Settles.next ?_
  rw [test_fixed h hfix]
  refine settles_accepted hspeed h.roundArgs (fixed_round hfix fun _ => ?_) ?_ 0
  · rwa [hconvert]
  · rw [follow_iff h.roundArgs (hsame.convertSrc.trans htimer) (hsame.scanBeginSrc.trans hscan),
      hconvert]
    exact paced_again _ _ _

/-- A period that was rounded down too far is set to that of the board, and rounded again. -/
theorem settles_lasting (h : Request x) (hfix : Fixed aiSpeed x.cmd)
    (htimer : x.cmd.convertSrc = trigTimer) (hscan : x.cmd.scanBeginSrc = trigFollow)
    (hlasting : Lasting aiSpeed (mode x.cmd) x.cmd.convertArg) :
    Settles (das1800AiDoCmdtest aiSpeed) (BurstKept aiSpeed) 4 x := by
  have hconvert := follow_convert h htimer hscan
  have hsame := round_same x
  have hlonger : longer aiSpeed x.cmd.convertArg = x.cmd.convertArg :=
    longer_of_le (BitVec.not_lt.mp (hfix.convert htimer))
  by_cases hlong : aiSpeed ≤ pacedNs timerBase x.cmd.convertArg (mode x.cmd)
  · exact (settles_follow hspeed h hfix htimer hscan hlong).mono (by decide)
  have hboard : aiSpeed ≤ pacedNs timerBase aiSpeed (mode x.cmd) := by
    refine hlasting.resolve_left fun hle => hlong ?_
    rwa [hlonger] at hle
  have hy := h.roundArgs
  have htimer' := hsame.convertSrc.trans htimer
  have hshort : (roundArgs x).2.cmd.convertArg < aiSpeed := by
    rw [hconvert]
    exact BitVec.not_le.mp hlong
  have hbad : (fixArgs aiSpeed (roundArgs x).2.cmd).1 = true := by
    refine Bool.of_not_eq_false fun hfixed => ?_
    exact (fixArgs_eq_false.mp hfixed).convert htimer' hshort
  have hspeedArg : (fixArgs aiSpeed (roundArgs x).2.cmd).2.convertArg = aiSpeed :=
    (fix_convert htimer').trans (longer_of_lt hshort)
  have hsame' := fix_same aiSpeed hy
  refine Settles.next ?_
  rw [test_fixed h hfix]
  refine Settles.next ?_
  rw [cmdtest_eq hy, if_pos hbad]
  refine settles_follow hspeed hy.fixArgs (fix_fixed hy) (hsame'.convertSrc.trans htimer')
    (hsame'.scanBeginSrc.trans (hsame.scanBeginSrc.trans hscan)) ?_
  dsimp only
  rw [hspeedArg, hsame'.mode, hsame.mode]
  exact hboard

/-- The rounded scan is long enough for the rounded conversions. -/
theorem settles_burst (h : Request x) (hfix : Fixed aiSpeed x.cmd)
    (hscan : x.cmd.scanBeginSrc ≠ trigFollow)
    (hconvert : aiSpeed ≤ burstConvertArg x.cmd.convertArg (mode x.cmd))
    (hlong : x.cmd.scanBeginSrc = trigTimer →
      burstConvertArg x.cmd.convertArg (mode x.cmd) * x.cmd.chanlistLen ≤
        pacedNs timerBase (longer (burstConvertArg x.cmd.convertArg (mode x.cmd) *
          x.cmd.chanlistLen) x.cmd.scanBeginArg) (mode x.cmd)) :
    Settles (das1800AiDoCmdtest aiSpeed) (BurstKept aiSpeed) 2 x := by
  have hsame := round_same x
  have hburst := burst_convert h hscan
  have hpos : 0 < x.cmd.convertArg.toNat :=
    hspeed.trans_le (BitVec.not_lt.mp (hfix.convert (h.timed hscan)))
  refine Settles.next ?_
  rw [test_fixed h hfix]
  refine settles_accepted hspeed h.roundArgs (fixed_round hfix fun _ => ?_) ?_ 0
  · rwa [hburst]
  · rw [burst_iff h.roundArgs (hsame.scanBeginSrc.trans_ne hscan), hburst, hsame.mode,
      hsame.chanlistLen, hsame.scanBeginSrc]
    refine ⟨burst_again hpos (hspeed.trans_le hconvert), fun htimer => ?_⟩
    rw [burst_scan h htimer]
    exact ⟨hlong htimer, paced_again _ _ _⟩

theorem settles_bursts (h : Request x) (hfix : Fixed aiSpeed x.cmd)
    (hscan : x.cmd.scanBeginSrc ≠ trigFollow) (hreach : Reaches aiSpeed x.cmd) :
    Settles (das1800AiDoCmdtest aiSpeed) (BurstKept aiSpeed) 3 x := by
  have hsame := round_same x
  have hburst := burst_convert h hscan
  have hpos : 0 < x.cmd.convertArg.toNat :=
    hspeed.trans_le (BitVec.not_lt.mp (hfix.convert (h.timed hscan)))
  have hof := convertOf_fixed hfix (h.timed hscan)
  have hconvert := hreach.burst hscan
  have hlasting := hreach.scan
  unfold leastScan at hlasting
  rw [hof] at hconvert hlasting
  have hagain := burst_again hpos (hspeed.trans_le hconvert)
  by_cases hlong : x.cmd.scanBeginSrc = trigTimer →
      burstConvertArg x.cmd.convertArg (mode x.cmd) * x.cmd.chanlistLen ≤
        pacedNs timerBase (longer (burstConvertArg x.cmd.convertArg (mode x.cmd) *
          x.cmd.chanlistLen) x.cmd.scanBeginArg) (mode x.cmd)
  · exact (settles_burst hspeed h hfix hscan hconvert hlong).mono (by decide)
  · obtain ⟨htimer, hshort⟩ := Classical.not_imp.mp hlong
    have hleast := (hlasting htimer).resolve_left hshort
    refine Settles.next ?_
    rw [test_fixed h hfix]
    refine settles_burst hspeed h.roundArgs (fixed_round hfix fun _ => hburst ▸ hconvert)
      (hsame.scanBeginSrc.trans_ne hscan) ?_ fun _ => ?_
    · rwa [hburst, hsame.mode, hagain]
    · rw [hburst, hsame.mode, hsame.chanlistLen, hagain, burst_scan h htimer,
        longer_of_lt (BitVec.not_le.mp hshort)]
      exact hleast

theorem settles_fixed (h : Request x) (hfix : Fixed aiSpeed x.cmd)
    (hreach : Reaches aiSpeed x.cmd) :
    Settles (das1800AiDoCmdtest aiSpeed) (BurstKept aiSpeed) 4 x := by
  by_cases htimer : x.cmd.convertSrc = trigTimer
  · by_cases hscan : x.cmd.scanBeginSrc = trigFollow
    · exact settles_lasting hspeed h hfix htimer hscan (hreach.convert htimer hscan)
    · exact (settles_bursts hspeed h hfix hscan hreach).mono (by decide)
  · exact settles_accepted hspeed h hfix (by rw [round_untimed htimer]) 3

theorem settles_of_reaches (h : Request x) (hreach : Reaches aiSpeed x.cmd) :
    Settles (das1800AiDoCmdtest aiSpeed) (BurstKept aiSpeed) 5 x := by
  by_cases hfix : (fixArgs aiSpeed x.cmd).1 = true
  · refine Settles.next ?_
    rw [cmdtest_eq h, if_pos hfix]
    exact settles_fixed hspeed h.fixArgs (fix_fixed h) ((reaches_fix h).mpr hreach)
  · exact (settles_fixed hspeed h (fixArgs_eq_false.mp (Bool.eq_false_iff.mpr hfix)) hreach).mono
      (by decide)

omit hspeed in
theorem reaches_of_accepted (h : Request x) (hret : (das1800AiDoCmdtest aiSpeed x).1 = 0) :
    Reaches aiSpeed x.cmd := by
  obtain ⟨hfixed, hround⟩ := (accepted_iff h).mp hret
  have hfix := fixArgs_eq_false.mp hfixed
  refine ⟨fun htimer hscan => .inl ?_, fun hscan => ?_, fun hscan => .inl ?_⟩
  · have hleast := BitVec.not_lt.mp (hfix.convert htimer)
    rw [longer_of_le hleast, (follow_iff h htimer hscan).mp hround]
    exact hleast
  · have htimer := h.timed hscan
    rw [convertOf_fixed hfix htimer, ((burst_iff h hscan).mp hround).1]
    exact BitVec.not_lt.mp (hfix.convert htimer)
  · have hne : x.cmd.scanBeginSrc ≠ trigFollow := by rw [hscan]; decide
    obtain ⟨hburst, hrest⟩ := (burst_iff h hne).mp hround
    obtain ⟨hle, hsteady⟩ := hrest hscan
    unfold leastScan
    rw [convertOf_fixed hfix (h.timed hne), hburst, longer_of_le hle, hsteady]
    exact hle

omit hspeed in
/-- Rounding a period does not make a longer one last. -/
theorem lasting_of_paced {least m ns : U32}
    (h : Lasting least m (pacedNs timerBase (longer least ns) m)) : Lasting least m ns := by
  by_cases hlong : least ≤ pacedNs timerBase (longer least ns) m
  · exact .inl hlong
  · rcases h with hfirst | hleast
    · rw [longer_of_lt (BitVec.not_le.mp hlong)] at hfirst
      exact .inr hfirst
    · exact .inr hleast

theorem reaches_of_round (h : Request x) (hfix : Fixed aiSpeed x.cmd)
    (hreach : Reaches aiSpeed (roundArgs x).2.cmd) : Reaches aiSpeed x.cmd := by
  have hsame := round_same x
  have hne : x.cmd.scanBeginSrc = trigTimer → x.cmd.scanBeginSrc ≠ trigFollow :=
    fun hscan => by rw [hscan]; decide
  have hburst : x.cmd.scanBeginSrc ≠ trigFollow →
      aiSpeed ≤ burstConvertArg (convertOf aiSpeed x.cmd) (mode x.cmd) := by
    intro hscan
    have htimer := h.timed hscan
    have hleast := BitVec.not_lt.mp (hfix.convert htimer)
    have hconvert := hreach.burst (hsame.scanBeginSrc.trans_ne hscan)
    rw [convertOf_fixed hfix htimer]
    by_contra hshort
    have hof : convertOf aiSpeed (roundArgs x).2.cmd = aiSpeed := by
      refine if_pos ?_
      rw [burst_convert h hscan]
      exact BitVec.not_le.mp hshort
    rw [hof, hsame.mode] at hconvert
    exact hshort (BitVec.le_trans hconvert (burst_mono hspeed hleast))
  refine ⟨fun htimer hscan => ?_, hburst, fun hscan => ?_⟩
  · have hconvert := hreach.convert (hsame.convertSrc.trans htimer) (hsame.scanBeginSrc.trans hscan)
    rw [follow_convert h htimer hscan, hsame.mode] at hconvert
    refine lasting_of_paced ?_
    rwa [longer_of_le (BitVec.not_lt.mp (hfix.convert htimer))]
  · have htimer := h.timed (hne hscan)
    have hleast := hburst (hne hscan)
    have hof := convertOf_fixed hfix htimer
    have hpos : 0 < x.cmd.convertArg.toNat :=
      hspeed.trans_le (BitVec.not_lt.mp (hfix.convert htimer))
    have hlasting := hreach.scan (hsame.scanBeginSrc.trans hscan)
    rw [hof] at hleast
    have hof' : convertOf aiSpeed (roundArgs x).2.cmd =
        burstConvertArg x.cmd.convertArg (mode x.cmd) := by
      rw [← burst_convert h (hne hscan)] at hleast ⊢
      exact longer_of_le hleast
    have hscans : leastScan aiSpeed (roundArgs x).2.cmd = leastScan aiSpeed x.cmd := by
      unfold leastScan
      rw [hof', hof, hsame.mode, hsame.chanlistLen,
        burst_again hpos (hspeed.trans_le hleast)]
    rw [hscans, hsame.mode, burst_scan h hscan] at hlasting
    refine lasting_of_paced ?_
    unfold leastScan at hlasting ⊢
    rwa [hof] at hlasting ⊢

theorem reaches_of_test (h : Request x)
    (hreach : Reaches aiSpeed (das1800AiDoCmdtest aiSpeed x).2.cmd) : Reaches aiSpeed x.cmd := by
  rw [cmdtest_eq h] at hreach
  split at hreach
  · exact (reaches_fix h).mp hreach
  next hfix =>
    exact reaches_of_round hspeed h (fixArgs_eq_false.mp (Bool.eq_false_iff.mpr hfix)) hreach

end Settling

/-- An accepted command is left as it is. -/
theorem accepted_kept (aiSpeed : U32) (x : AiTest)
    (hret : (das1800AiDoCmdtest aiSpeed x).1 = 0) :
    (das1800AiDoCmdtest aiSpeed x).2.cmd = x.cmd := by
  obtain ⟨haccepted, heq⟩ := accepted_of_ret hret
  rw [heq]
  exact roundArgs_kept haccepted.rounded

theorem reaches_of_settles (hspeed : 0 < aiSpeed.toNat) (h : Request x) {n : Nat}
    (hsettles : Settles (das1800AiDoCmdtest aiSpeed) (BurstKept aiSpeed) n x) :
    Reaches aiSpeed x.cmd := by
  let Reach : AiTest → Prop := fun y => Reaches aiSpeed y.cmd
  have hok : ∀ y, Request y → Request (das1800AiDoCmdtest aiSpeed y).2 := fun _ hy => hy.test
  have hback : ∀ y, Request y → Reach (das1800AiDoCmdtest aiSpeed y).2 → Reach y :=
    fun _ hy => reaches_of_test hspeed hy
  have hreach : Reach x :=
    reach_of_settles hok hback (fun _ hy hret _ => reaches_of_accepted hy hret) h hsettles
  exact hreach

/-- Five tests accept the command if and only if the rounded periods are long enough. What is
accepted is left as it is, and has what burst mode takes. -/
theorem settles_bursts_iff (aiSpeed : U32) (hspeed : 0 < aiSpeed.toNat) (x : AiTest)
    (h : Request x) :
    (Settles (das1800AiDoCmdtest aiSpeed) (BurstKept aiSpeed) 5 x ∧
      ∀ y, (das1800AiDoCmdtest aiSpeed y).1 = 0 → (das1800AiDoCmdtest aiSpeed y).2.cmd = y.cmd) ↔
      Reaches aiSpeed x.cmd := by
  constructor
  · rintro ⟨hsettles, -⟩
    exact reaches_of_settles hspeed h hsettles
  · exact fun hreach => ⟨settles_of_reaches hspeed h hreach, accepted_kept aiSpeed⟩

section Inputs

def timedScans (scanBeginArg convertArg chanlistLen flags : U32) : Cmd where
  flags := flags
  startSrc := trigNow
  scanBeginSrc := trigTimer
  scanBeginArg := scanBeginArg
  convertSrc := trigTimer
  convertArg := convertArg
  scanEndSrc := trigCount
  scanEndArg := chanlistLen
  stopSrc := trigNone
  chanlistLen := chanlistLen

theorem timedScans_request (scanBeginArg convertArg flags : U32) {chanlistLen : U32}
    (hlen : 0 < chanlistLen.toNat) (hmost : chanlistLen.toNat ≤ 256) :
    Request ⟨timedScans scanBeginArg convertArg chanlistLen flags, 0, 0⟩ :=
  ⟨⟨.inl rfl, .inr (.inl rfl), .inl rfl, fun _ => rfl, rfl, .inr (.inl rfl)⟩, rfl, hlen, hmost,
    .start⟩

theorem settles_bursts_four_channels :
    (Settles (das1800AiDoCmdtest 3000) (BurstKept 3000) 5 ⟨timedScans 12000 3000 4 0, 0, 0⟩ ∧
      ∀ y, (das1800AiDoCmdtest 3000 y).1 = 0 → (das1800AiDoCmdtest 3000 y).2.cmd = y.cmd) ↔
      Reaches 3000 (timedScans 12000 3000 4 0) :=
  settles_bursts_iff 3000 (by decide) ⟨timedScans 12000 3000 4 0, 0, 0⟩
    (timedScans_request 12000 3000 0 (by decide) (by decide))

/-- A conversion time of 6250 ns is rounded down to 6000 ns, which is too short. -/
theorem burst_never_settles : ¬ Settles (das1800AiDoCmdtest 6250) (BurstKept 6250) 5
    ⟨timedScans 1000000 6250 4 trigRoundDown, 0, 0⟩ := by
  intro h
  have hrequest : Request ⟨timedScans 1000000 6250 4 trigRoundDown, 0, 0⟩ :=
    timedScans_request 1000000 6250 trigRoundDown (by decide) (by decide)
  have hreach := (reaches_of_settles (by decide) hrequest h).burst (by decide)
  exact absurd hreach (by decide)

end Inputs

end Comedi.Das1800Settles
