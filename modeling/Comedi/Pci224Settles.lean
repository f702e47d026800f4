import Comedi.Pci224Cmdtest
import Comedi.Retests

namespace Comedi.Pci224Settles

open ArgFixes I8253Pacing Pci224Cmdtest Retests
open I8253 (cascadeNsToTimer2div divisor trigRoundDown trigRoundUp)
open Pci230 (trigExt crEdge)
open RtTimer (trigNone trigNow trigTimer trigCount trigInt maskSrc cmdtestHelper)

/-- Each source is a single one that the board has, and one of them at most is external. -/
structure Supported (cmd : Cmd) : Prop where
  start : cmd.startSrc = trigInt ∨ cmd.startSrc = trigExt
  scanBegin : cmd.scanBeginSrc = trigExt ∨ cmd.scanBeginSrc = trigTimer
  convert : cmd.convertSrc = trigNow
  scanEnd : cmd.scanEndSrc = trigCount
  stop : cmd.stopSrc = trigCount ∨ cmd.stopSrc = trigExt ∨ cmd.stopSrc = trigNone
  signal : ¬ sharedTrigger cmd

/-- A command without a channel list, and divisors that tests have left in the device. -/
structure Request (x : AoTest) : Prop extends Supported x.cmd where
  chanlist : x.cmd.chanlist = .null
  divisors : Left timebase10Mhz x.cachedDiv1 x.cachedDiv2

/-- The period that step 4 makes of a period. -/
def periodOf (mode ns : U32) : U32 :=
  if single mode ns then singleNs mode ns else pacedNs timebase10Mhz ns mode

/-- Rounding does not bring the period, or the least one, below the least one. -/
def Lasting (least mode ns : U32) : Prop :=
  ¬ periodOf mode (raise least ns) < least ∨ ¬ periodOf mode least < least

/-- The period of a timed command is one that rounding can keep within the limits. -/
def Reaches (cmd : Cmd) : Prop :=
  cmd.scanBeginSrc = trigTimer →
    Lasting (leastScan cmd.chanlistLen) (roundMode cmd) cmd.scanBeginArg

section Periods

variable {mode ns least len : U32} {k : Nat}

theorem evenBase : EvenBase timebase10Mhz := ⟨by decide, by decide, by decide⟩

theorem roundBy_lt (mode : U32) : (roundBy mode).toNat < 100 := by
  unfold roundBy
  split
  · decide
  split
  · decide
  · decide

theorem ticks_toNat (mode ns : U32) : (ticks mode ns).toNat =
    ns.toNat / 100 + ((roundBy mode).toNat + ns.toNat % 100) / 100 := by
  have hround := roundBy_lt mode
  have hlt := ns.isLt
  have hbase : timebase10Mhz.toNat = 100 := rfl
  have hsum : (roundBy mode + ns % timebase10Mhz).toNat =
      (roundBy mode).toNat + ns.toNat % 100 := by
    rw [BitVec.toNat_add, BitVec.toNat_umod, hbase]
    omega
  unfold ticks
  rw [BitVec.toNat_add, BitVec.toNat_udiv, BitVec.toNat_udiv, hsum, hbase]
  omega

theorem single_iff : single mode ns ↔
    ns.toNat / 100 + ((roundBy mode).toNat + ns.toNat % 100) / 100 ≤ 65536 := by
  unfold single
  rw [BitVec.le_def, ticks_toNat]
  rfl

theorem singleDiv2_toNat (mode ns : U32) :
    (singleDiv2 mode ns).toNat = max 2 (ticks mode ns).toNat := by
  have htwo : (2 : U32).toNat = 2 := rfl
  unfold singleDiv2
  split
  next h =>
    have hlt : (ticks mode ns).toNat < 2 := h
    rw [htwo]
    omega
  next h =>
    have hge : 2 ≤ (ticks mode ns).toNat := Nat.not_lt.mp h
    omega

theorem singleDiv2_le (h : single mode ns) : (singleDiv2 mode ns).toNat ≤ 65536 := by
  have hle : (ticks mode ns).toNat ≤ 65536 := h
  rw [singleDiv2_toNat]
  omega

/-- The product does not overflow. -/
theorem singleNs_toNat (h : single mode ns) :
    (singleNs mode ns).toNat = (singleDiv2 mode ns).toNat * 100 := by
  have hle := singleDiv2_le h
  have hge : 2 ≤ (singleDiv2 mode ns).toNat := by
    rw [singleDiv2_toNat]
    omega
  have hbase : timebase10Mhz.toNat = 100 := rfl
  have hmul : (singleDiv2 mode ns * timebase10Mhz).toNat = (singleDiv2 mode ns).toNat * 100 := by
    rw [BitVec.toNat_mul, hbase]
    omega
  unfold singleNs
  dsimp only
  rw [if_neg]
  · exact hmul
  · rw [BitVec.lt_def, BitVec.lt_def, hmul, hbase]
    omega

theorem ticks_multiple (h : ns.toNat = 100 * k) : (ticks mode ns).toNat = k := by
  have hround := roundBy_lt mode
  rw [ticks_toNat, h]
  omega

theorem dvd_periodOf (mode ns : U32) : 100 ∣ (periodOf mode ns).toNat := by
  unfold periodOf
  split
  next h =>
    rw [singleNs_toNat h]
    exact Nat.dvd_mul_left _ _
  · exact dvd_pacedNs evenBase ns mode

/-- A period that is rounded is left as it is, unless it is too short for the timer. -/
theorem periodOf_again (h : 200 ≤ (periodOf mode ns).toNat) :
    periodOf mode (periodOf mode ns) = periodOf mode ns := by
  obtain ⟨k, hk⟩ := dvd_periodOf mode ns
  have hticks := @ticks_multiple mode _ k hk
  by_cases hsingle : single mode (periodOf mode ns)
  · have hdiv : (singleDiv2 mode (periodOf mode ns)).toNat = k := by
      rw [singleDiv2_toNat, hticks]
      omega
    have hns : singleNs mode (periodOf mode ns) = periodOf mode ns := by
      apply BitVec.eq_of_toNat_eq
      rw [singleNs_toNat hsingle, hdiv, hk]
      exact Nat.mul_comm k 100
    exact (if_pos hsingle).trans hns
  · have hlong : ¬ single mode ns := by
      intro hshort
      refine hsingle ?_
      have heq : periodOf mode ns = singleNs mode ns := if_pos hshort
      have hle := singleDiv2_le hshort
      rw [heq, singleNs_toNat hshort] at hk
      change (ticks mode (periodOf mode ns)).toNat ≤ 65536
      rw [hticks]
      omega
    have hpaced : periodOf mode ns = pacedNs timebase10Mhz ns mode := if_neg hlong
    refine (if_neg hsingle).trans ?_
    rw [hpaced]
    exact steady_pacedNs evenBase ns mode 0 0 mode

theorem leastScan_toNat (h : len.toNat ≤ 16) :
    (leastScan len).toNat = max 2500 (625 * len.toNat) := by
  have hmul : (len * convertPeriod).toNat = 625 * len.toNat := by
    have hperiod : convertPeriod.toNat = 625 := rfl
    rw [BitVec.toNat_mul, hperiod]
    omega
  have hmin : minScanPeriod.toNat = 2500 := rfl
  unfold leastScan
  split
  next hlt =>
    rw [BitVec.lt_def, hmul, hmin] at hlt
    omega
  next hlt =>
    rw [BitVec.lt_def, hmul, hmin] at hlt
    omega

theorem leastScan_ge (len : U32) : 2500 ≤ (leastScan len).toNat := by
  unfold leastScan
  split
  · decide
  next h => exact Nat.not_lt.mp h

/-- Rounding keeps the least period unless it rounds down, or to the nearest with a quarter of
the clock over, and more than four channels set the limit. -/
theorem least_kept_iff (h : len.toNat ≤ 16) : ¬ periodOf mode (leastScan len) < leastScan len ↔
    len.toNat ≤ 4 ∨ len.toNat % 4 = 0 ∨ mode = trigRoundUp ∨
      mode ≠ trigRoundDown ∧ len.toNat % 4 ≠ 1 := by
  have hleast : len.toNat ≤ 4 ∧ (leastScan len).toNat = 2500 ∨
      4 < len.toNat ∧ (leastScan len).toNat = 625 * len.toNat := by
    rw [leastScan_toNat h]
    omega
  have hsingle : single mode (leastScan len) := by
    have hround := roundBy_lt mode
    rw [single_iff]
    omega
  have hperiod : (periodOf mode (leastScan len)).toNat =
      max 2 (ticks mode (leastScan len)).toNat * 100 := by
    rw [show periodOf mode (leastScan len) = _ from if_pos hsingle, singleNs_toNat hsingle,
      singleDiv2_toNat]
  rw [BitVec.lt_def, hperiod, ticks_toNat]
  unfold roundBy
  by_cases hdown : mode = trigRoundDown
  · have hup : mode ≠ trigRoundUp := by
      rw [hdown]
      decide
    rw [if_pos hdown, show (0 : U32).toNat = 0 from rfl]
    simp only [eq_true hdown, eq_false hup, ne_eq, not_true_eq_false, false_and, or_false]
    omega
  rw [if_neg hdown]
  by_cases hup : mode = trigRoundUp
  · rw [if_pos hup, show (timebase10Mhz - 1 : U32).toNat = 99 from rfl]
    simp only [eq_true hup, true_or, or_true, iff_true]
    omega
  · rw [if_neg hup, show (timebase10Mhz / 2 : U32).toNat = 50 from rfl]
    simp only [hup, hdown, ne_eq, not_false_eq_true, true_and, false_or]
    omega

end Periods

section Tests

variable {cmd : Cmd} {x : AoTest}

theorem Supported.masked (h : Supported cmd) : maskSources cmd = (false, cmd) := by
  have hstart : maskSrc cmd.startSrc (trigInt ||| trigExt) = (cmd.startSrc, false) := by
    rcases h.start with hsrc | hsrc <;> rw [hsrc] <;> decide
  have hscanBegin : maskSrc cmd.scanBeginSrc (trigExt ||| trigTimer) =
      (cmd.scanBeginSrc, false) := by
    rcases h.scanBegin with hsrc | hsrc <;> rw [hsrc] <;> decide
  have hconvert : maskSrc cmd.convertSrc trigNow = (cmd.convertSrc, false) := by
    rw [h.convert]
    decide
  have hscanEnd : maskSrc cmd.scanEndSrc trigCount = (cmd.scanEndSrc, false) := by
    rw [h.scanEnd]
    decide
  have hstop : maskSrc cmd.stopSrc (trigCount ||| trigExt ||| trigNone) =
      (cmd.stopSrc, false) := by
    rcases h.stop with hsrc | hsrc | hsrc <;> rw [hsrc] <;> decide
  unfold maskSources cmdtestHelper
  dsimp only
  rw [hstart, hscanBegin, hconvert, hscanEnd, hstop]
  rfl

theorem Supported.sources (h : Supported cmd) : ¬ badSources cmd := by
  unfold badSources
  rintro (hstart | hscanBegin | hconvert | hscanEnd | hstop | hsignal)
  · rcases h.start with hsrc | hsrc <;> rw [hsrc] at hstart <;> exact hstart (by decide)
  · rcases h.scanBegin with hsrc | hsrc <;> rw [hsrc] at hscanBegin <;>
      exact hscanBegin (by decide)
  · rw [h.convert] at hconvert
    exact hconvert (by decide)
  · rw [h.scanEnd] at hscanEnd
    exact hscanEnd (by decide)
  · rcases h.stop with hsrc | hsrc | hsrc <;> rw [hsrc] at hstop <;> exact hstop (by decide)
  · exact h.signal hsignal

theorem badChanlist_null (h : cmd.chanlist = .null) : badChanlist cmd = false := by
  unfold badChanlist
  dsimp only
  rw [Bool.and_eq_false_iff, decide_eq_false_iff_not]
  exact .inl fun hboth => hboth.1 h

theorem roundScan_period (h : Left timebase10Mhz x.cachedDiv1 x.cachedDiv2) :
    (roundScan x).cmd.scanBeginArg = periodOf (roundMode x.cmd) x.cmd.scanBeginArg := by
  unfold roundScan periodOf
  split
  · rfl
  · exact h.cascade evenBase _ _

/-- What a command must be to be accepted, the sources apart. -/
structure Right (cmd : Cmd) : Prop where
  fixed : Fixed cmd
  period : cmd.scanBeginSrc = trigTimer →
    periodOf (roundMode cmd) cmd.scanBeginArg = cmd.scanBeginArg
  chanlist : badChanlist cmd = false

theorem accepted_iff_right (h : Supported x.cmd)
    (hleft : Left timebase10Mhz x.cachedDiv1 x.cachedDiv2) :
    (pci224AoCmdtest x).1 = 0 ↔ Right x.cmd := by
  rw [accepted_iff]
  constructor
  · intro haccepted
    refine ⟨haccepted.fixed, fun htimer => ?_, haccepted.chanlist⟩
    rw [← roundScan_period hleft]
    exact (haccepted.rounded htimer).symm
  · intro hright
    refine ⟨congrArg Prod.fst h.masked, h.sources, hright.fixed, fun htimer => ?_, hright.chanlist⟩
    rw [roundScan_period hleft]
    exact (hright.period htimer).symm

theorem left_roundScan (h : Left timebase10Mhz x.cachedDiv1 x.cachedDiv2) :
    Left timebase10Mhz (roundScan x).cachedDiv1 (roundScan x).cachedDiv2 := by
  unfold roundScan
  split
  · exact h
  · exact @Left.search timebase10Mhz ⟨x.cachedDiv1, x.cachedDiv2, x.cmd.scanBeginArg⟩
      (roundMode x.cmd) h

theorem left_roundArgs (h : Left timebase10Mhz x.cachedDiv1 x.cachedDiv2) :
    Left timebase10Mhz (roundArgs x).2.cachedDiv1 (roundArgs x).2.cachedDiv2 := by
  unfold roundArgs
  split
  · exact left_roundScan h
  · exact h

/-- Whatever is tested, the divisors in the device are such as searches leave. -/
theorem left_test (h : Left timebase10Mhz x.cachedDiv1 x.cachedDiv2) :
    Left timebase10Mhz (pci224AoCmdtest x).2.cachedDiv1 (pci224AoCmdtest x).2.cachedDiv2 := by
  have hround : Left timebase10Mhz
      (roundArgs { x with cmd := (fixArgs (maskSources x.cmd).2).2 }).2.cachedDiv1
      (roundArgs { x with cmd := (fixArgs (maskSources x.cmd).2).2 }).2.cachedDiv2 :=
    left_roundArgs (x := { x with cmd := (fixArgs (maskSources x.cmd).2).2 }) h
  unfold pci224AoCmdtest
  dsimp only
  split
  · exact h
  split
  · exact h
  split
  · exact h
  split
  · exact hround
  split
  · exact hround
  · exact hround

/-- What one test can do. -/
theorem cmdtest_cases (h : Request x) :
    (¬ Fixed x.cmd ∧ (pci224AoCmdtest x).1 = 3 ∧ (pci224AoCmdtest x).2.cmd = (fixArgs x.cmd).2) ∨
      (Fixed x.cmd ∧ x.cmd.scanBeginSrc = trigTimer ∧ (pci224AoCmdtest x).1 = 4 ∧
        (pci224AoCmdtest x).2.cmd = { dropFlags x.cmd with
          scanBeginArg := periodOf (roundMode x.cmd) x.cmd.scanBeginArg }) ∨
      (Right x.cmd ∧ (pci224AoCmdtest x).1 = 0 ∧ (pci224AoCmdtest x).2.cmd = dropFlags x.cmd) := by
  by_cases hright : Right x.cmd
  · have hret := (accepted_iff_right h.toSupported h.divisors).mpr hright
    exact .inr (.inr ⟨hright, hret, accepted_cmd (accepted_iff.mp hret)⟩)
  unfold pci224AoCmdtest
  rw [h.masked]
  dsimp only
  rw [if_neg Bool.false_ne_true, if_neg h.sources]
  by_cases hfix : Fixed x.cmd
  · have hfixed := fixArgs_eq_false.mpr hfix
    have htimer : x.cmd.scanBeginSrc = trigTimer := by
      by_contra hext
      exact hright ⟨hfix, fun htimer => absurd htimer hext, badChanlist_null h.chanlist⟩
    have hperiod : periodOf (roundMode x.cmd) x.cmd.scanBeginArg ≠ x.cmd.scanBeginArg := by
      intro hsame
      exact hright ⟨hfix, fun _ => hsame, badChanlist_null h.chanlist⟩
    have hscan := roundScan_cmd { x with cmd := dropFlags x.cmd }
    have hns := roundScan_period (x := { x with cmd := dropFlags x.cmd }) h.divisors
    have hround : roundArgs { x with cmd := dropFlags x.cmd } = (decide (x.cmd.scanBeginArg ≠
          (roundScan { x with cmd := dropFlags x.cmd }).cmd.scanBeginArg),
        roundScan { x with cmd := dropFlags x.cmd }) := if_pos htimer
    have hchanged : decide (x.cmd.scanBeginArg ≠
        (roundScan { x with cmd := dropFlags x.cmd }).cmd.scanBeginArg) = true := by
      rw [hns]
      exact decide_eq_true hperiod.symm
    rw [if_neg (Bool.eq_false_iff.mp hfixed), fixArgs_dropFlags hfixed, hround, hchanged,
      if_pos rfl]
    refine .inr (.inl ⟨hfix, htimer, rfl, ?_⟩)
    dsimp only
    rw [hscan, hns]
    rfl
  · have hfixed : (fixArgs x.cmd).1 = true := by
      rw [← Bool.not_eq_false, fixArgs_eq_false]
      exact hfix
    rw [if_pos hfixed]
    exact .inl ⟨hfix, rfl, rfl⟩

end Tests

section Settling

variable {cmd cmd' : Cmd} {x : AoTest}

/-- Requests differ in their arguments only. -/
structure SameRequest (cmd cmd' : Cmd) : Prop where
  start : cmd'.startSrc = cmd.startSrc
  scanBegin : cmd'.scanBeginSrc = cmd.scanBeginSrc
  convert : cmd'.convertSrc = cmd.convertSrc
  scanEnd : cmd'.scanEndSrc = cmd.scanEndSrc
  stop : cmd'.stopSrc = cmd.stopSrc
  chanlist : cmd'.chanlist = cmd.chanlist
  chanlistLen : cmd'.chanlistLen = cmd.chanlistLen
  mode : roundMode cmd' = roundMode cmd

theorem SameRequest.supported (hsame : SameRequest cmd cmd') (h : Supported cmd) :
    Supported cmd' := by
  refine ⟨?_, ?_, ?_, ?_, ?_, ?_⟩
  · rw [hsame.start]
    exact h.start
  · rw [hsame.scanBegin]
    exact h.scanBegin
  · rw [hsame.convert]
    exact h.convert
  · rw [hsame.scanEnd]
    exact h.scanEnd
  · rw [hsame.stop]
    exact h.stop
  · unfold sharedTrigger
    rw [hsame.start, hsame.scanBegin, hsame.stop]
    exact h.signal

theorem same_test (h : Request x) : SameRequest x.cmd (pci224AoCmdtest x).2.cmd := by
  rcases cmdtest_cases h with ⟨-, -, hcmd⟩ | ⟨-, -, -, hcmd⟩ | ⟨-, -, hcmd⟩ <;> rw [hcmd]
  · exact ⟨rfl, rfl, rfl, rfl, rfl, rfl, rfl, rfl⟩
  · exact ⟨rfl, rfl, rfl, rfl, rfl, rfl, rfl, rfl⟩
  · exact ⟨rfl, rfl, rfl, rfl, rfl, rfl, rfl, rfl⟩

theorem Request.test (h : Request x) : Request (pci224AoCmdtest x).2 :=
  ⟨(same_test h).supported h.toSupported, (same_test h).chanlist.trans h.chanlist,
    left_test h.divisors⟩

theorem scanBegin_fixed (hfix : Fixed cmd) (htimer : cmd.scanBeginSrc = trigTimer) :
    ¬ cmd.scanBeginArg < leastScan cmd.chanlistLen := by
  have hscan := hfix.scanBegin
  unfold scanBeginArg at hscan
  rw [if_pos htimer, timerArg_eq] at hscan
  exact put_eq_false.mp hscan

theorem scanBegin_raised (htimer : cmd.scanBeginSrc = trigTimer) :
    (fixArgs cmd).2.scanBeginArg = raise (leastScan cmd.chanlistLen) cmd.scanBeginArg := by
  change (scanBeginArg cmd.scanBeginSrc cmd.chanlistLen cmd.scanBeginArg).2 = _
  unfold scanBeginArg
  rw [if_pos htimer, timerArg_eq]
  rfl

theorem fixed_rounded (hfix : Fixed cmd) (htimer : cmd.scanBeginSrc = trigTimer) {ns : U32}
    (hns : ¬ ns < leastScan cmd.chanlistLen) : Fixed { dropFlags cmd with scanBeginArg := ns } where
  start := hfix.start
  scanBegin := by
    change (scanBeginArg cmd.scanBeginSrc cmd.chanlistLen ns).1 = false
    unfold scanBeginArg
    rw [if_pos htimer, timerArg_eq]
    exact put_eq_false.mpr hns
  convert := hfix.convert
  scanEnd := hfix.scanEnd
  stop := stopArg_done cmd.stopSrc cmd.stopArg

theorem settles_right (h : Request x) (hright : Right x.cmd) (n : Nat) :
    Settles pci224AoCmdtest (fun _ => True) (n + 1) x :=
  settles_now ((accepted_iff_right h.toSupported h.divisors).mpr hright) trivial n

/-- A period that rounding leaves long enough is accepted the next time. -/
theorem settles_fixed (h : Request x) (hfix : Fixed x.cmd)
    (hlong : x.cmd.scanBeginSrc = trigTimer →
      ¬ periodOf (roundMode x.cmd) x.cmd.scanBeginArg < leastScan x.cmd.chanlistLen) :
    Settles pci224AoCmdtest (fun _ => True) 2 x := by
  rcases cmdtest_cases h with ⟨hnot, -⟩ | ⟨-, htimer, -, hcmd⟩ | ⟨hright, -⟩
  · exact absurd hfix hnot
  · refine Settles.next (settles_right h.test ?_ 0)
    rw [hcmd]
    have hleast := leastScan_ge x.cmd.chanlistLen
    have hge : leastScan x.cmd.chanlistLen ≤ periodOf (roundMode x.cmd) x.cmd.scanBeginArg :=
      BitVec.not_lt.mp (hlong htimer)
    refine ⟨fixed_rounded hfix htimer (hlong htimer), fun _ => ?_, badChanlist_null h.chanlist⟩
    exact periodOf_again (Nat.le_trans (by omega) hge)
  · exact settles_right h hright 1

/-- A period that rounding makes too short becomes the least one. -/
theorem settles_lasting (h : Request x) (hfix : Fixed x.cmd) (hreach : Reaches x.cmd) :
    Settles pci224AoCmdtest (fun _ => True) 4 x := by
  by_cases hlong : x.cmd.scanBeginSrc = trigTimer →
      ¬ periodOf (roundMode x.cmd) x.cmd.scanBeginArg < leastScan x.cmd.chanlistLen
  · exact (settles_fixed h hfix hlong).mono (by decide)
  obtain ⟨htimer, hnot⟩ := Classical.not_imp.mp hlong
  have hshort := not_not.mp hnot
  rcases cmdtest_cases h with ⟨hunfixed, -⟩ | ⟨-, -, -, hcmd⟩ | ⟨hright, -⟩
  · exact absurd hfix hunfixed
  · -- the next test brings the period back to the least one
    have hnext : (pci224AoCmdtest x).2.cmd.scanBeginArg < leastScan x.cmd.chanlistLen := by
      rw [hcmd]
      exact hshort
    have htimer' : (pci224AoCmdtest x).2.cmd.scanBeginSrc = trigTimer :=
      (same_test h).scanBegin.trans htimer
    have hleast : ¬ periodOf (roundMode x.cmd) (leastScan x.cmd.chanlistLen) <
        leastScan x.cmd.chanlistLen := by
      rcases hreach htimer with hkept | hkept
      · rw [raise_of_not (scanBegin_fixed hfix htimer)] at hkept
        exact absurd hshort hkept
      · exact hkept
    refine Settles.next ?_
    have hlen := (same_test h).chanlistLen
    have hmode := (same_test h).mode
    have hy := h.test
    generalize (pci224AoCmdtest x).2 = y at hnext htimer' hlen hmode hy
    rw [← hlen] at hnext hleast
    rw [← hmode] at hleast
    rcases cmdtest_cases hy with ⟨-, -, hcmd'⟩ | ⟨hfix', -⟩ | ⟨hright, -⟩
    · refine Settles.next (settles_fixed hy.test ?_ fun _ => ?_)
      · rw [hcmd']
        exact fixArgs_fixed _
      · rw [(same_test hy).mode, (same_test hy).chanlistLen, hcmd', scanBegin_raised htimer',
          raise_of_lt hnext]
        exact hleast
    · exact absurd hnext (scanBegin_fixed hfix' htimer')
    · exact absurd hnext (scanBegin_fixed hright.fixed htimer')
  · refine absurd hshort ?_
    rw [hright.period htimer]
    exact scanBegin_fixed hfix htimer

theorem reaches_fixed (h : Reaches cmd) : Reaches (fixArgs cmd).2 := by
  intro htimer
  have hraised : (fixArgs cmd).2.scanBeginArg =
      raise (leastScan cmd.chanlistLen) cmd.scanBeginArg := scanBegin_raised htimer
  have hlasting := h htimer
  unfold Lasting at hlasting ⊢
  rw [hraised]
  change _ ∨ ¬ periodOf (roundMode cmd) (leastScan cmd.chanlistLen) < leastScan cmd.chanlistLen
  rcases hlasting with hkept | hkept
  · left
    rwa [show (fixArgs cmd).2.chanlistLen = cmd.chanlistLen from rfl,
      raise_raise (BitVec.lt_irrefl _)]
  · exact .inr hkept

theorem settles_of_reaches (h : Request x) (hreach : Reaches x.cmd) :
    Settles pci224AoCmdtest (fun _ => True) 5 x := by
  by_cases hfix : Fixed x.cmd
  · exact (settles_lasting h hfix hreach).mono (by decide)
  rcases cmdtest_cases h with ⟨-, -, hcmd⟩ | ⟨hfixed, -⟩ | ⟨hright, -⟩
  · refine Settles.next (settles_lasting h.test ?_ ?_) <;> rw [hcmd]
    · exact fixArgs_fixed _
    · exact reaches_fixed hreach
  · exact absurd hfixed hfix
  · exact absurd hright.fixed hfix

theorem reaches_of_test (h : Request x) (hreach : Reaches (pci224AoCmdtest x).2.cmd) :
    Reaches x.cmd := by
  intro htimer
  have hlasting := hreach ((same_test h).scanBegin.trans htimer)
  unfold Lasting at hlasting ⊢
  rw [(same_test h).chanlistLen, (same_test h).mode] at hlasting
  rcases hlasting with hkept | hkept
  swap
  · exact .inr hkept
  rcases cmdtest_cases h with ⟨-, -, hcmd⟩ | ⟨hfix, -, -, hcmd⟩ | ⟨hright, -⟩
  · rw [hcmd, scanBegin_raised htimer, raise_raise (BitVec.lt_irrefl _)] at hkept
    exact .inl hkept
  · have hns : (pci224AoCmdtest x).2.cmd.scanBeginArg =
        periodOf (roundMode x.cmd) x.cmd.scanBeginArg := congrArg Cmd.scanBeginArg hcmd
    rw [hns] at hkept
    by_cases hshort : periodOf (roundMode x.cmd) x.cmd.scanBeginArg < leastScan x.cmd.chanlistLen
    · rw [raise_of_lt hshort] at hkept
      exact .inr hkept
    · left
      rwa [raise_of_not (scanBegin_fixed hfix htimer)]
  · left
    rw [raise_of_not (scanBegin_fixed hright.fixed htimer), hright.period htimer]
    exact scanBegin_fixed hright.fixed htimer

theorem settles_five_reaches (h : Request x) :
    Settles pci224AoCmdtest (fun _ => True) 5 x ↔ Reaches x.cmd := by
  have hback : ∀ y, Request y → Reaches (pci224AoCmdtest y).2.cmd → Reaches y.cmd :=
    fun _ => reaches_of_test
  have hdone : ∀ y, Request y → (pci224AoCmdtest y).1 = 0 → True → Reaches y.cmd := by
    intro y hy hret _ htimer
    have hright := (accepted_iff_right hy.toSupported hy.divisors).mp hret
    left
    rw [raise_of_not (scanBegin_fixed hright.fixed htimer), hright.period htimer]
    exact scanBegin_fixed hright.fixed htimer
  exact ⟨@reach_of_settles _ _ (fun _ => True) _ Request (fun y => Reaches y.cmd)
    (fun _ => Request.test) hback hdone 5 h, settles_of_reaches h⟩

end Settling

end Comedi.Pci224Settles
