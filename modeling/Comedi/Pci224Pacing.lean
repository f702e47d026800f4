import Comedi.Pci224Settles

namespace Comedi.Pci224Pacing

open ArgFixes I8253Pacing Pci224Cmdtest Pci224Settles Retests
open I8253 (divisor)
open Pci230 (U16 trigExt crEdge crInvert)
open RtTimer (trigNone trigNow trigTimer trigCount trigInt)

/-- The device after tests of commands. -/
def testAll (tested : List Cmd) (x : AoTest) : AoTest :=
  tested.foldl (fun y cmd => (pci224AoCmdtest { y with cmd := cmd }).2) x

/-- A command for the device as tests of others have left it. -/
def after (x : AoTest) (tested : List Cmd) (cmd : Cmd) : AoTest :=
  { testAll tested x with cmd := cmd }

/-- As the device is attached, nothing is cached. -/
def attached : AoTest where
  cmd := {}

/-- The timers are loaded for the period, and take what is loaded. -/
structure Programmed (x : AoTest) : Prop where
  product : timebase10Mhz.toNat * (divisor (divisors x).1).toNat * (divisor (divisors x).2).toNat =
    x.cmd.scanBeginArg.toNat
  loads : ∀ load ∈ timerLoads (divisors x), i8254Loads load

/-- Tests of a command, in the device that tests of others have left, come to an end with one that
is not changed, and it is programmed as it is, whatever is tested before it is started. -/
structure Correct (tested : List Cmd) (cmd : Cmd) : Prop where
  settles : Settles pci224AoCmdtest (fun _ => True) 5
    (after attached tested { cmd with chanlist := .null })
  kept : (pci224AoCmdtest (after attached tested cmd)).1 = 0 →
    (pci224AoCmdtest (after attached tested cmd)).2.cmd = cmd
  programmed : (pci224AoCmdtest (after attached tested cmd)).1 = 0 →
    cmd.scanBeginSrc = trigTimer →
      625 * cmd.chanlistLen.toNat ≤ cmd.scanBeginArg.toNat ∧
        ∀ later, Programmed (after (pci224AoCmdtest (after attached tested cmd)).2 later cmd)

/-- Rounding can keep the period within the limits, and no flags are dropped from `stop_arg` that
are not an error. -/
structure Converging (cmd : Cmd) : Prop where
  scan : Reaches cmd
  stop : Right cmd → cmd.stopSrc = trigExt → cmd.stopArg &&& forbidden crEdge = 0

section Caches

variable {x : AoTest} {cmd : Cmd}

theorem left_testAll (h : Left timebase10Mhz x.cachedDiv1 x.cachedDiv2) (tested : List Cmd) :
    Left timebase10Mhz (testAll tested x).cachedDiv1 (testAll tested x).cachedDiv2 := by
  induction tested generalizing x with
  | nil => exact h
  | cons cmd tested ih => exact ih (left_test (x := { x with cmd := cmd }) h)

theorem left_after (tested : List Cmd) (cmd : Cmd) : Left timebase10Mhz
    (after attached tested cmd).cachedDiv1 (after attached tested cmd).cachedDiv2 :=
  left_testAll .start tested

theorem divisor_masked {d : U32} (h : d.toNat ≤ 65535) :
    1 ≤ (divisor d).toNat ∧ (divisor d).toNat ≤ 65536 := by
  unfold divisor
  split
  next hne =>
    have hpos : d.toNat ≠ 0 := fun hzero => hne (BitVec.eq_of_toNat_eq hzero)
    exact ⟨Nat.pos_of_ne_zero hpos, by omega⟩
  · decide

theorem loads_of_masked {d : U32} (h : d.toNat ≤ 65535) (hne : divisor d ≠ 1) {counter : U32}
    (hcounter : counter ≤ 2) : i8254Loads (counter, d) := by
  refine ⟨hcounter, h, ?_⟩
  rintro rfl
  exact hne rfl

theorem divisors_single (h : single (roundMode x.cmd) x.cmd.scanBeginArg) :
    divisors x = (1, singleDiv2 (roundMode x.cmd) x.cmd.scanBeginArg &&& 0xffff) := if_pos h

theorem divisors_cascade (h : ¬ single (roundMode x.cmd) x.cmd.scanBeginArg) :
    divisors x = ((pci224CascadeNsToTimer x).d1, (pci224CascadeNsToTimer x).d2) := if_neg h

theorem programmed_single (h : single (roundMode x.cmd) x.cmd.scanBeginArg)
    (hperiod : periodOf (roundMode x.cmd) x.cmd.scanBeginArg = x.cmd.scanBeginArg) :
    Programmed x := by
  have hns : singleNs (roundMode x.cmd) x.cmd.scanBeginArg = x.cmd.scanBeginArg :=
    (show singleNs _ _ = periodOf _ _ from (if_pos h).symm).trans hperiod
  have hmul := singleNs_toNat h
  have hle := singleDiv2_le h
  have htwo : 2 ≤ (singleDiv2 (roundMode x.cmd) x.cmd.scanBeginArg).toNat := by
    rw [singleDiv2_toNat]
    omega
  have hdiv := I8253Periods.divisor_mask (Nat.le_of_lt htwo) hle
  have hone : divisor 1 = 1 := rfl
  rw [hns] at hmul
  refine ⟨?_, ?_⟩
  · rw [divisors_single h, hdiv, hone, hmul]
    exact (Nat.mul_comm _ _)
  · rw [divisors_single h]
    intro load hload
    obtain rfl := List.mem_singleton.mp hload
    refine loads_of_masked (masked_and 0 _).2 ?_ (by decide)
    rw [hdiv]
    intro hsame
    rw [hsame] at htwo
    exact absurd htwo (by decide)

/-- A period that two timers must give is longer than what one of them can count. -/
theorem two_le_of_loaded {d1 d2 mode ns : U32} (h : ¬ single mode ns)
    (hloaded : Loaded timebase10Mhz d1 d2 ns) : divisor d1 ≠ 1 ∧ divisor d2 ≠ 1 := by
  have hproduct := hloaded.product
  have hbase : timebase10Mhz.toNat = 100 := rfl
  have hone : (1 : U32).toNat = 1 := rfl
  rw [hbase, Nat.mul_assoc] at hproduct
  have hlong : 65536 < (divisor d1).toNat * (divisor d2).toNat := by
    rw [← @ticks_multiple mode ns _ hproduct.symm]
    exact Nat.not_le.mp h
  constructor
  · intro hsame
    rw [hsame, hone, Nat.one_mul] at hlong
    exact absurd hloaded.div2.2 (Nat.not_le.mpr hlong)
  · intro hsame
    rw [hsame, hone, Nat.mul_one] at hlong
    exact absurd hloaded.div1.2 (Nat.not_le.mpr hlong)

/-- The timers are loaded for the period unless the product of the cached divisors wraps to it. -/
theorem programmed_iff (hmasked : Masked x.cachedDiv1 x.cachedDiv2)
    (hperiod : periodOf (roundMode x.cmd) x.cmd.scanBeginArg = x.cmd.scanBeginArg)
    (hns : x.cmd.scanBeginArg ≠ 0) : Programmed x ↔
      ¬ (¬ single (roundMode x.cmd) x.cmd.scanBeginArg ∧
        Wraps timebase10Mhz x.cachedDiv1 x.cachedDiv2 x.cmd.scanBeginArg) := by
  by_cases hsingle : single (roundMode x.cmd) x.cmd.scanBeginArg
  · exact iff_of_true (programmed_single hsingle hperiod) fun hboth => hboth.1 hsingle
  have hpaced : pacedNs timebase10Mhz x.cmd.scanBeginArg (roundMode x.cmd) = x.cmd.scanBeginArg :=
    (show pacedNs _ _ _ = periodOf _ _ from (if_neg hsingle).symm).trans hperiod
  have hloaded : Loaded timebase10Mhz (pci224CascadeNsToTimer x).d1
      (pci224CascadeNsToTimer x).d2 x.cmd.scanBeginArg ↔
        ¬ Wraps timebase10Mhz x.cachedDiv1 x.cachedDiv2 x.cmd.scanBeginArg :=
    cascade_loaded_iff evenBase hpaced hns
  have hfit : Masked (pci224CascadeNsToTimer x).d1 (pci224CascadeNsToTimer x).d2 :=
    hmasked.cascade _ _ _
  rw [not_and, forall_prop_of_true hsingle, ← hloaded]
  constructor
  · intro h
    have hproduct := h.product
    rw [divisors_cascade hsingle] at hproduct
    exact ⟨divisor_masked hfit.1, divisor_masked hfit.2, hproduct⟩
  · intro h
    obtain ⟨hne1, hne2⟩ := two_le_of_loaded hsingle h
    refine ⟨?_, ?_⟩ <;> rw [divisors_cascade hsingle]
    · exact h.product
    · intro load hload
      have hcascade : (pci224CascadeNsToTimer x).d1 ≠ 1 := by
        intro hsame
        rw [hsame] at hne1
        exact hne1 rfl
      unfold timerLoads at hload
      rw [if_neg hcascade] at hload
      rcases List.mem_cons.mp hload with rfl | hlast
      · exact loads_of_masked hfit.1 hne1 (by decide)
      · obtain rfl := List.mem_singleton.mp hlast
        exact loads_of_masked hfit.2 hne2 (by decide)

end Caches

section Commands

variable {tested : List Cmd} {cmd : Cmd} {x : AoTest}

theorem accepted_after (h : Supported cmd) :
    (pci224AoCmdtest (after attached tested cmd)).1 = 0 ↔ Right cmd :=
  accepted_iff_right h (left_after tested cmd)

theorem least_of_right (hright : Right cmd) (htimer : cmd.scanBeginSrc = trigTimer)
    (hmost : cmd.chanlistLen.toNat ≤ 16) :
    max 2500 (625 * cmd.chanlistLen.toNat) ≤ cmd.scanBeginArg.toNat := by
  rw [← leastScan_toNat hmost]
  exact Nat.not_lt.mp (scanBegin_fixed hright.fixed htimer)

theorem scanBegin_ne_zero (hright : Right cmd) (htimer : cmd.scanBeginSrc = trigTimer)
    (hmost : cmd.chanlistLen.toNat ≤ 16) : cmd.scanBeginArg ≠ 0 := by
  intro hzero
  have hleast := least_of_right hright htimer hmost
  rw [hzero, show (0 : U32).toNat = 0 from rfl] at hleast
  omega

theorem settles_after_iff (h : Supported cmd) : Settles pci224AoCmdtest (fun _ => True) 5
    (after attached tested { cmd with chanlist := .null }) ↔ Reaches cmd := by
  have hsupported : Supported { cmd with chanlist := .null } :=
    ⟨h.start, h.scanBegin, h.convert, h.scanEnd, h.stop, h.signal⟩
  exact settles_five_reaches ⟨hsupported, rfl, left_after tested _⟩

theorem kept_iff (h : Supported cmd) : ((pci224AoCmdtest (after attached tested cmd)).1 = 0 →
      (pci224AoCmdtest (after attached tested cmd)).2.cmd = cmd) ↔
    (Right cmd → cmd.stopSrc = trigExt → cmd.stopArg &&& forbidden crEdge = 0) := by
  rw [accepted_after h]
  refine imp_congr_right fun hright => ?_
  have hcmd : (pci224AoCmdtest (after attached tested cmd)).2.cmd = dropFlags cmd :=
    accepted_cmd (accepted_iff.mp ((accepted_after h).mpr hright))
  rw [hcmd]
  constructor
  · intro hkept hext
    by_contra hflags
    exact stopArg_changed hext hflags (congrArg Cmd.stopArg hkept)
  · intro hflags
    unfold dropFlags
    rw [stopArg_kept hright.fixed.stop hflags]

/-- Whatever tests were made before, five tests accept a command, leave what they accept as it is,
and the timers are loaded for it, exactly under the condition. With any divisors that fit into the
counters in the device, the timers are loaded for it unless the product of these divisors wraps. -/
theorem tests_correct_iff (tested : List Cmd) (cmd : Cmd) (h : Supported cmd)
    (hmost : cmd.chanlistLen.toNat ≤ 16) :
    (Correct tested cmd ↔ Converging cmd) ∧
      ((pci224AoCmdtest (after attached tested cmd)).1 = 0 → cmd.scanBeginSrc = trigTimer →
        ∀ div1 div2 : U16, Programmed ⟨cmd, div1.setWidth 32, div2.setWidth 32⟩ ↔
          ¬ (¬ single (roundMode cmd) cmd.scanBeginArg ∧
            Wraps timebase10Mhz (div1.setWidth 32) (div2.setWidth 32) cmd.scanBeginArg)) := by
  constructor
  · constructor
    · intro hcorrect
      exact ⟨(settles_after_iff h).mp hcorrect.settles, (kept_iff h).mp hcorrect.kept⟩
    · intro hconverging
      refine ⟨(settles_after_iff h).mpr hconverging.scan, (kept_iff h).mpr hconverging.stop, ?_⟩
      intro hret htimer
      have hright := (accepted_after h).mp hret
      have hleast := least_of_right hright htimer hmost
      refine ⟨by omega, fun later => ?_⟩
      have hleft := left_testAll (left_test (left_after tested cmd)) later
      refine (programmed_iff ?_ ?_ ?_).mpr fun hboth => ?_
      · exact hleft.masked
      · exact hright.period htimer
      · exact scanBegin_ne_zero hright htimer hmost
      · exact (hleft.sane evenBase).not_wraps _ hboth.2
  · intro hret htimer div1 div2
    have hright := (accepted_after h).mp hret
    have hfit : ∀ d : U16, (d.setWidth 32).toNat ≤ 65535 := by
      intro d
      rw [BitVec.toNat_setWidth_of_le (by decide)]
      exact Nat.le_of_lt_succ d.isLt
    exact programmed_iff ⟨hfit div1, hfit div2⟩ (hright.period htimer)
      (scanBegin_ne_zero hright htimer hmost)

def timedOutput (scanBeginArg chanlistLen stopSrc stopArg : U32) : Cmd where
  startSrc := trigInt
  scanBeginSrc := trigTimer
  scanBeginArg := scanBeginArg
  convertSrc := trigNow
  scanEndSrc := trigCount
  scanEndArg := chanlistLen
  chanlistLen := chanlistLen
  stopSrc := stopSrc
  stopArg := stopArg

theorem timedOutput_supported (scanBeginArg chanlistLen stopArg : U32) {stopSrc : U32}
    (h : stopSrc = trigCount ∨ stopSrc = trigExt ∨ stopSrc = trigNone) :
    Supported (timedOutput scanBeginArg chanlistLen stopSrc stopArg) where
  start := .inl rfl
  scanBegin := .inr rfl
  convert := rfl
  scanEnd := rfl
  stop := h
  signal := by
    rintro (⟨hstart, -⟩ | ⟨hstart, -⟩ | ⟨hscan, -⟩)
    · exact hstart (show trigInt &&& trigExt = 0 by decide)
    · exact hstart (show trigInt &&& trigExt = 0 by decide)
    · exact hscan (show trigTimer &&& trigExt = 0 by decide)

theorem correct_four_channels : Correct [] (timedOutput 1000 4 trigNone 0) := by
  have hsupported := timedOutput_supported 1000 4 0 (.inr (.inr rfl))
  refine (tests_correct_iff [] _ hsupported (by decide)).1.mpr ?_
  exact ⟨fun _ => .inr ((least_kept_iff (by decide)).mpr (.inl (by decide))),
    fun _ hext => nomatch hext⟩

/-- Five channels need 3125 ns, which is rounded to 3100 ns each time; and flags of an external
stop are dropped without an error. -/
theorem five_channels_unsettled : ¬ Correct [] (timedOutput 3125 5 trigNone 0) ∧
    ((pci224AoCmdtest ⟨timedOutput 10000 4 trigExt crInvert, 0, 0⟩).1 = 0 ∧
      (pci224AoCmdtest ⟨timedOutput 10000 4 trigExt crInvert, 0, 0⟩).2.cmd ≠
        timedOutput 10000 4 trigExt crInvert) := by
  constructor
  · intro hcorrect
    have hreach := (settles_after_iff (timedOutput_supported 3125 5 0 (.inr (.inr rfl)))).mp
      hcorrect.settles
    rcases hreach rfl with hkept | hkept
    · exact hkept (by decide)
    · exact hkept (by decide)
  · decide

end Commands

end Comedi.Pci224Pacing
