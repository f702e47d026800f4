import Comedi.Pci9118Settles

namespace Comedi.Pci9118Periods

open ArgFixes I8253Pacing Pci9118Cmdtest Pci9118Settles Retests
open Pci230 (trigExt)
open RtTimer (trigNone trigNow trigFollow trigTimer trigCount)

variable {dev : Pci9118} {cmd : Cmd} {m x : U32}

/-- A period that is rounded, and raised to the least one again. -/
def tune (dev : Pci9118) (mode ns : U32) : U32 := raise dev.aiNsMin (pacedNs i8254OscBase ns mode)

section Tune

theorem evenBase : EvenBase i8254OscBase := ⟨by decide, by decide, by decide⟩

theorem pace_fst {d1 d2 : U32} (h : Left i8254OscBase d1 d2) (dev : Pci9118) (ns mode : U32) :
    (pace dev d1 d2 ns mode).1 = tune dev mode ns :=
  congrArg (raise dev.aiNsMin) (h.cascade evenBase ns mode)

theorem not_tune_lt (dev : Pci9118) (m x : U32) : ¬ tune dev m x < dev.aiNsMin :=
  not_raise_lt (BitVec.lt_irrefl _) _

theorem tune_cases (dev : Pci9118) (m x : U32) :
    tune dev m x = dev.aiNsMin ∨ tune dev m (tune dev m x) = tune dev m x := by
  rcases @put_snd_cases U32 (pacedNs i8254OscBase x m < dev.aiNsMin) _ dev.aiNsMin
    (pacedNs i8254OscBase x m) with hleast | ⟨hlow, hkept⟩
  · exact .inl hleast
  · right
    have hpaced : tune dev m x = pacedNs i8254OscBase x m := hkept
    have hsteady := steady_pacedNs evenBase x m 0 0 m
    rw [hpaced]
    exact (congrArg (raise dev.aiNsMin) hsteady).trans (raise_of_not hlow)

/-- Two roundings are enough. -/
theorem tune_tune_tune (dev : Pci9118) (m x : U32) :
    tune dev m (tune dev m (tune dev m x)) = tune dev m (tune dev m x) := by
  rcases tune_cases dev m x with hleast | hsteady
  · rw [hleast]
    rcases tune_cases dev m dev.aiNsMin with hmin | hmin
    · rw [hmin, hmin]
    · exact hmin
  · rw [hsteady, hsteady]

theorem le_tune_of_le_tune {least : U32} (h : least.toNat ≤ (tune dev m x).toNat) :
    least.toNat ≤ (tune dev m (tune dev m x)).toNat := by
  rcases tune_cases dev m x with hleast | hsteady
  · rw [hleast] at h ⊢
    exact h.trans (Nat.not_lt.mp (not_tune_lt dev m dev.aiNsMin))
  · rwa [hsteady]

end Tune

/-- Commands that only steps 4 and 5 can find anything in. -/
structure Ready (dev : Pci9118) (cmd : Cmd) : Prop where
  supported : Supported dev cmd
  compatible : Compatible cmd
  fixed : Fixed dev cmd
  lasting : ¬ rewritable cmd
  chanlist : cmd.chanlist = .null

/-- An accepted command is left as it is, and its scans are long enough. -/
structure Protected (dev : Pci9118) (cmd : Cmd) : Prop where
  kept : (pci9118AiCmdtest dev cmd).2 = cmd
  scan : cmd.scanBeginSrc = trigTimer → cmd.convertSrc = trigTimer ∨ cmd.convertSrc = trigNow →
    cmd.convertArg.toNat * cmd.scanEndArg.toNat ≤ cmd.scanBeginArg.toNat

section Rounds

/-- The argument of a scan that is timed, after step 4 but for the least one of a burst. -/
def tunedScan (dev : Pci9118) (cmd : Cmd) : U32 :=
  if cmd.scanBeginSrc = trigTimer then tune dev (roundMode cmd) cmd.scanBeginArg
  else cmd.scanBeginArg

def tunedConvert (dev : Pci9118) (cmd : Cmd) : U32 :=
  if cmd.convertSrc &&& (trigTimer ||| trigNow) ≠ 0 then tune dev (roundMode cmd) cmd.convertArg
  else cmd.convertArg

/-- Timed scans of a burst. -/
def burst (cmd : Cmd) : Prop := cmd.scanBeginSrc = trigTimer ∧ cmd.convertSrc = trigNow

instance (cmd : Cmd) : Decidable (burst cmd) := inferInstanceAs (Decidable (_ ∧ _))

/-- The period that a burst asks for, as a word. -/
def burstScan (dev : Pci9118) (cmd : Cmd) : U32 := tunedConvert dev cmd * cmd.chanlistLen

theorem roundScan_left (dev : Pci9118) (cmd : Cmd) :
    Left i8254OscBase (roundScan dev cmd).2.1 (roundScan dev cmd).2.2 := by
  unfold roundScan
  split
  · have hleft := @Left.search i8254OscBase ⟨0, 0, cmd.scanBeginArg⟩ (roundMode cmd) Left.start
    unfold pace
    dsimp only
    exact hleft
  · exact Left.start

theorem roundScan_fst (dev : Pci9118) (cmd : Cmd) :
    (roundScan dev cmd).1 = tunedScan dev cmd := by
  unfold roundScan tunedScan
  split
  · change (pace dev 0 0 cmd.scanBeginArg (roundMode cmd)).1 = _
    exact pace_fst Left.start dev _ _
  · rfl

theorem ne_zero_of_not_lt (h : ¬ x < dev.aiNsMin) : x ≠ 0 := by
  rintro rfl
  exact h dev.aiNsMin_pos

/-- Step 4 rounds both periods, and raises that of the scans of a burst. -/
theorem roundArgs_eq (dev : Pci9118) (cmd : Cmd) :
    (roundArgs dev cmd).2 = { cmd with
      scanBeginArg := (if burst cmd then raise (burstScan dev cmd) (tunedScan dev cmd)
        else tunedScan dev cmd)
      convertArg := tunedConvert dev cmd } ∧
    ((roundArgs dev cmd).1 = false ↔ cmd.scanBeginArg = tunedScan dev cmd ∧
      cmd.convertArg = tunedConvert dev cmd ∧
      ¬ (burst cmd ∧ tunedScan dev cmd < burstScan dev cmd)) := by
  unfold roundArgs
  dsimp only
  rw [roundScan_fst]
  by_cases hconvert : cmd.convertSrc &&& (trigTimer ||| trigNow) ≠ 0
  · have htuned : tunedConvert dev cmd = tune dev (roundMode cmd) cmd.convertArg := if_pos hconvert
    have hpace := pace_fst (roundScan_left dev cmd) dev cmd.convertArg (roundMode cmd)
    have hleast : leastScan dev cmd (tunedConvert dev cmd) = burstScan dev cmd := by
      unfold leastScan
      rw [if_neg]
      · rfl
      · rw [htuned]
        exact ne_zero_of_not_lt (not_tune_lt dev _ _)
    rw [if_pos hconvert, hpace, ← htuned, hleast]
    dsimp only
    by_cases hburst : burst cmd
    · have hboth : cmd.scanBeginSrc = trigTimer ∧ cmd.convertSrc = trigNow := hburst
      rw [if_pos hboth, if_pos hburst]
      refine ⟨rfl, ?_⟩
      simp only [Bool.or_eq_false_iff, put_eq_false, decide_eq_false_iff_not, not_not, and_assoc,
        hburst, true_and]
    · have hboth : ¬ (cmd.scanBeginSrc = trigTimer ∧ cmd.convertSrc = trigNow) := hburst
      rw [if_neg hboth, if_neg hburst]
      refine ⟨rfl, ?_⟩
      simp only [Bool.or_eq_false_iff, decide_eq_false_iff_not, not_not, and_assoc, hburst,
        false_and, not_false_eq_true]
  · have hburst : ¬ burst cmd := by
      rintro ⟨-, hnow⟩
      rw [hnow] at hconvert
      exact hconvert (by decide)
    have htuned : tunedConvert dev cmd = cmd.convertArg := if_neg hconvert
    rw [if_neg hconvert, if_neg hburst, htuned]
    refine ⟨rfl, ?_⟩
    simp [hburst]

theorem tunedScan_timer (h : cmd.scanBeginSrc = trigTimer) :
    tunedScan dev cmd = tune dev (roundMode cmd) cmd.scanBeginArg := if_pos h

theorem tunedScan_other (h : cmd.scanBeginSrc ≠ trigTimer) :
    tunedScan dev cmd = cmd.scanBeginArg := if_neg h

theorem roundArgs_scan (h : ¬ burst cmd) :
    (roundArgs dev cmd).2.scanBeginArg = tunedScan dev cmd := by
  rw [(roundArgs_eq dev cmd).1, if_neg h]

theorem roundArgs_burst (h : burst cmd) : (roundArgs dev cmd).2.scanBeginArg =
    raise (burstScan dev cmd) (tunedScan dev cmd) := by
  rw [(roundArgs_eq dev cmd).1, if_pos h]

theorem roundArgs_convert (dev : Pci9118) (cmd : Cmd) :
    (roundArgs dev cmd).2.convertArg = tunedConvert dev cmd := by
  rw [(roundArgs_eq dev cmd).1]

theorem roundArgs_others (dev : Pci9118) (cmd : Cmd) :
    ∃ scanBeginArg convertArg, (roundArgs dev cmd).2 =
      { cmd with scanBeginArg := scanBeginArg, convertArg := convertArg } :=
  ⟨_, _, (roundArgs_eq dev cmd).1⟩

theorem roundArgs_kept (h : (roundArgs dev cmd).1 = false) : (roundArgs dev cmd).2 = cmd := by
  obtain ⟨hscan, hconvert, hburst⟩ := (roundArgs_eq dev cmd).2.mp h
  rw [(roundArgs_eq dev cmd).1, ← hconvert]
  by_cases hb : burst cmd
  · rw [if_pos hb, raise_of_not fun hlt => hburst ⟨hb, hlt⟩, ← hscan]
  · rw [if_neg hb, ← hscan]

theorem not_raise_lt_of_not {least : U32} (h : ¬ x < dev.aiNsMin) :
    ¬ raise least x < dev.aiNsMin := by
  by_cases hlt : x < least
  · rw [raise_of_lt hlt]
    exact fun hless => h (BitVec.lt_trans hlt hless)
  · rwa [raise_of_not hlt]

theorem Ready.roundArgs (h : Ready dev cmd) : Ready dev (roundArgs dev cmd).2 := by
  have hscan : cmd.scanBeginSrc = trigTimer →
      ¬ (Pci9118Cmdtest.roundArgs dev cmd).2.scanBeginArg < dev.aiNsMin := by
    intro htimer
    have htuned : ¬ tunedScan dev cmd < dev.aiNsMin := by
      rw [tunedScan_timer htimer]
      exact not_tune_lt dev _ _
    by_cases hburst : burst cmd
    · rw [roundArgs_burst hburst]
      exact not_raise_lt_of_not htuned
    · rwa [roundArgs_scan hburst]
  have hother : cmd.scanBeginSrc ≠ trigTimer →
      (Pci9118Cmdtest.roundArgs dev cmd).2.scanBeginArg = cmd.scanBeginArg := by
    intro htimer
    rw [roundArgs_scan fun hburst => htimer hburst.1, tunedScan_other htimer]
  have hconvert := roundArgs_convert dev cmd
  obtain ⟨scan, convert, heq⟩ := roundArgs_others dev cmd
  rw [heq] at hscan hother hconvert ⊢
  dsimp only at hscan hother hconvert
  obtain ⟨hstart, hidle, hscanBegin, hconvertArg, hstop, hlen, hend⟩ := h.fixed
  have hsup := h.supported
  have hcompatible := h.compatible
  refine ⟨⟨hsup.start, hsup.scanBegin, hsup.convert, hsup.scanEnd, hsup.stop⟩,
    ⟨hcompatible.start, hcompatible.scan, hcompatible.follow, hcompatible.stop⟩,
    ⟨hstart, ?_, ?_, ?_, hstop, hlen, hend⟩, h.lasting, h.chanlist⟩
  · change (idleArg cmd.scanBeginSrc scan).1 = false
    by_cases htimer : cmd.scanBeginSrc = trigTimer
    · rw [htimer, idle_timer]
    · rw [hother htimer]
      exact hidle
  · change (scanBeginArg dev cmd.scanBeginSrc scan).1 = false
    by_cases htimer : cmd.scanBeginSrc = trigTimer
    · unfold scanBeginArg
      rw [if_pos htimer]
      exact put_eq_false.mpr (hscan htimer)
    · rw [hother htimer]
      exact hscanBegin
  · change (convertArg dev cmd.convertSrc convert).1 = false
    rw [hconvert]
    unfold tunedConvert
    split
    next htimed =>
      unfold convertArg
      rw [if_pos htimed]
      exact put_eq_false.mpr (not_tune_lt dev _ _)
    · exact hconvertArg

/-- Steps 4 and 5 for a command in which the others find nothing, but for scans of one
conversion. -/
theorem cmdtest_rounds (hsup : Supported dev cmd) (hcompatible : Compatible cmd)
    (hfixed : Fixed dev (rewrite cmd)) (hnull : (rewrite cmd).chanlist = .null) :
    pci9118AiCmdtest dev cmd = (if (roundArgs dev (rewrite cmd)).1 then 4 else 0,
      (roundArgs dev (rewrite cmd)).2) := by
  have hlist : badChanlist dev (roundArgs dev (rewrite cmd)).2 = false := by
    obtain ⟨scan, convert, heq⟩ := roundArgs_others dev (rewrite cmd)
    rw [heq]
    unfold badChanlist
    rw [hnull]
    rfl
  unfold pci9118AiCmdtest
  rw [hsup.masked]
  dsimp only
  rw [if_neg Bool.false_ne_true, hcompatible.mended hsup]
  dsimp only
  rw [if_neg Bool.false_ne_true, fixArgs_eq_false.mpr hfixed, if_neg Bool.false_ne_true,
    fixArgs_kept hfixed, hlist, if_neg Bool.false_ne_true]
  split
  · rfl
  · rfl

theorem Ready.test (h : Ready dev cmd) : pci9118AiCmdtest dev cmd =
    (if (Pci9118Cmdtest.roundArgs dev cmd).1 then 4 else 0,
      (Pci9118Cmdtest.roundArgs dev cmd).2) := by
  have hsame := rewrite_of_not h.lasting
  have hrounds := @cmdtest_rounds dev cmd h.supported h.compatible (hsame.symm ▸ h.fixed)
    (hsame.symm ▸ h.chanlist)
  rwa [hsame] at hrounds

end Rounds

section Ready

theorem ready_accepted (h : Ready dev cmd) :
    (pci9118AiCmdtest dev cmd).1 = 0 ↔ (roundArgs dev cmd).1 = false := by
  rw [h.test]
  cases (roundArgs dev cmd).1 with
  | false => exact iff_of_true rfl rfl
  | true => exact iff_of_false (by decide : ¬ (4 : Int) = 0) nofun

theorem ready_next (h : Ready dev cmd) : (pci9118AiCmdtest dev cmd).2 = (roundArgs dev cmd).2 := by
  rw [h.test]

theorem ready_test : ∀ y, Ready dev y → Ready dev (pci9118AiCmdtest dev y).2 := by
  intro y hy
  rw [ready_next hy]
  exact hy.roundArgs

theorem ready_kept :
    ∀ y, Ready dev y → (pci9118AiCmdtest dev y).1 = 0 → (pci9118AiCmdtest dev y).2 = y := by
  intro y hy hret
  rw [ready_next hy]
  exact roundArgs_kept ((ready_accepted hy).mp hret)

theorem again_two (h : Ready dev cmd) : again (pci9118AiCmdtest dev) 2 cmd =
    (roundArgs dev (roundArgs dev cmd).2).2 := by
  rw [again_succ, again_succ, again_zero, ready_next h, ready_next h.roundArgs]

theorem again_three (h : Ready dev cmd) : again (pci9118AiCmdtest dev) 3 cmd =
    (roundArgs dev (roundArgs dev (roundArgs dev cmd).2).2).2 := by
  rw [again_succ, ready_next h, again_two h.roundArgs]

theorem roundMode_roundArgs (dev : Pci9118) (cmd : Cmd) :
    roundMode (roundArgs dev cmd).2 = roundMode cmd := by
  obtain ⟨scan, convert, heq⟩ := roundArgs_others dev cmd
  rw [heq]
  rfl

theorem sources_roundArgs (dev : Pci9118) (cmd : Cmd) :
    (roundArgs dev cmd).2.scanBeginSrc = cmd.scanBeginSrc ∧
      (roundArgs dev cmd).2.convertSrc = cmd.convertSrc := by
  obtain ⟨scan, convert, heq⟩ := roundArgs_others dev cmd
  rw [heq]
  exact ⟨rfl, rfl⟩

theorem lens_roundArgs (dev : Pci9118) (cmd : Cmd) :
    (roundArgs dev cmd).2.chanlistLen = cmd.chanlistLen ∧
      (roundArgs dev cmd).2.scanEndArg = cmd.scanEndArg := by
  obtain ⟨scan, convert, heq⟩ := roundArgs_others dev cmd
  rw [heq]
  exact ⟨rfl, rfl⟩

theorem burst_roundArgs (dev : Pci9118) (cmd : Cmd) : burst (roundArgs dev cmd).2 ↔ burst cmd := by
  unfold burst
  rw [(sources_roundArgs dev cmd).1, (sources_roundArgs dev cmd).2]

/-- The conversions do not change any more after two roundings. -/
theorem tunedConvert_roundArgs (dev : Pci9118) (cmd : Cmd) :
    tunedConvert dev (roundArgs dev (roundArgs dev cmd).2).2 =
      tunedConvert dev (roundArgs dev cmd).2 := by
  unfold tunedConvert
  rw [(sources_roundArgs dev _).2, (sources_roundArgs dev _).2, roundMode_roundArgs,
    roundMode_roundArgs, roundArgs_convert, roundArgs_convert]
  unfold tunedConvert
  rw [(sources_roundArgs dev _).2, roundMode_roundArgs, roundArgs_convert]
  unfold tunedConvert
  split
  · exact tune_tune_tune dev _ _
  · rfl

theorem tunedScan_roundArgs (hburst : ¬ burst cmd) :
    tunedScan dev (roundArgs dev (roundArgs dev cmd).2).2 =
      tunedScan dev (roundArgs dev cmd).2 := by
  have hburst' : ¬ burst (roundArgs dev cmd).2 := mt (burst_roundArgs dev cmd).mp hburst
  unfold tunedScan
  rw [(sources_roundArgs dev _).1, (sources_roundArgs dev _).1, roundMode_roundArgs,
    roundMode_roundArgs, roundArgs_scan hburst', roundArgs_scan hburst]
  unfold tunedScan
  rw [(sources_roundArgs dev _).1, roundMode_roundArgs, roundArgs_scan hburst]
  unfold tunedScan
  split
  · exact tune_tune_tune dev _ _
  · rfl

/-- Without a burst, two roundings are enough. -/
theorem rounded_twice (hburst : ¬ burst cmd) :
    (roundArgs dev (roundArgs dev (roundArgs dev cmd).2).2).1 = false := by
  have hburst' : ¬ burst (roundArgs dev cmd).2 := mt (burst_roundArgs dev cmd).mp hburst
  have hburst'' := mt (burst_roundArgs dev (roundArgs dev cmd).2).mp hburst'
  rw [(roundArgs_eq dev _).2, tunedScan_roundArgs hburst, tunedConvert_roundArgs,
    roundArgs_scan hburst', roundArgs_convert]
  exact ⟨rfl, rfl, fun hboth => hburst'' hboth.1⟩

theorem sure_without_burst (h : Ready dev cmd) (hburst : ¬ burst cmd) {n : Nat} (hn : 2 < n) :
    Sure (pci9118AiCmdtest dev) (Protected dev) n cmd ↔
      Protected dev (roundArgs dev (roundArgs dev cmd).2).2 := by
  have hret : (pci9118AiCmdtest dev (again (pci9118AiCmdtest dev) 2 cmd)).1 = 0 := by
    rw [again_two h]
    exact (ready_accepted h.roundArgs.roundArgs).mpr (rounded_twice hburst)
  rw [sure_of_later ready_test ready_kept hn h hret, again_two h]

end Ready

/-- A burst of conversions of a command whose other arguments are in order. -/
structure Burst where
  scan : U32
  convert : U32
  len : U32
  mode : U32

namespace Burst

variable (dev : Pci9118) (b : Burst)

/-- What the conversions come to. -/
def period : U32 := tune dev b.mode (tune dev b.mode b.convert)

/-- The word that is asked for as the period of the scans. -/
def least : U32 := b.period dev * b.len

/-- The period of the scans after the first rounding. -/
def first : U32 := raise (tune dev b.mode b.convert * b.len) (tune dev b.mode b.scan)

/-- The scans are rounded below what the burst asks for, again and again. -/
def Stuck : Prop :=
  tune dev b.mode (b.first dev) < b.least dev ∧ tune dev b.mode (b.least dev) < b.least dev

instance : Decidable (b.Stuck dev) := inferInstanceAs (Decidable (_ ∧ _))

/-- The period that the scans come to. -/
def final : U32 :=
  if tune dev b.mode (b.first dev) < b.least dev then tune dev b.mode (b.least dev)
  else tune dev b.mode (tune dev b.mode (b.first dev))

/-- The period after the third rounding. -/
def third : U32 :=
  raise (b.least dev) (tune dev b.mode (raise (b.least dev) (tune dev b.mode (b.first dev))))

variable {dev b}

theorem third_eq (h : ¬ b.Stuck dev) : b.third dev = b.final dev := by
  unfold third final
  split
  next hlow =>
    have hleast : ¬ tune dev b.mode (b.least dev) < b.least dev := fun hlt => h ⟨hlow, hlt⟩
    rw [raise_of_lt hlow, raise_of_not hleast]
  next hlow =>
    rw [raise_of_not hlow, raise_of_not]
    exact Nat.not_lt.mpr (le_tune_of_le_tune (Nat.not_lt.mp hlow))

theorem final_kept (h : ¬ b.Stuck dev) : tune dev b.mode (b.final dev) = b.final dev ∧
    ¬ b.final dev < b.least dev := by
  unfold final
  split
  next hlow =>
    have hleast : ¬ tune dev b.mode (b.least dev) < b.least dev := fun hlt => h ⟨hlow, hlt⟩
    refine ⟨?_, hleast⟩
    rcases tune_cases dev b.mode (b.least dev) with hmin | hsteady
    · -- the least period is above one that is not below `ai_ns_min`
      have habove : ¬ tune dev b.mode (b.first dev) < dev.aiNsMin := not_tune_lt dev _ _
      rw [hmin] at hleast
      exact absurd (Nat.lt_of_lt_of_le hlow (Nat.not_lt.mp hleast)) habove
    · exact hsteady
  next hlow =>
    exact ⟨tune_tune_tune dev _ _,
      Nat.not_lt.mpr (le_tune_of_le_tune (Nat.not_lt.mp hlow))⟩

theorem stuck_eq (h : b.Stuck dev) :
    raise (b.least dev) (tune dev b.mode (b.first dev)) = b.least dev ∧
      raise (b.least dev) (tune dev b.mode (b.least dev)) = b.least dev :=
  ⟨raise_of_lt h.1, raise_of_lt h.2⟩

end Burst

section Bursts

def burstOf (cmd : Cmd) : Burst :=
  ⟨cmd.scanBeginArg, cmd.convertArg, cmd.chanlistLen, roundMode cmd⟩

theorem burst_convert (h : burst cmd) :
    tunedConvert dev cmd = tune dev (roundMode cmd) cmd.convertArg := by
  unfold tunedConvert
  rw [h.2, if_pos (by decide)]

theorem burst_first (h : burst cmd) :
    (roundArgs dev cmd).2.scanBeginArg = (burstOf cmd).first dev := by
  rw [roundArgs_burst h]
  unfold burstScan
  rw [burst_convert h, tunedScan_timer h.1]
  rfl

theorem burst_period (h : burst cmd) :
    tunedConvert dev (roundArgs dev cmd).2 = (burstOf cmd).period dev := by
  rw [burst_convert ((burst_roundArgs dev cmd).mpr h), roundMode_roundArgs, roundArgs_convert,
    burst_convert h]
  rfl

theorem burst_least (h : burst cmd) :
    burstScan dev (roundArgs dev cmd).2 = (burstOf cmd).least dev := by
  unfold burstScan
  rw [burst_period h, (lens_roundArgs dev cmd).1]
  rfl

theorem burst_least_next (h : burst cmd) :
    burstScan dev (roundArgs dev (roundArgs dev cmd).2).2 = (burstOf cmd).least dev := by
  rw [← burst_least h]
  unfold burstScan
  rw [tunedConvert_roundArgs, (lens_roundArgs dev _).1]

theorem burst_second (h : burst cmd) : (roundArgs dev (roundArgs dev cmd).2).2.scanBeginArg =
    raise ((burstOf cmd).least dev) (tune dev (roundMode cmd) ((burstOf cmd).first dev)) := by
  have h' := (burst_roundArgs dev cmd).mpr h
  rw [roundArgs_burst h', burst_least h, tunedScan_timer h'.1, roundMode_roundArgs, burst_first h]

theorem burst_third (h : burst cmd) :
    (roundArgs dev (roundArgs dev (roundArgs dev cmd).2).2).2.scanBeginArg =
      (burstOf cmd).third dev := by
  have h' := (burst_roundArgs dev cmd).mpr h
  have h'' := (burst_roundArgs dev (roundArgs dev cmd).2).mpr h'
  rw [roundArgs_burst h'', burst_least_next h, tunedScan_timer h''.1, roundMode_roundArgs,
    roundMode_roundArgs, burst_second h]
  rfl

/-- Three roundings are enough for a burst. -/
theorem rounded_thrice (h : burst cmd) (hstuck : ¬ (burstOf cmd).Stuck dev) :
    (roundArgs dev (roundArgs dev (roundArgs dev (roundArgs dev cmd).2).2).2).1 = false := by
  have h' := (burst_roundArgs dev cmd).mpr h
  have h'' := (burst_roundArgs dev (roundArgs dev cmd).2).mpr h'
  have h''' := (burst_roundArgs dev (roundArgs dev (roundArgs dev cmd).2).2).mpr h''
  obtain ⟨hkept, hlow⟩ := Burst.final_kept hstuck
  have hscan : tunedScan dev (roundArgs dev (roundArgs dev (roundArgs dev cmd).2).2).2 =
      (burstOf cmd).final dev := by
    rw [tunedScan_timer h'''.1, roundMode_roundArgs, roundMode_roundArgs, roundMode_roundArgs,
      burst_third h, Burst.third_eq hstuck]
    exact hkept
  have hleast : burstScan dev (roundArgs dev (roundArgs dev (roundArgs dev cmd).2).2).2 =
      (burstOf cmd).least dev := by
    rw [burst_least_next h', ← burst_least_next h, ← burst_least h']
  rw [(roundArgs_eq dev _).2, hscan, hleast, tunedConvert_roundArgs, tunedConvert_roundArgs,
    burst_third h, Burst.third_eq hstuck, roundArgs_convert, tunedConvert_roundArgs]
  exact ⟨rfl, rfl, fun hboth => hlow hboth.2⟩

/-- The scans are long enough for the conversions that a burst comes to. -/
def Burst.Fits (dev : Pci9118) (b : Burst) (scanEnd : U32) : Prop :=
  ¬ b.Stuck dev ∧ (b.period dev).toNat * scanEnd.toNat ≤ (b.final dev).toNat

instance (b : Burst) (scanEnd : U32) : Decidable (b.Fits dev scanEnd) :=
  inferInstanceAs (Decidable (_ ∧ _))

theorem burst_again (h : burst cmd) (hstuck : (burstOf cmd).Stuck dev) :
    (roundArgs dev (roundArgs dev (roundArgs dev cmd).2).2).1 = true ∧
      (roundArgs dev (roundArgs dev (roundArgs dev cmd).2).2).2 =
        (roundArgs dev (roundArgs dev cmd).2).2 := by
  have h' := (burst_roundArgs dev cmd).mpr h
  have h'' := (burst_roundArgs dev (roundArgs dev cmd).2).mpr h'
  obtain ⟨hfirst, hleast⟩ := Burst.stuck_eq hstuck
  have hscan : (roundArgs dev (roundArgs dev cmd).2).2.scanBeginArg =
      (burstOf cmd).least dev := (burst_second h).trans hfirst
  have htuned : tunedScan dev (roundArgs dev (roundArgs dev cmd).2).2 =
      tune dev (roundMode cmd) ((burstOf cmd).least dev) := by
    rw [tunedScan_timer h''.1, roundMode_roundArgs, roundMode_roundArgs, hscan]
  constructor
  · rw [← Bool.not_eq_false, (roundArgs_eq dev _).2, burst_least_next h, htuned]
    exact fun hall => hall.2.2 ⟨h'', hstuck.2⟩
  · have hconvert : tunedConvert dev (roundArgs dev (roundArgs dev cmd).2).2 =
        (roundArgs dev (roundArgs dev cmd).2).2.convertArg := by
      rw [tunedConvert_roundArgs, roundArgs_convert]
    rw [(roundArgs_eq dev (roundArgs dev (roundArgs dev cmd).2).2).1, if_pos h'',
      burst_least_next h, htuned, hconvert]
    exact (congrArg (fun arg => { (roundArgs dev (roundArgs dev cmd).2).2 with
      scanBeginArg := arg }) (hleast.trans hscan.symm))

theorem sure_burst (h : Ready dev cmd) (hburst : burst cmd) {n : Nat} (hn : 3 < n) :
    Sure (pci9118AiCmdtest dev) (Protected dev) n cmd ↔
      (burstOf cmd).Fits dev cmd.scanEndArg := by
  have h1 := h.roundArgs
  have h2 := h1.roundArgs
  by_cases hstuck : (burstOf cmd).Stuck dev
  · refine iff_of_false (fun hsure => ?_) fun hfits => hfits.1 hstuck
    obtain ⟨hbad, hsame⟩ := burst_again hburst hstuck
    have hret : (pci9118AiCmdtest dev (again (pci9118AiCmdtest dev) 2 cmd)).1 ≠ 0 := by
      rw [again_two h]
      intro hzero
      rw [(ready_accepted h2).mp hzero] at hbad
      exact Bool.false_ne_true hbad
    have hback : (pci9118AiCmdtest dev (again (pci9118AiCmdtest dev) 2 cmd)).2 =
        again (pci9118AiCmdtest dev) 2 cmd := by
      rw [again_two h, ready_next h2]
      exact hsame
    exact not_settles_of_later ready_test ready_kept h hret hback n hsure.1
  · have hret : (pci9118AiCmdtest dev (again (pci9118AiCmdtest dev) 3 cmd)).1 = 0 := by
      rw [again_three h]
      exact (ready_accepted h2.roundArgs).mpr (rounded_thrice hburst hstuck)
    rw [sure_of_later ready_test ready_kept hn h hret, again_three h]
    have hkept := ready_kept _ h2.roundArgs (again_three h ▸ hret)
    have hscan := (burst_third hburst).trans (Burst.third_eq hstuck)
    have hconvert : (roundArgs dev (roundArgs dev (roundArgs dev cmd).2).2).2.convertArg =
        (burstOf cmd).period dev := by
      rw [roundArgs_convert, tunedConvert_roundArgs, burst_period hburst]
    have hend : (roundArgs dev (roundArgs dev (roundArgs dev cmd).2).2).2.scanEndArg =
        cmd.scanEndArg := by
      rw [(lens_roundArgs dev _).2, (lens_roundArgs dev _).2, (lens_roundArgs dev _).2]
    obtain ⟨hbegin', hconvert'⟩ : burst (roundArgs dev (roundArgs dev (roundArgs dev cmd).2).2).2 :=
      (burst_roundArgs dev _).mpr ((burst_roundArgs dev _).mpr ((burst_roundArgs dev _).mpr hburst))
    constructor
    · intro hprotected
      have hlong := hprotected.scan hbegin' (.inr hconvert')
      rw [hscan, hconvert, hend] at hlong
      exact ⟨hstuck, hlong⟩
    · rintro ⟨-, hlong⟩
      refine ⟨hkept, fun _ _ => ?_⟩
      rw [hscan, hconvert, hend]
      exact hlong

end Bursts

end Comedi.Pci9118Periods
