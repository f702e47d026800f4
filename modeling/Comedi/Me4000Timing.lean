import Comedi.BitFlags
import Comedi.Me4000Cmdtest

namespace Comedi.Me4000Timing

open ArgFixes Me4000 Me4000Cmdtest Retests
open ConfigRetry (trigRoundNearest trigRoundDown trigRoundUp)
open Pci230 (trigExt)
open RtTimer (trigNone trigNow trigFollow trigTimer trigCount)

variable {ai : AiInfo} {cmd : Cmd} {flags arg : U32}

/-- The ticks of a time in nanoseconds, rounded in the direction that the flags select. -/
def exactTicks (flags : U32) (ns : Nat) : Nat :=
  if flags &&& roundFlags = trigRoundNearest then (ns * 33 + 500) / 1000
  else if flags &&& roundFlags = trigRoundDown then ns * 33 / 1000
  else (ns * 33 + 999) / 1000

/-- The product for the ticks has 32 bits, and the nearest number of ticks is not above it. -/
structure Tame (flags arg : U32) : Prop where
  small : arg.toNat * 33 < 2 ^ 32
  nearest : flags &&& roundFlags = trigRoundNearest → arg.toNat * 33 % 1000 < 500

/-- What is loaded for an accepted command is what the command says. -/
structure Exact (cmd : Cmd) : Prop where
  init : (aiWriteTimer (aiRoundCmdArgs cmd)).scanPreTimer.toNat + 1 =
    exactTicks cmd.flags cmd.startArg.toNat
  scan : exactTicks cmd.flags cmd.scanBeginArg.toNat = 0 ∧
      (aiWriteTimer (aiRoundCmdArgs cmd)).scanTimer = none ∨
    ∃ timer, (aiWriteTimer (aiRoundCmdArgs cmd)).scanTimer = some timer ∧
      timer.toNat + 1 = exactTicks cmd.flags cmd.scanBeginArg.toNat
  chan : (aiWriteTimer (aiRoundCmdArgs cmd)).chanTimer.toNat + 1 =
    exactTicks cmd.flags cmd.convertArg.toNat
  chanPre : (aiWriteTimer (aiRoundCmdArgs cmd)).chanPreTimer =
    (aiWriteTimer (aiRoundCmdArgs cmd)).chanTimer
  long : cmd.scanBeginSrc = trigTimer →
    cmd.chanlistLen.toNat * exactTicks cmd.flags cmd.convertArg.toNat <
      exactTicks cmd.flags cmd.scanBeginArg.toNat
  count : cmd.stopSrc = trigCount →
    ∃ samples, sampleCounter cmd = some samples ∧
      samples.toNat = cmd.stopArg.toNat * cmd.chanlistLen.toNat

/-- Each source is a single one that the board has. -/
structure Supported (cmd : Cmd) : Prop where
  start : cmd.startSrc ∈ [trigNow, trigExt]
  scanBegin : cmd.scanBeginSrc ∈ [trigFollow, trigTimer, trigExt]
  convert : cmd.convertSrc ∈ [trigTimer, trigExt]
  scanEnd : cmd.scanEndSrc ∈ [trigNone, trigCount]
  stop : cmd.stopSrc ∈ [trigNone, trigCount]

/-- The arguments that stage 3 leaves or puts. -/
def startArgOf (cmd : Cmd) : U32 :=
  (put ((aiRoundCmdArgs cmd).init < 66) 2000 cmd.startArg).2

def scanBeginArgOf (cmd : Cmd) : U32 :=
  (put ((aiRoundCmdArgs cmd).scan ≠ 0 ∧ (aiRoundCmdArgs cmd).scan < 67) 2031 cmd.scanBeginArg).2

def convertArgOf (cmd : Cmd) : U32 :=
  (put ((aiRoundCmdArgs cmd).chan < 66) 2000 cmd.convertArg).2

/-- No product of the arguments passes 32 bits, no time would have to be rounded up to the nearest
number of ticks, and a timed scan is long enough. -/
structure Clear (cmd : Cmd) : Prop where
  start : Tame cmd.flags (startArgOf cmd)
  scanBegin : Tame cmd.flags (scanBeginArgOf cmd)
  convert : Tame cmd.flags (convertArgOf cmd)
  long : cmd.scanBeginSrc = trigTimer → cmd.convertSrc = trigTimer →
    cmd.chanlistLen.toNat * exactTicks cmd.flags (convertArgOf cmd).toNat <
      exactTicks cmd.flags (scanBeginArgOf cmd).toNat
  count : cmd.stopSrc = trigCount → cmd.chanlistLen.toNat * cmd.stopArg.toNat < 2 ^ 32

def masked (cmd : Cmd) : Cmd := { cmd with flags := cmd.flags &&& roundFlags }

section Rounding

theorem flags_and (flags m : U32) (h : roundFlags &&& m = m) :
    flags &&& roundFlags &&& m = flags &&& m := by
  rw [BitVec.and_assoc, h]

theorem roundArg_masked (flags arg : U32) :
    roundArg (flags &&& roundFlags) arg = roundArg flags arg := by
  unfold roundArg
  rw [flags_and flags trigRoundNearest (by decide), flags_and flags trigRoundUp (by decide)]

/-- The nearest rounding has no bit, so it rounds down. -/
theorem roundArg_eq (flags : U32) (h : arg ≠ 0) : roundArg flags arg =
    if flags &&& trigRoundUp ≠ 0 ∧ arg * 33 % 1000 ≠ 0 then arg * 33 / 1000 + 1
    else arg * 33 / 1000 := by
  have hnearest : flags &&& trigRoundNearest = 0 := BitVec.and_zero
  unfold roundArg
  dsimp only
  rw [if_neg h, if_neg (not_not.mpr hnearest)]
  by_cases hup : flags &&& trigRoundUp ≠ 0
  · rw [if_pos hup]
    by_cases hrest : arg * 33 % 1000 ≠ 0
    · rw [if_pos hrest, if_pos ⟨hup, hrest⟩]
    · rw [if_neg hrest, if_neg fun hboth => hrest hboth.2]
  · rw [if_neg hup, if_neg fun hboth => hup hboth.1]

theorem up_of_mode (h : flags &&& roundFlags ≠ trigRoundNearest)
    (h' : flags &&& roundFlags ≠ trigRoundDown) : flags &&& trigRoundUp ≠ 0 := by
  intro hup
  have hsplit : flags &&& roundFlags = flags &&& trigRoundDown := by
    have hflags : roundFlags = trigRoundUp ||| trigRoundDown := by decide
    rw [hflags, BitVec.and_or_distrib_left, hup]
    exact BitVec.zero_or
  rw [hsplit] at h h'
  exact (BitFlags.and_twoPow_cases flags 16).elim h h'

theorem not_up_of_mode (h : flags &&& roundFlags = trigRoundNearest ∨
    flags &&& roundFlags = trigRoundDown) : flags &&& trigRoundUp = 0 := by
  rw [← flags_and flags trigRoundUp (by decide)]
  obtain hnearest | hdown := h
  · rw [hnearest]
    decide
  · rw [hdown]
    decide

theorem roundArg_exact (h : Tame flags arg) :
    (roundArg flags arg).toNat = exactTicks flags arg.toNat := by
  have hproduct : (arg * 33).toNat = arg.toNat * 33 := by
    rw [BitVec.toNat_mul]
    exact Nat.mod_eq_of_lt h.small
  have hticks : (arg * 33 / 1000).toNat = arg.toNat * 33 / 1000 := by
    rw [BitVec.toNat_udiv, hproduct]
    rfl
  have hrest : (arg * 33 % 1000).toNat = arg.toNat * 33 % 1000 := by
    rw [BitVec.toNat_umod, hproduct]
    rfl
  have hsmall := h.small
  by_cases hzero : arg = 0
  · rw [hzero]
    unfold exactTicks
    split
    · rfl
    split <;> rfl
  rw [roundArg_eq flags hzero]
  unfold exactTicks
  by_cases hnearest : flags &&& roundFlags = trigRoundNearest
  · have hless := h.nearest hnearest
    rw [if_pos hnearest, if_neg fun hboth => hboth.1 (not_up_of_mode (.inl hnearest)), hticks]
    omega
  rw [if_neg hnearest]
  by_cases hdown : flags &&& roundFlags = trigRoundDown
  · rw [if_pos hdown, if_neg fun hboth => hboth.1 (not_up_of_mode (.inr hdown)), hticks]
  rw [if_neg hdown]
  have hup := up_of_mode hnearest hdown
  by_cases hnone : arg * 33 % 1000 = 0
  · have hwhole : arg.toNat * 33 % 1000 = 0 := by
      rw [← hrest, hnone]
      rfl
    rw [if_neg fun hboth => hboth.2 hnone, hticks]
    omega
  · have hsome : arg.toNat * 33 % 1000 ≠ 0 := fun heq =>
      hnone (BitVec.eq_of_toNat_eq (hrest.trans heq))
    have hone : (1 : U32).toNat = 1 := rfl
    rw [if_pos ⟨hup, hnone⟩, BitVec.toNat_add, hticks, hone]
    generalize arg.toNat * 33 = product at hsmall hsome ⊢
    omega

theorem roundArg_least (flags : U32) : roundArg flags 2000 = 66 := by
  rw [roundArg_eq flags (by decide), if_neg fun hboth => hboth.2 (by decide)]
  rfl

theorem roundArg_leastScan (flags : U32) : ¬ roundArg flags 2031 < 67 := by
  rw [roundArg_eq flags (by decide)]
  split <;> decide

theorem aiRoundCmdArgs_masked (cmd : Cmd) : aiRoundCmdArgs (masked cmd) = aiRoundCmdArgs cmd := by
  unfold aiRoundCmdArgs masked
  rw [roundArg_masked, roundArg_masked, roundArg_masked]

theorem exactTicks_congr {flags' : U32} (h : flags' &&& roundFlags = flags &&& roundFlags)
    (ns : Nat) : exactTicks flags' ns = exactTicks flags ns := by
  unfold exactTicks
  rw [h]

theorem Tame.congr {flags' : U32} (h : Tame flags arg)
    (hflags : flags' &&& roundFlags = flags &&& roundFlags) : Tame flags' arg :=
  ⟨h.small, fun hnearest => h.nearest (hflags.symm.trans hnearest)⟩

end Rounding

section Steps

/-- What stage 3 leaves as it is. -/
structure Ticked (cmd : Cmd) : Prop where
  start : ¬ (aiRoundCmdArgs cmd).init < 66
  scanBegin : ¬ ((aiRoundCmdArgs cmd).scan ≠ 0 ∧ (aiRoundCmdArgs cmd).scan < 67)
  convert : ¬ (aiRoundCmdArgs cmd).chan < 66

/-- What stage 4 puts right. -/
structure Ended (cmd : Cmd) : Prop where
  count : ¬ (cmd.stopSrc = trigCount ∧ cmd.stopArg = 0)
  last : ¬ (cmd.scanEndSrc = trigCount ∧ cmd.scanEndArg = 0)

/-- A command with a channel list that is accepted, which no slip of the test concerns. -/
structure Request (ai : AiInfo) (cmd : Cmd) : Prop where
  supported : Supported cmd
  chanlist : aiCheckChanlist ai cmd = 0
  clear : Clear cmd

/-- The command after stage 2, where its sources are not one of the combinations. -/
def recombined (cmd : Cmd) : Cmd :=
  { masked cmd with startSrc := trigNow, scanBeginSrc := trigFollow, convertSrc := trigTimer }

/-- The command after stage 3. -/
def raised (cmd : Cmd) : Cmd :=
  { masked cmd with
    startArg := startArgOf cmd
    scanBeginArg := scanBeginArgOf cmd
    convertArg := convertArgOf cmd }

/-- The command after stage 4, with a scan that is long enough. -/
def ended (cmd : Cmd) : Cmd :=
  { masked cmd with
    stopArg := (put (cmd.stopSrc = trigCount ∧ cmd.stopArg = 0) 1 cmd.stopArg).2
    scanEndArg := (put (cmd.scanEndSrc = trigCount ∧ cmd.scanEndArg = 0) 1 cmd.scanEndArg).2 }

theorem checkSource_valid {valid : List U32} {other src : U32} (h : src ∈ valid) :
    checkSource valid other src = (false, src) := if_pos h

theorem Supported.sources (h : Supported cmd) : checkSources cmd = (false, cmd) := by
  unfold checkSources
  rw [checkSource_valid h.start, checkSource_valid h.scanBegin, checkSource_valid h.convert,
    checkSource_valid h.scanEnd, checkSource_valid h.stop]
  rfl

theorem Supported.masked (h : Supported cmd) : Supported (masked cmd) :=
  ⟨h.start, h.scanBegin, h.convert, h.scanEnd, h.stop⟩

theorem Supported.combinedStop (h : Supported cmd) : combinedStop cmd := by
  unfold Me4000Cmdtest.combinedStop stopCombinations
  rcases List.mem_pair.mp h.stop with hstop | hstop
  · rcases List.mem_pair.mp h.scanEnd with hscanEnd | hscanEnd
    · rw [hstop, hscanEnd]
      decide
    · rw [hstop, hscanEnd]
      decide
  · rcases List.mem_pair.mp h.scanEnd with hscanEnd | hscanEnd
    · rw [hstop, hscanEnd]
      decide
    · rw [hstop, hscanEnd]
      decide

theorem conflicts_none (h : Supported cmd) (hstart : combinedStart cmd) :
    checkConflicts cmd = (false, cmd) := by
  unfold checkConflicts
  rw [put_of_not (not_not.mpr hstart)]
  dsimp only
  rw [put_of_not (not_not.mpr h.combinedStop)]
  rfl

theorem conflicts_some (h : Supported cmd) (hstart : ¬ combinedStart cmd) :
    checkConflicts cmd = (true,
      { cmd with startSrc := trigNow, scanBeginSrc := trigFollow, convertSrc := trigTimer }) := by
  have hstop : ¬ ¬ combinedStop { cmd with
      startSrc := trigNow, scanBeginSrc := trigFollow, convertSrc := trigTimer } :=
    not_not.mpr h.combinedStop
  unfold checkConflicts
  rw [put_of hstart]
  dsimp only
  rw [put_of_not hstop]
  rfl

theorem len_pos (h : aiCheckChanlist ai cmd = 0) : ¬ cmd.chanlistLen < 1 := by
  intro hless
  have hzero : cmd.chanlistLen = 0 := by bv_omega
  unfold aiCheckChanlist at h
  dsimp only at h
  rw [if_pos hzero] at h
  exact absurd h (by decide)

theorem stages_conflict (h : Supported cmd) (hstart : ¬ combinedStart cmd) :
    checkStages ai cmd = (2,
      { cmd with startSrc := trigNow, scanBeginSrc := trigFollow, convertSrc := trigTimer }) := by
  unfold checkStages
  rw [h.sources]
  dsimp only
  rw [if_neg Bool.false_ne_true, conflicts_some h hstart]
  rfl

theorem stages_combined (h : Supported cmd) (hstart : combinedStart cmd) :
    checkStages ai cmd =
      if (checkArgs (aiRoundCmdArgs cmd) cmd).1 then (3, (checkArgs (aiRoundCmdArgs cmd) cmd).2)
      else
        let checked := checkTicks (aiRoundCmdArgs cmd) (checkArgs (aiRoundCmdArgs cmd) cmd).2
        if checked.1 then (4, checked.2)
        else if aiCheckChanlist ai checked.2 ≠ 0 then (5, checked.2)
        else (0, checked.2) := by
  unfold checkStages
  rw [h.sources]
  dsimp only
  rw [if_neg Bool.false_ne_true, conflicts_none h hstart]
  dsimp only
  rw [if_neg Bool.false_ne_true]

theorem checkArgs_snd (hlen : ¬ cmd.chanlistLen < 1) :
    (checkArgs (aiRoundCmdArgs cmd) cmd).2 =
      { cmd with
        startArg := startArgOf cmd
        scanBeginArg := scanBeginArgOf cmd
        convertArg := convertArgOf cmd } := by
  unfold checkArgs
  dsimp only
  rw [put_of_not hlen]
  rfl

theorem checkArgs_eq_false (hlen : ¬ cmd.chanlistLen < 1) :
    (checkArgs (aiRoundCmdArgs cmd) cmd).1 = false ↔ Ticked cmd := by
  unfold checkArgs
  dsimp only
  simp only [Bool.or_eq_false_iff, put_eq_false]
  constructor
  · rintro ⟨⟨⟨-, hstart⟩, hscanBegin⟩, hconvert⟩
    exact ⟨hstart, hscanBegin, hconvert⟩
  · rintro ⟨hstart, hscanBegin, hconvert⟩
    exact ⟨⟨⟨hlen, hstart⟩, hscanBegin⟩, hconvert⟩

theorem Ticked.startArgOf (h : Ticked cmd) : startArgOf cmd = cmd.startArg :=
  congrArg Prod.snd (put_of_not h.start)

theorem Ticked.scanBeginArgOf (h : Ticked cmd) : scanBeginArgOf cmd = cmd.scanBeginArg :=
  congrArg Prod.snd (put_of_not h.scanBegin)

theorem Ticked.convertArgOf (h : Ticked cmd) : convertArgOf cmd = cmd.convertArg :=
  congrArg Prod.snd (put_of_not h.convert)

theorem ticked_raised (cmd : Cmd) : Ticked (raised cmd) := by
  have hleast : ∀ arg : U32, ¬ roundArg (cmd.flags &&& roundFlags)
      (put (roundArg cmd.flags arg < 66) 2000 arg).2 < 66 := by
    intro arg
    unfold put
    split
    · rw [roundArg_least]
      decide
    next hlarge =>
      rw [roundArg_masked]
      exact hlarge
  refine ⟨hleast cmd.startArg, ?_, hleast cmd.convertArg⟩
  change ¬ (roundArg (cmd.flags &&& roundFlags) (put _ _ _).2 ≠ 0 ∧
    roundArg (cmd.flags &&& roundFlags) (put _ _ _).2 < 67)
  unfold put
  split
  · exact fun hboth => roundArg_leastScan _ hboth.2
  next hlarge =>
    rw [roundArg_masked]
    exact hlarge

/-- A scan that the check of stage 4 finds long enough. -/
def Long (cmd : Cmd) : Prop :=
  cmd.scanBeginSrc = trigTimer →
    ¬ (aiRoundCmdArgs cmd).scan ≤ cmd.chanlistLen * (aiRoundCmdArgs cmd).chan

theorem checkTicks_eq (h : Ticked cmd) (hlong : Long cmd) :
    ((checkTicks (aiRoundCmdArgs cmd) cmd).1 = false ↔ Ended cmd) ∧
      (checkTicks (aiRoundCmdArgs cmd) cmd).2 =
        { cmd with
          stopArg := (put (cmd.stopSrc = trigCount ∧ cmd.stopArg = 0) 1 cmd.stopArg).2
          scanEndArg :=
            (put (cmd.scanEndSrc = trigCount ∧ cmd.scanEndArg = 0) 1 cmd.scanEndArg).2 } := by
  have hstart : ¬ (aiRoundCmdArgs cmd).init < me4000AiMinTicks := h.start
  have hconvert : ¬ (cmd.convertSrc = trigTimer ∧ (aiRoundCmdArgs cmd).chan < me4000AiMinTicks) :=
    fun hless => h.convert hless.2
  have hscan : ¬ (cmd.scanBeginSrc = trigTimer ∧
      (aiRoundCmdArgs cmd).scan ≤ cmd.chanlistLen * (aiRoundCmdArgs cmd).chan) :=
    fun hshort => hlong hshort.1 hshort.2
  unfold checkTicks
  dsimp only
  rw [put_of_not hstart, put_of_not hconvert, put_of_not hscan]
  simp only [Bool.or_eq_false_iff, put_eq_false, Bool.false_or]
  exact ⟨⟨fun hend => ⟨hend.1, hend.2⟩, fun hend => ⟨hend.1, hend.2⟩⟩, trivial⟩

end Steps

section Settling

theorem mode_masked (flags : U32) :
    flags &&& roundFlags &&& roundFlags = flags &&& roundFlags := by
  rw [BitVec.and_assoc, BitVec.and_self]

/-- A command that differs no more than the stages make it differ is as clear. -/
theorem Clear.congr {cmd' : Cmd} (h : Clear cmd)
    (hflags : cmd'.flags &&& roundFlags = cmd.flags &&& roundFlags)
    (hstart : startArgOf cmd' = startArgOf cmd)
    (hscanBegin : scanBeginArgOf cmd' = scanBeginArgOf cmd)
    (hconvert : convertArgOf cmd' = convertArgOf cmd)
    (hlen : cmd'.chanlistLen = cmd.chanlistLen)
    (htimed : cmd'.scanBeginSrc = trigTimer →
      cmd.scanBeginSrc = trigTimer ∧ cmd'.convertSrc = cmd.convertSrc)
    (hcount : cmd'.stopSrc = trigCount →
      cmd'.chanlistLen.toNat * cmd'.stopArg.toNat < 2 ^ 32) : Clear cmd' where
  start := hstart ▸ h.start.congr hflags
  scanBegin := hscanBegin ▸ h.scanBegin.congr hflags
  convert := hconvert ▸ h.convert.congr hflags
  long hscan htimer := by
    obtain ⟨hscan', hsrc⟩ := htimed hscan
    rw [exactTicks_congr hflags, exactTicks_congr hflags, hscanBegin, hconvert, hlen]
    exact h.long hscan' (hsrc ▸ htimer)
  count := hcount

theorem argsOf_masked (cmd : Cmd) : startArgOf (masked cmd) = startArgOf cmd ∧
    scanBeginArgOf (masked cmd) = scanBeginArgOf cmd ∧
      convertArgOf (masked cmd) = convertArgOf cmd := by
  unfold startArgOf scanBeginArgOf convertArgOf
  rw [aiRoundCmdArgs_masked]
  exact ⟨rfl, rfl, rfl⟩

theorem argsOf_raised (cmd : Cmd) : startArgOf (raised cmd) = startArgOf cmd ∧
    scanBeginArgOf (raised cmd) = scanBeginArgOf cmd ∧
      convertArgOf (raised cmd) = convertArgOf cmd :=
  ⟨(ticked_raised cmd).startArgOf, (ticked_raised cmd).scanBeginArgOf,
    (ticked_raised cmd).convertArgOf⟩

theorem Request.recombined (h : Request ai cmd) : Request ai (recombined cmd) := by
  obtain ⟨hstart, hscanBegin, hconvert⟩ := argsOf_masked cmd
  have hfollow : ¬ trigFollow = trigTimer := by decide
  exact ⟨⟨List.mem_cons_self, List.mem_cons_self, List.mem_cons_self, h.supported.scanEnd,
    h.supported.stop⟩, h.chanlist, h.clear.congr (mode_masked cmd.flags) hstart hscanBegin hconvert
      rfl (fun htimer => absurd htimer hfollow) h.clear.count⟩

theorem Request.raised (h : Request ai cmd) : Request ai (raised cmd) := by
  obtain ⟨hstart, hscanBegin, hconvert⟩ := argsOf_raised cmd
  exact ⟨⟨h.supported.start, h.supported.scanBegin, h.supported.convert, h.supported.scanEnd,
    h.supported.stop⟩, h.chanlist, h.clear.congr (mode_masked cmd.flags) hstart hscanBegin hconvert
      rfl (fun htimer => ⟨htimer, rfl⟩) h.clear.count⟩

theorem Request.ended (h : Request ai cmd) : Request ai (ended cmd) := by
  obtain ⟨hstart, hscanBegin, hconvert⟩ := argsOf_masked cmd
  refine ⟨⟨h.supported.start, h.supported.scanBegin, h.supported.convert, h.supported.scanEnd,
    h.supported.stop⟩, h.chanlist, h.clear.congr (mode_masked cmd.flags) hstart hscanBegin hconvert
      rfl (fun htimer => ⟨htimer, rfl⟩) fun hcount => ?_⟩
  change cmd.chanlistLen.toNat * (put (α := U32) _ 1 cmd.stopArg).2.toNat < 2 ^ 32
  have hlen := cmd.chanlistLen.isLt
  unfold put
  split
  · exact (Nat.mul_one _).trans_lt hlen
  · exact h.clear.count hcount

theorem ended_ended (cmd : Cmd) : Ended (ended cmd) := by
  have hput : ∀ (src arg : U32),
      ¬ (src = trigCount ∧ (put (src = trigCount ∧ arg = 0) 1 arg).2 = 0) := by
    intro src arg
    unfold put
    split
    · exact fun hboth => absurd hboth.2 (by decide)
    next hgood => exact hgood
  exact ⟨hput cmd.stopSrc cmd.stopArg, hput cmd.scanEndSrc cmd.scanEndArg⟩

theorem timed_convert (hstart : combinedStart cmd) (hscan : cmd.scanBeginSrc = trigTimer) :
    cmd.convertSrc = trigTimer := by
  have hfollow : ¬ trigTimer = trigFollow := by decide
  have hext : ¬ trigTimer = trigExt := by decide
  unfold combinedStart startCombinations at hstart
  simp only [hscan, List.mem_cons, Prod.mk.injEq, List.not_mem_nil, or_false] at hstart
  rcases hstart with ⟨-, -, htimer⟩ | ⟨-, hscan', -⟩ | ⟨-, -, htimer⟩ | ⟨-, hscan', -⟩ |
    ⟨-, hscan', -⟩ | ⟨-, hscan', -⟩
  · exact htimer
  · exact absurd hscan' hfollow
  · exact htimer
  · exact absurd hscan' hfollow
  · exact absurd hscan' hext
  · exact absurd hscan' hext

/-- The ticks of a command that stage 3 leaves as it is. -/
theorem ticks_exact (h : Request ai cmd) (hticked : Ticked cmd) :
    (aiRoundCmdArgs cmd).init.toNat = exactTicks cmd.flags cmd.startArg.toNat ∧
      (aiRoundCmdArgs cmd).scan.toNat = exactTicks cmd.flags cmd.scanBeginArg.toNat ∧
        (aiRoundCmdArgs cmd).chan.toNat = exactTicks cmd.flags cmd.convertArg.toNat := by
  obtain ⟨hstart, hscanBegin, hconvert, -, -⟩ := h.clear
  rw [hticked.startArgOf] at hstart
  rw [hticked.scanBeginArgOf] at hscanBegin
  rw [hticked.convertArgOf] at hconvert
  exact ⟨roundArg_exact hstart, roundArg_exact hscanBegin, roundArg_exact hconvert⟩

theorem scan_longer (h : Request ai cmd) (hstart : combinedStart cmd) (hticked : Ticked cmd)
    (hscan : cmd.scanBeginSrc = trigTimer) :
    cmd.chanlistLen.toNat * exactTicks cmd.flags cmd.convertArg.toNat <
      exactTicks cmd.flags cmd.scanBeginArg.toNat := by
  have hlong := h.clear.long hscan (timed_convert hstart hscan)
  rwa [hticked.convertArgOf, hticked.scanBeginArgOf] at hlong

theorem long_of_clear (h : Request ai cmd) (hstart : combinedStart cmd) (hticked : Ticked cmd) :
    Long cmd := by
  intro hscan hshort
  obtain ⟨-, hscanTicks, hchanTicks⟩ := ticks_exact h hticked
  have hlong := scan_longer h hstart hticked hscan
  have hle : (aiRoundCmdArgs cmd).scan.toNat ≤
      (cmd.chanlistLen * (aiRoundCmdArgs cmd).chan).toNat := hshort
  rw [← hscanTicks, ← hchanTicks] at hlong
  rw [BitVec.toNat_mul] at hle
  exact absurd (hle.trans (Nat.mod_le _ _)) (Nat.not_le.mpr hlong)

theorem loaded {ticks : U32} {n : Nat} (hpos : 0 < ticks.toNat) (h : ticks.toNat = n) :
    (ticks - 1).toNat + 1 = n := by
  have hone : (1 : U32).toNat = 1 := rfl
  have hlt := ticks.isLt
  rw [BitVec.toNat_sub, hone]
  omega

theorem exact_of_ticked (h : Request ai cmd) (hstart : combinedStart cmd) (hticked : Ticked cmd) :
    Exact cmd := by
  obtain ⟨hinit, hscan, hchan⟩ := ticks_exact h hticked
  have hinitPos : 0 < (aiRoundCmdArgs cmd).init.toNat :=
    Nat.lt_of_lt_of_le (by decide) (BitVec.not_lt.mp hticked.start)
  have hchanPos : 0 < (aiRoundCmdArgs cmd).chan.toNat :=
    Nat.lt_of_lt_of_le (by decide) (BitVec.not_lt.mp hticked.convert)
  refine ⟨loaded hinitPos hinit, ?_, loaded hchanPos hchan, rfl,
    fun htimer => scan_longer h hstart hticked htimer, fun hcount => ?_⟩
  · by_cases hzero : (aiRoundCmdArgs cmd).scan = 0
    · refine .inl ⟨?_, if_neg (not_not.mpr hzero)⟩
      rw [← hscan, hzero]
      rfl
    · refine .inr ⟨_, if_pos hzero, loaded ?_ hscan⟩
      exact Nat.pos_of_ne_zero fun heq => hzero (BitVec.eq_of_toNat_eq heq)
  · refine ⟨cmd.chanlistLen * cmd.stopArg, if_pos hcount, ?_⟩
    rw [BitVec.toNat_mul, Nat.mod_eq_of_lt (h.clear.count hcount), Nat.mul_comm]

theorem ticked_masked : Ticked (masked cmd) ↔ Ticked cmd := by
  constructor
  · rintro ⟨hstart, hscanBegin, hconvert⟩
    rw [aiRoundCmdArgs_masked] at hstart hscanBegin hconvert
    exact ⟨hstart, hscanBegin, hconvert⟩
  · rintro ⟨hstart, hscanBegin, hconvert⟩
    rw [← aiRoundCmdArgs_masked] at hstart hscanBegin hconvert
    exact ⟨hstart, hscanBegin, hconvert⟩

theorem test_conflict (h : Request ai cmd) (hstart : ¬ combinedStart cmd) :
    me4000AiDoCmdTest ai cmd = (2, recombined cmd) :=
  stages_conflict h.supported.masked hstart

theorem test_raised (h : Request ai cmd) (hstart : combinedStart cmd) (hticked : ¬ Ticked cmd) :
    me4000AiDoCmdTest ai cmd = (3, raised cmd) := by
  have hlen : ¬ (masked cmd).chanlistLen < 1 := len_pos h.chanlist
  have hbad : (checkArgs (aiRoundCmdArgs (masked cmd)) (masked cmd)).1 = true := by
    rw [← Bool.not_eq_false, checkArgs_eq_false hlen, ticked_masked]
    exact hticked
  obtain ⟨hstartArg, hscanBegin, hconvert⟩ := argsOf_masked cmd
  refine (stages_combined h.supported.masked hstart).trans ?_
  rw [if_pos hbad, checkArgs_snd hlen, hstartArg, hscanBegin, hconvert]
  rfl

/-- Stages 3 and 4 of a command that stage 3 leaves as it is. -/
theorem stages_ticked (h : Request ai cmd) (hstart : combinedStart cmd) (hticked : Ticked cmd) :
    me4000AiDoCmdTest ai cmd =
      if (checkTicks (aiRoundCmdArgs (masked cmd)) (masked cmd)).1 then (4, ended cmd)
      else (0, ended cmd) := by
  have hlen : ¬ (masked cmd).chanlistLen < 1 := len_pos h.chanlist
  have hticked' := ticked_masked.mpr hticked
  have hgood := (checkArgs_eq_false hlen).mpr hticked'
  have hkept : (checkArgs (aiRoundCmdArgs (masked cmd)) (masked cmd)).2 = masked cmd := by
    rw [checkArgs_snd hlen, hticked'.startArgOf, hticked'.scanBeginArgOf, hticked'.convertArgOf]
  have hlong : Long (masked cmd) := by
    have hcmd := long_of_clear h hstart hticked
    unfold Long at hcmd ⊢
    rw [aiRoundCmdArgs_masked]
    exact hcmd
  have hended : (checkTicks (aiRoundCmdArgs (masked cmd)) (masked cmd)).2 = ended cmd :=
    (checkTicks_eq hticked' hlong).2
  have hchanlist : aiCheckChanlist ai (ended cmd) = 0 := h.chanlist
  refine (stages_combined h.supported.masked hstart).trans ?_
  rw [hgood, if_neg Bool.false_ne_true, hkept]
  dsimp only
  rw [hended, if_neg (not_not.mpr hchanlist)]

theorem test_snd (h : Request ai cmd) (hstart : combinedStart cmd) (hticked : Ticked cmd) :
    (me4000AiDoCmdTest ai cmd).2 = ended cmd := by
  rw [stages_ticked h hstart hticked]
  split
  · rfl
  · rfl

theorem accepted_iff (h : Request ai cmd) (hstart : combinedStart cmd) (hticked : Ticked cmd) :
    (me4000AiDoCmdTest ai cmd).1 = 0 ↔ Ended cmd := by
  have hlong : Long (masked cmd) := by
    have hcmd := long_of_clear h hstart hticked
    unfold Long at hcmd ⊢
    rw [aiRoundCmdArgs_masked]
    exact hcmd
  have hended : Ended (masked cmd) ↔ Ended cmd :=
    ⟨fun hend => ⟨hend.count, hend.last⟩, fun hend => ⟨hend.count, hend.last⟩⟩
  rw [stages_ticked h hstart hticked, ← hended,
    ← (checkTicks_eq (ticked_masked.mpr hticked) hlong).1]
  cases (checkTicks (aiRoundCmdArgs (masked cmd)) (masked cmd)).1 with
  | true => exact iff_of_false (by decide : ¬ (4 : Int) = 0) nofun
  | false => exact iff_of_true rfl rfl

theorem settles_ticked (h : Request ai cmd) (hstart : combinedStart cmd) (hticked : Ticked cmd) :
    Settles (me4000AiDoCmdTest ai) Exact 2 cmd := by
  by_cases hended : Ended cmd
  · exact settles_now ((accepted_iff h hstart hticked).mpr hended)
      (exact_of_ticked h hstart hticked) 1
  · have hticked' : Ticked (ended cmd) := by
      obtain ⟨hinit, hscan, hchan⟩ := ticked_masked.mpr hticked
      exact ⟨hinit, hscan, hchan⟩
    refine Settles.next ?_
    rw [test_snd h hstart hticked]
    exact settles_now ((accepted_iff h.ended hstart hticked').mpr (ended_ended cmd))
      (exact_of_ticked h.ended hstart hticked') 0

theorem settles_combined (h : Request ai cmd) (hstart : combinedStart cmd) :
    Settles (me4000AiDoCmdTest ai) Exact 3 cmd := by
  by_cases hticked : Ticked cmd
  · exact (settles_ticked h hstart hticked).mono (by decide)
  · refine Settles.next ?_
    rw [test_raised h hstart hticked]
    exact settles_ticked h.raised hstart (ticked_raised cmd)

theorem settles_request (h : Request ai cmd) : Settles (me4000AiDoCmdTest ai) Exact 4 cmd := by
  by_cases hstart : combinedStart cmd
  · exact (settles_combined h hstart).mono (by decide)
  · have hstart' : combinedStart (recombined cmd) := by
      unfold combinedStart startCombinations
      exact List.mem_cons_of_mem _ List.mem_cons_self
    refine Settles.next ?_
    rw [test_conflict h hstart]
    exact settles_combined h.recombined hstart'

end Settling

section Kept

theorem checkSource_kept {valid : List U32} {other src : U32}
    (h : (checkSource valid other src).1 = false) : (checkSource valid other src).2 = src := by
  unfold checkSource at h ⊢
  split
  · rfl
  next hsrc =>
    rw [if_neg hsrc] at h
    split at h <;> cases h

theorem checkSources_kept (h : (checkSources cmd).1 = false) : (checkSources cmd).2 = cmd := by
  unfold checkSources at h ⊢
  dsimp only at h ⊢
  simp only [Bool.or_eq_false_iff] at h
  rw [checkSource_kept h.1.1.1.1, checkSource_kept h.1.1.1.2, checkSource_kept h.1.1.2,
    checkSource_kept h.1.2, checkSource_kept h.2]

theorem checkConflicts_kept (h : (checkConflicts cmd).1 = false) :
    (checkConflicts cmd).2 = cmd := by
  unfold checkConflicts at h ⊢
  dsimp only at h ⊢
  obtain ⟨hstart, hstop⟩ := Bool.or_eq_false_iff.mp h
  rw [put_kept hstart] at hstop ⊢
  exact put_kept hstop

theorem checkArgs_kept {ticks : Ticks} (h : (checkArgs ticks cmd).1 = false) :
    (checkArgs ticks cmd).2 = cmd := by
  unfold checkArgs at h ⊢
  dsimp only at h ⊢
  simp only [Bool.or_eq_false_iff] at h
  rw [put_kept h.1.1.1, put_kept h.1.1.2, put_kept h.1.2, put_kept h.2]

theorem checkTicks_kept {ticks : Ticks} (h : (checkTicks ticks cmd).1 = false) :
    (checkTicks ticks cmd).2 = cmd := by
  unfold checkTicks at h ⊢
  dsimp only at h ⊢
  simp only [Bool.or_eq_false_iff] at h
  obtain ⟨⟨⟨⟨hstart, hconvert⟩, hscanEnd⟩, hcount⟩, hlast⟩ := h
  rw [put_kept hscanEnd] at hlast ⊢
  rw [put_kept hstart, put_kept hconvert, put_kept hcount, put_kept hlast]

theorem stages_kept (h : (checkStages ai cmd).1 = 0) : (checkStages ai cmd).2 = cmd := by
  unfold checkStages at h ⊢
  dsimp only at h ⊢
  split at h
  · exact absurd (show (1 : Int) = 0 from h) (by decide)
  next hsources =>
    rw [if_neg hsources]
    rw [checkSources_kept (Bool.eq_false_iff.mpr hsources)] at h ⊢
    split at h
    · exact absurd (show (2 : Int) = 0 from h) (by decide)
    next hconflicts =>
      rw [if_neg hconflicts]
      rw [checkConflicts_kept (Bool.eq_false_iff.mpr hconflicts)] at h ⊢
      split at h
      · exact absurd (show (3 : Int) = 0 from h) (by decide)
      next hargs =>
        rw [if_neg hargs]
        rw [checkArgs_kept (Bool.eq_false_iff.mpr hargs)] at h ⊢
        split at h
        · exact absurd (show (4 : Int) = 0 from h) (by decide)
        next hticks =>
          rw [if_neg hticks]
          rw [checkTicks_kept (Bool.eq_false_iff.mpr hticks)]
          split
          · rfl
          · rfl

/-- An accepted command is left as it is, but for the flags that are not about rounding. -/
theorem accepted_kept (ai : AiInfo) (cmd : Cmd) (h : (me4000AiDoCmdTest ai cmd).1 = 0) :
    (me4000AiDoCmdTest ai cmd).2 = masked cmd := stages_kept h

/-- One channel, with a scan of 1 ms and conversions of 2 µs. -/
def slowScan (flags : U32) : Cmd :=
  { flags, startSrc := trigNow, startArg := 2000, scanBeginSrc := trigTimer,
    scanBeginArg := 1000000, convertSrc := trigTimer, convertArg := 1000, scanEndSrc := trigNone,
    stopSrc := trigCount, stopArg := 0, chanlist := .kernel [0x00020003], chanlistLen := 1 }

end Kept

end Comedi.Me4000Timing
