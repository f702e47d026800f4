import Comedi.BitFlags
import Comedi.ComediTestAmends
import Comedi.I8253Pacing
import Comedi.Pcidas

namespace Comedi.PcidasSettles

open I8253 I8253Pacing I8253Periods Pcidas Retests
open ComediTest (fix)
open ComediTestAmends (fix_snd fix_kept)
open Pci230 (trigExt crInvert)
open RtTimer (maskSrc trigNone trigNow trigFollow trigTimer trigCount)

variable {mode m : U32} {t : I8253.Timer}

theorem evenBase : EvenBase timerBase := ⟨by decide, by decide, by decide⟩

/-- Steps 3 and 4 for a command of which only the period can be wrong. -/
def tune (least mode : U32) (t : I8253.Timer) : Int × I8253.Timer :=
  if t.nanosec < least then (3, { t with nanosec := least })
  else
    let paced := cascadeNsToTimer2div timerBase t mode
    (if t.nanosec ≠ paced.nanosec then 4 else 0, paced)

theorem tune_low (h : t.nanosec < m) : tune m mode t = (3, { t with nanosec := m }) := if_pos h

theorem tune_high (h : ¬ t.nanosec < m) :
    tune m mode t =
      (if t.nanosec ≠ (cascadeNsToTimer2div timerBase t mode).nanosec then 4 else 0,
        cascadeNsToTimer2div timerBase t mode) := if_neg h

theorem tune_of_steady (hs : Steady timerBase t.nanosec) (hle : ¬ t.nanosec < m) :
    (tune m mode t).1 = 0 := by
  rw [tune_high hle]
  exact if_neg (not_not.mpr (hs t.d1 t.d2 mode).symm)

/-- A period is raised to the least one only where the search has found none. -/
theorem tune_settles (hm : m = 0 ∨ IsProduct timerBase m.toNat) (hle : ¬ t.nanosec < m) :
    Settles (tune m mode) (fun _ => True) 3 t := by
  have hsteady : Steady timerBase m := by
    rcases hm with rfl | hm
    · exact steady_zero evenBase
    · exact steady_of_isProduct evenBase hm
  rcases cascade_outcome evenBase t mode with hsame | hs
  · refine settles_now ?_ trivial 2
    rw [tune_high hle]
    exact if_neg (not_not.mpr hsame.symm)
  · refine Settles.next ?_
    rw [tune_high hle]
    dsimp only
    by_cases hlow : (cascadeNsToTimer2div timerBase t mode).nanosec < m
    · refine Settles.next ?_
      rw [tune_low hlow]
      exact settles_now (tune_of_steady (t := ⟨_, _, m⟩) hsteady (Nat.lt_irrefl m.toNat)) trivial 0
    · exact settles_now (tune_of_steady hs hlow) trivial 1

section Commands

/-- The sources that `cb_pcidas_ai_cmdtest` keeps pass its second step. -/
def SourcesPass (cmd : Cmd) : Prop :=
  cmd.scanEndSrc &&& trigCount ≠ 0 ∧ ¬ badSources (maskSources cmd).2

instance (cmd : Cmd) : Decidable (SourcesPass cmd) := inferInstanceAs (Decidable (_ ∧ _))

/-- The start argument after step 3. -/
def startArgOf (board : CbPcidasBoard) (src arg : U32) : U32 :=
  if src = trigExt then
    if board.hasAiTrigInvert = false ∧ arg &&& ~~~startFlags &&& crInvert ≠ 0 then
      arg &&& ~~~startFlags &&& (crFlagsMask &&& ~~~crInvert)
    else arg &&& ~~~startFlags
  else 0

structure StartRight (board : CbPcidasBoard) (src arg : U32) : Prop where
  flags : src = trigExt → arg &&& startFlags = 0
  invert : src = trigExt → board.hasAiTrigInvert = false → arg &&& crInvert = 0
  zero : src ≠ trigExt → arg = 0

/-- Only a period can be wrong. -/
structure ArgsRight (board : CbPcidasBoard) (cmd : Cmd) : Prop where
  start : StartRight board cmd.startSrc cmd.startArg
  scanEnd : cmd.scanEndArg = cmd.chanlistLen
  stop : cmd.stopSrc = trigNone → cmd.stopArg = 0

/-- The two periods that the pacer of the board can make. -/
inductive Pacer where
  | scanBegin
  | convert

def Pacer.paces : Pacer → Cmd → Prop
  | .scanBegin, cmd => cmd.scanBeginSrc = trigTimer ∧ cmd.convertSrc ≠ trigTimer
  | .convert, cmd => cmd.convertSrc = trigTimer ∧ cmd.scanBeginSrc ≠ trigTimer

def Pacer.period : Pacer → Cmd → U32
  | .scanBegin, cmd => cmd.scanBeginArg
  | .convert, cmd => cmd.convertArg

def Pacer.set : Pacer → U32 → Cmd → Cmd
  | .scanBegin, ns, cmd => { cmd with scanBeginArg := ns }
  | .convert, ns, cmd => { cmd with convertArg := ns }

def Pacer.least (board : CbPcidasBoard) : Pacer → Cmd → U32
  | .scanBegin, cmd => board.aiSpeed * cmd.chanlistLen
  | .convert, _ => board.aiSpeed

structure Passing (cmd : Cmd) : Prop where
  masked : (maskSources cmd).1 = false
  sources : ¬ badSources cmd

variable {board : CbPcidasBoard} {cmd : Cmd} {x : AiTest} {p : Pacer}

theorem startRight_startArgOf (board : CbPcidasBoard) (src arg : U32) :
    StartRight board src (startArgOf board src arg) := by
  have hflags : ∀ a : U32, arg &&& ~~~startFlags &&& a &&& startFlags = 0 := by
    intro a
    rw [BitVec.and_assoc, BitVec.and_comm a, ← BitVec.and_assoc,
      BitFlags.cleared (BitVec.and_not_self _)]
    exact BitVec.zero_and
  have hinvert : ∀ a : U32, a &&& (crFlagsMask &&& ~~~crInvert) &&& crInvert = 0 := by
    intro a
    rw [← BitVec.and_assoc]
    exact BitFlags.cleared (BitVec.and_not_self _)
  unfold startArgOf
  refine ⟨fun hext => ?_, fun hext hinv => ?_, fun hext => if_neg hext⟩
  · rw [if_pos hext]
    split
    · exact hflags _
    · exact BitFlags.cleared (BitVec.and_not_self _)
  · rw [if_pos hext]
    split
    · exact hinvert _
    next h => exact not_not.mp fun hne => h ⟨hinv, hne⟩

theorem fixStart_of_right (h : StartRight board cmd.startSrc cmd.startArg) :
    fixStart board cmd = (false, cmd) := by
  unfold fixStart
  split
  next hext =>
    have hflags : fixStartFlags cmd = (false, cmd) := if_neg (not_not.mpr (h.flags hext))
    have hinvert : fixStartInvert board cmd = (false, cmd) :=
      if_neg fun hbad => hbad.2 (h.invert hext hbad.1)
    rw [hflags]
    dsimp only
    rw [hinvert]
    rfl
  next hext => exact if_neg (not_not.mpr (h.zero hext))

theorem fixStart_snd (board : CbPcidasBoard) (cmd : Cmd) :
    (fixStart board cmd).2 =
      { cmd with startArg := startArgOf board cmd.startSrc cmd.startArg } := by
  have hflags : (fixStartFlags cmd).2 =
      { cmd with startArg := cmd.startArg &&& ~~~startFlags } :=
    fix_snd fun h => by rw [BitFlags.clear_absent (not_not.mp h)]
  unfold fixStart startArgOf
  split
  next hext =>
    dsimp only
    rw [hflags]
    unfold fixStartInvert fix
    dsimp only
    split
    · rfl
    · rfl
  next hext => exact fix_snd fun h => by rw [← not_not.mp h]

/-- A command whose wrong arguments are put right. -/
def righted (board : CbPcidasBoard) (cmd : Cmd) : Cmd :=
  { cmd with
    startArg := startArgOf board cmd.startSrc cmd.startArg
    scanBeginArg :=
      if cmd.scanBeginSrc = trigTimer ∧ cmd.scanBeginArg < board.aiSpeed * cmd.chanlistLen then
        board.aiSpeed * cmd.chanlistLen
      else cmd.scanBeginArg
    convertArg :=
      if cmd.convertSrc = trigTimer ∧ cmd.convertArg < board.aiSpeed then board.aiSpeed
      else cmd.convertArg
    scanEndArg := cmd.chanlistLen
    stopArg := if cmd.stopSrc = trigNone then 0 else cmd.stopArg }

theorem slowScanBegin_snd (board : CbPcidasBoard) (cmd : Cmd) : (slowScanBegin board cmd).2 =
    { cmd with
      scanBeginArg :=
        if cmd.scanBeginSrc = trigTimer ∧ cmd.scanBeginArg < board.aiSpeed * cmd.chanlistLen then
          board.aiSpeed * cmd.chanlistLen
        else cmd.scanBeginArg } := by
  unfold slowScanBegin fix
  split
  · rfl
  · rfl

theorem slowConvert_snd (board : CbPcidasBoard) (cmd : Cmd) : (slowConvert board cmd).2 =
    { cmd with
      convertArg :=
        if cmd.convertSrc = trigTimer ∧ cmd.convertArg < board.aiSpeed then board.aiSpeed
        else cmd.convertArg } := by
  unfold slowConvert fix
  split
  · rfl
  · rfl

theorem fixScanEnd_snd (cmd : Cmd) :
    (fixScanEnd cmd).2 = { cmd with scanEndArg := cmd.chanlistLen } := by
  refine fix_snd fun h => ?_
  have heq : cmd.scanEndArg = cmd.chanlistLen := not_not.mp h
  cases cmd
  cases heq
  rfl

theorem fixStop_snd (cmd : Cmd) :
    (fixStop cmd).2 =
      { cmd with stopArg := if cmd.stopSrc = trigNone then 0 else cmd.stopArg } := by
  unfold fixStop fix
  by_cases hnone : cmd.stopSrc = trigNone
  · by_cases hzero : cmd.stopArg = 0
    · rw [if_neg fun h => h.2 hzero, if_pos hnone, ← hzero]
    · rw [if_pos ⟨hnone, hzero⟩, if_pos hnone]
  · rw [if_neg fun h => hnone h.1, if_neg hnone]

theorem fixArgs_snd (board : CbPcidasBoard) (cmd : Cmd) :
    (fixArgs board cmd).2 = righted board cmd := by
  unfold fixArgs
  dsimp only
  rw [fixStart_snd, slowScanBegin_snd]
  dsimp only
  rw [slowConvert_snd]
  dsimp only
  rw [fixScanEnd_snd]
  dsimp only
  rw [fixStop_snd]
  rfl

theorem argsRight_righted (board : CbPcidasBoard) (cmd : Cmd) :
    ArgsRight board (righted board cmd) :=
  ⟨startRight_startArgOf board cmd.startSrc cmd.startArg, rfl, fun h => if_pos h⟩

/-- Where only a period can be wrong, step 3 looks at the periods. -/
theorem fixArgs_of_right (h : ArgsRight board cmd) : fixArgs board cmd =
    ((slowScanBegin board cmd).1 || (slowConvert board (slowScanBegin board cmd).2).1,
      (slowConvert board (slowScanBegin board cmd).2).2) := by
  have hscanEnd : ∀ c : Cmd, c.scanEndArg = c.chanlistLen → fixScanEnd c = (false, c) :=
    fun c hc => if_neg (not_not.mpr hc)
  have hstop : ∀ c : Cmd, (c.stopSrc = trigNone → c.stopArg = 0) → fixStop c = (false, c) :=
    fun c hc => if_neg fun hbad => hbad.2 (hc hbad.1)
  have hslow : (slowConvert board (slowScanBegin board cmd).2).2.scanEndArg =
      (slowConvert board (slowScanBegin board cmd).2).2.chanlistLen := by
    rw [slowConvert_snd, slowScanBegin_snd]
    exact h.scanEnd
  have hslow' : (slowConvert board (slowScanBegin board cmd).2).2.stopSrc = trigNone →
      (slowConvert board (slowScanBegin board cmd).2).2.stopArg = 0 := by
    rw [slowConvert_snd, slowScanBegin_snd]
    exact h.stop
  unfold fixArgs
  rw [fixStart_of_right h.start]
  dsimp only
  rw [hscanEnd _ hslow]
  dsimp only
  rw [hstop _ hslow', Bool.false_or, Bool.or_false, Bool.or_false]

theorem slow_of_paces (h : p.paces cmd) :
    ((slowScanBegin board cmd).1 || (slowConvert board (slowScanBegin board cmd).2).1,
      (slowConvert board (slowScanBegin board cmd).2).2) =
    if p.period cmd < p.least board cmd then (true, p.set (p.least board cmd) cmd)
    else (false, cmd) := by
  cases p with
  | scanBegin =>
    have hconvert : ∀ c : Cmd, c.convertSrc = cmd.convertSrc →
        slowConvert board c = (false, c) := fun c hc => if_neg fun hbad => h.2 (hc ▸ hbad.1)
    have hsrc : (slowScanBegin board cmd).2.convertSrc = cmd.convertSrc := by
      rw [slowScanBegin_snd]
    rw [hconvert _ hsrc]
    unfold slowScanBegin fix
    rw [Bool.or_false]
    by_cases hlow : cmd.scanBeginArg < board.aiSpeed * cmd.chanlistLen
    · rw [if_pos ⟨h.1, hlow⟩]
      exact (if_pos hlow).symm
    · rw [if_neg fun hbad => hlow hbad.2]
      exact (if_neg hlow).symm
  | convert =>
    have hscanBegin : slowScanBegin board cmd = (false, cmd) := if_neg fun hbad => h.2 hbad.1
    rw [hscanBegin]
    dsimp only
    unfold slowConvert fix
    rw [Bool.false_or]
    by_cases hlow : cmd.convertArg < board.aiSpeed
    · rw [if_pos ⟨h.1, hlow⟩]
      exact (if_pos hlow).symm
    · rw [if_neg fun hbad => hlow hbad.2]
      exact (if_neg hlow).symm

/-- Step 4 changes the period alone. -/
theorem roundArgs_of_paces (h : p.paces x.cmd) : roundArgs x =
    (decide (p.period x.cmd ≠ (pace x (p.period x.cmd)).nanosec),
      ⟨(pace x (p.period x.cmd)).d1, (pace x (p.period x.cmd)).d2,
        p.set (pace x (p.period x.cmd)).nanosec x.cmd⟩) := by
  unfold roundArgs
  cases p with
  | scanBegin =>
    have hconvert : ∀ y : AiTest, y.cmd.convertSrc = x.cmd.convertSrc →
        roundConvert y = (false, y) := fun y hy => if_neg fun hbad => h.2 (hy ▸ hbad)
    have hscanBegin : roundScanBegin x = _ := if_pos h.1
    have hsrc : (roundScanBegin x).2.cmd.convertSrc = x.cmd.convertSrc := by rw [hscanBegin]
    dsimp only
    rw [hconvert _ hsrc, hscanBegin]
    dsimp only
    rw [Bool.or_false]
    rfl
  | convert =>
    have hscanBegin : roundScanBegin x = (false, x) := if_neg h.2
    have hconvert : roundConvert x = _ := if_pos h.1
    rw [hscanBegin]
    dsimp only
    rw [hconvert]
    dsimp only
    rw [Bool.false_or]
    rfl

/-- The test of a command whose sources pass, without a channel list. -/
theorem cmdtest_of_passing (h : Passing x.cmd) (hnull : x.cmd.chanlist = .null) :
    cbPcidasAiCmdtest board x =
      if (fixArgs board x.cmd).1 then (3, { x with cmd := (fixArgs board x.cmd).2 })
      else
        let rounded := roundArgs { x with cmd := (fixArgs board x.cmd).2 }
        (if rounded.1 then 4 else 0, rounded.2) := by
  have hkept := RtTimer.cmdtestHelper_ok h.masked
  have hround : (roundArgs { x with cmd := (fixArgs board x.cmd).2 }).2.cmd.chanlist = .null := by
    have hscanBegin : ∀ y : AiTest, (roundScanBegin y).2.cmd.chanlist = y.cmd.chanlist := by
      intro y
      unfold roundScanBegin
      split
      · rfl
      · rfl
    have hconvert : ∀ y : AiTest, (roundConvert y).2.cmd.chanlist = y.cmd.chanlist := by
      intro y
      unfold roundConvert
      split
      · rfl
      · rfl
    unfold roundArgs
    dsimp only
    rw [hconvert, hscanBegin, fixArgs_snd]
    exact hnull
  unfold cbPcidasAiCmdtest
  dsimp only
  rw [if_neg (Bool.eq_false_iff.mp h.masked)]
  unfold maskSources
  rw [hkept, if_neg h.sources]
  split
  · rfl
  · split
    · rfl
    · rw [if_neg fun hbad => hbad.1 hround]

/-- The pacer has a period `t`, at least `least` is wanted, and only that can be wrong. -/
structure Paced (board : CbPcidasBoard) (p : Pacer) (m mode : U32) (x : AiTest)
    (t : I8253.Timer) : Prop where
  passing : Passing x.cmd
  right : ArgsRight board x.cmd
  paces : p.paces x.cmd
  chanlist : x.cmd.chanlist = .null
  flags : x.cmd.flags &&& trigRoundMask = mode
  least : p.least board x.cmd = m
  timer : ⟨x.divisor1, x.divisor2, p.period x.cmd⟩ = t

theorem Paced.set (h : Paced board p m mode x t) (t' : I8253.Timer) :
    Paced board p m mode ⟨t'.d1, t'.d2, p.set t'.nanosec x.cmd⟩ t' := by
  cases p with
  | scanBegin =>
    exact ⟨⟨h.passing.masked, h.passing.sources⟩, ⟨h.right.start, h.right.scanEnd, h.right.stop⟩,
      h.paces, h.chanlist, h.flags, h.least, rfl⟩
  | convert =>
    exact ⟨⟨h.passing.masked, h.passing.sources⟩, ⟨h.right.start, h.right.scanEnd, h.right.stop⟩,
      h.paces, h.chanlist, h.flags, h.least, rfl⟩

/-- The test of such a command is the test of its period. -/
theorem Paced.cmdtest (h : Paced board p m mode x t) :
    cbPcidasAiCmdtest board x = ((tune m mode t).1,
      ⟨(tune m mode t).2.d1, (tune m mode t).2.d2, p.set (tune m mode t).2.nanosec x.cmd⟩) := by
  have hself : p.set (p.period x.cmd) x.cmd = x.cmd := by cases p <;> rfl
  have hns : p.period x.cmd = t.nanosec := congrArg I8253.Timer.nanosec h.timer
  have hd1 : x.divisor1 = t.d1 := congrArg I8253.Timer.d1 h.timer
  have hd2 : x.divisor2 = t.d2 := congrArg I8253.Timer.d2 h.timer
  rw [cmdtest_of_passing h.passing h.chanlist, fixArgs_of_right h.right, slow_of_paces h.paces,
    h.least, hns]
  by_cases hlow : t.nanosec < m
  · rw [if_pos hlow, tune_low hlow]
    dsimp only
    rw [if_pos rfl, ← hd1, ← hd2]
  · have hpace : pace x (p.period x.cmd) = cascadeNsToTimer2div timerBase t mode := by
      unfold pace
      rw [h.flags, h.timer]
    rw [if_neg hlow, tune_high hlow]
    dsimp only
    rw [if_neg Bool.false_ne_true, roundArgs_of_paces h.paces]
    dsimp only
    rw [hpace, hns]
    simp only [decide_eq_true_iff]

theorem Paced.reaches_iff (h : Paced board p m mode x t) (n : Nat) :
    Settles (cbPcidasAiCmdtest board) (fun _ => True) n x ↔
      Settles (tune m mode) (fun _ => True) n t := by
  refine settles_iff_of_simulation (R := Paced board p m mode) ?_ ?_ (fun _ _ _ _ => Iff.rfl) h n
  · intro x t h
    rw [h.cmdtest]
  · intro x t h
    rw [h.cmdtest]
    exact h.set _

theorem fixStart_kept (h : (fixStart board cmd).1 = false) : (fixStart board cmd).2 = cmd := by
  unfold fixStart at h ⊢
  split at h
  next hext =>
    rw [if_pos hext]
    simp only [Bool.or_eq_false_iff] at h
    have hflags : (fixStartFlags cmd).2 = cmd := fix_kept h.1
    dsimp only
    rw [hflags] at h ⊢
    exact fix_kept h.2
  next hext =>
    rw [if_neg hext]
    exact fix_kept h

theorem fixArgs_kept (h : (fixArgs board cmd).1 = false) : (fixArgs board cmd).2 = cmd := by
  unfold fixArgs at h ⊢
  simp only [Bool.or_eq_false_iff] at h
  obtain ⟨⟨⟨⟨hstart, hscanBegin⟩, hconvert⟩, hscanEnd⟩, hstop⟩ := h
  dsimp only
  rw [fixStop, fix_kept hstop, fixScanEnd, fix_kept hscanEnd, slowConvert, fix_kept hconvert,
    slowScanBegin, fix_kept hscanBegin, fixStart_kept hstart]

/-- A list that is no longer than the board has channels gives a least period that the pacer can
have, or none at all. -/
theorem isProduct_speed (hboard : board ∈ cbPcidasBoards) {len : U32}
    (hlen : len ≤ board.aiSeChans) :
    board.aiSpeed * len = 0 ∨ IsProduct timerBase (board.aiSpeed * len).toNat := by
  have hspeeds : ∀ b ∈ cbPcidasBoards, ∃ k < 35, 2 ≤ k ∧ b.aiSpeed.toNat = 200 * k := by decide
  have hchans : ∀ b ∈ cbPcidasBoards, b.aiSeChans = 16 := by decide
  obtain ⟨k, hk, hk2, hspeed⟩ := hspeeds board hboard
  have hle : len.toNat ≤ 16 := by
    rw [hchans board hboard] at hlen
    exact hlen
  have hbound : k * len.toNat ≤ 34 * 16 := Nat.mul_le_mul (by omega) hle
  have hmul : (board.aiSpeed * len).toNat = 200 * (k * len.toNat) := by
    rw [BitVec.toNat_mul, hspeed, Nat.mul_assoc]
    exact Nat.mod_eq_of_lt (by omega)
  by_cases hzero : len = 0
  · left
    rw [hzero]
    exact BitVec.mul_zero
  · right
    have hpos : 1 ≤ len.toNat :=
      Nat.one_le_iff_ne_zero.mpr fun h => hzero (BitVec.eq_of_toNat_eq h)
    have hlow : 2 * 1 ≤ k * len.toNat := Nat.mul_le_mul hk2 hpos
    have hbase : timerBase.toNat = 100 := rfl
    refine ⟨2, k * len.toNat, by omega, by omega, by omega, by omega, ?_, BitVec.isLt _⟩
    rw [hmul, hbase]

theorem isProduct_least (hboard : board ∈ cbPcidasBoards)
    (hlen : cmd.chanlistLen ≤ board.aiSeChans) (p : Pacer) :
    p.least board cmd = 0 ∨ IsProduct timerBase (p.least board cmd).toNat := by
  cases p with
  | scanBegin => exact isProduct_speed hboard hlen
  | convert =>
    have hone : (1 : U32) ≤ board.aiSeChans := by
      have hchans : ∀ b ∈ cbPcidasBoards, (1 : U32) ≤ b.aiSeChans := by decide
      exact hchans board hboard
    have h := isProduct_speed hboard hone
    have hmul : board.aiSpeed * 1 = board.aiSpeed := BitVec.mul_one board.aiSpeed
    rwa [hmul] at h

theorem Passing.paces_or (h : Passing cmd) :
    Pacer.scanBegin.paces cmd ∨ Pacer.convert.paces cmd ∨
      cmd.scanBeginSrc ≠ trigTimer ∧ cmd.convertSrc ≠ trigTimer := by
  have hsources := h.sources
  have hfollow : trigTimer ≠ trigFollow := by decide
  have hnow : trigNow ≠ trigTimer := by decide
  unfold badSources at hsources
  unfold Pacer.paces
  by_cases hscan : cmd.scanBeginSrc = trigTimer
  · have hne : cmd.scanBeginSrc ≠ trigFollow := hscan ▸ hfollow
    have hconvert : cmd.convertSrc = trigNow := by
      by_contra hc
      exact hsources (.inr (.inr (.inr (.inr (.inr (.inl ⟨hne, hc⟩))))))
    exact .inl ⟨hscan, hconvert ▸ hnow⟩
  · by_cases hconvert : cmd.convertSrc = trigTimer
    · exact .inr (.inl ⟨hconvert, hscan⟩)
    · exact .inr (.inr ⟨hscan, hconvert⟩)

/-- The period of a command that the pacer paces is not too short. -/
def LongEnough (board : CbPcidasBoard) (cmd : Cmd) : Prop :=
  ∀ p : Pacer, p.paces cmd → ¬ p.period cmd < p.least board cmd

theorem longEnough_righted (board : CbPcidasBoard) (cmd : Cmd) :
    LongEnough board (righted board cmd) := by
  intro p hp
  cases p with
  | scanBegin =>
    change ¬ (if _ then _ else _ : U32) < board.aiSpeed * cmd.chanlistLen
    split
    · exact Nat.lt_irrefl _
    next h => exact fun hlow => h ⟨hp.1, hlow⟩
  | convert =>
    change ¬ (if _ then _ else _ : U32) < board.aiSpeed
    split
    · exact Nat.lt_irrefl _
    next h => exact fun hlow => h ⟨hp.1, hlow⟩

theorem settles_right (hboard : board ∈ cbPcidasBoards)
    (hlen : x.cmd.chanlistLen ≤ board.aiSeChans) (h : Passing x.cmd)
    (hright : ArgsRight board x.cmd) (hlong : LongEnough board x.cmd)
    (hnull : x.cmd.chanlist = .null) :
    Settles (cbPcidasAiCmdtest board) (fun _ => True) 3 x := by
  have hpaced : ∀ p : Pacer, p.paces x.cmd →
      Settles (cbPcidasAiCmdtest board) (fun _ => True) 3 x := by
    intro p hp
    have hpaced : Paced board p (p.least board x.cmd) (x.cmd.flags &&& trigRoundMask) x
        ⟨x.divisor1, x.divisor2, p.period x.cmd⟩ := ⟨h, hright, hp, hnull, rfl, rfl, rfl⟩
    rw [hpaced.reaches_iff]
    exact tune_settles (isProduct_least hboard hlen p) (hlong p hp)
  rcases h.paces_or with hp | hp | ⟨hscan, hconvert⟩
  · exact hpaced .scanBegin hp
  · exact hpaced .convert hp
  · refine settles_now ?_ trivial 2
    have hscanBegin : slowScanBegin board x.cmd = (false, x.cmd) :=
      if_neg fun hbad => hscan hbad.1
    have hslow : slowConvert board x.cmd = (false, x.cmd) := if_neg fun hbad => hconvert hbad.1
    have hround : roundScanBegin x = (false, x) := if_neg hscan
    have hround' : roundConvert x = (false, x) := if_neg hconvert
    rw [cmdtest_of_passing h hnull, fixArgs_of_right hright, hscanBegin]
    dsimp only
    rw [hslow]
    dsimp only
    rw [Bool.or_false, if_neg Bool.false_ne_true]
    have hrounded : roundArgs x = (false, x) := by
      unfold roundArgs
      rw [hround]
      dsimp only
      rw [hround']
      rfl
    change (if (roundArgs x).1 = true then (4 : Int) else 0) = 0
    rw [hrounded]
    rfl

theorem settles_passing (hboard : board ∈ cbPcidasBoards)
    (hlen : x.cmd.chanlistLen ≤ board.aiSeChans) (h : Passing x.cmd)
    (hnull : x.cmd.chanlist = .null) :
    Settles (cbPcidasAiCmdtest board) (fun _ => True) 4 x := by
  have hrighted : ∀ y : AiTest, y.cmd = righted board x.cmd →
      Settles (cbPcidasAiCmdtest board) (fun _ => True) 3 y := by
    intro y hy
    refine settles_right hboard ?_ ?_ ?_ ?_ ?_ <;> rw [hy]
    · exact hlen
    · exact ⟨h.masked, h.sources⟩
    · exact argsRight_righted board x.cmd
    · exact longEnough_righted board x.cmd
    · exact hnull
  by_cases hfix : (fixArgs board x.cmd).1 = true
  · refine Settles.next (hrighted _ ?_)
    rw [cmdtest_of_passing h hnull, if_pos hfix]
    dsimp only
    rw [fixArgs_snd]
  · have hfalse : (fixArgs board x.cmd).1 = false := Bool.eq_false_iff.mpr hfix
    have hkept : (fixArgs board x.cmd).2 = x.cmd := fixArgs_kept hfalse
    have hthree := hrighted x (hkept.symm.trans (fixArgs_snd board x.cmd))
    exact hthree.mono (Nat.le_succ 3)

theorem maskSources_again (cmd : Cmd) :
    (maskSources (maskSources cmd).2).2 = (maskSources cmd).2 := by
  unfold maskSources RtTimer.cmdtestHelper maskSrc
  simp only [BitVec.and_assoc, BitVec.and_self]

theorem sourcesPass_masked (cmd : Cmd) : SourcesPass (maskSources cmd).2 ↔ SourcesPass cmd := by
  unfold SourcesPass
  rw [maskSources_again]
  change cmd.scanEndSrc &&& trigCount &&& trigCount ≠ 0 ∧ _ ↔ _
  rw [BitVec.and_assoc, BitVec.and_self]

theorem maskSrc_again {src allowed : U32} (h : src &&& allowed ≠ 0) :
    (maskSrc (src &&& allowed) allowed).2 = false := by
  unfold maskSrc
  rw [BitVec.and_assoc, BitVec.and_self]
  simpa using h

theorem SourcesPass.passing (h : SourcesPass cmd) : Passing (maskSources cmd).2 := by
  have hsources := h.2
  unfold badSources at hsources
  have hstart : (maskSources cmd).2.startSrc ≠ 0 := by
    intro hsrc
    rw [hsrc] at hsources
    exact hsources (.inl (by decide))
  have hscanBegin : (maskSources cmd).2.scanBeginSrc ≠ 0 := by
    intro hsrc
    rw [hsrc] at hsources
    exact hsources (.inr (.inl (by decide)))
  have hconvert : (maskSources cmd).2.convertSrc ≠ 0 := by
    intro hsrc
    rw [hsrc] at hsources
    exact hsources (.inr (.inr (.inl (by decide))))
  have hstop : (maskSources cmd).2.stopSrc ≠ 0 := by
    intro hsrc
    rw [hsrc] at hsources
    exact hsources (.inr (.inr (.inr (.inl (by decide)))))
  refine ⟨?_, h.2⟩
  change ((((maskSrc _ _).2 || (maskSrc _ _).2) || (maskSrc _ _).2) || (maskSrc _ _).2 ||
    (maskSrc _ _).2) = false
  simp only [Bool.or_eq_false_iff]
  exact ⟨⟨⟨⟨maskSrc_again hstart, maskSrc_again hscanBegin⟩, maskSrc_again hconvert⟩,
    maskSrc_again h.1⟩, maskSrc_again hstop⟩

theorem settles_of_sourcesPass (hboard : board ∈ cbPcidasBoards)
    (hlen : x.cmd.chanlistLen ≤ board.aiSeChans) (hnull : x.cmd.chanlist = .null)
    (h : SourcesPass x.cmd) : Settles (cbPcidasAiCmdtest board) (fun _ => True) 5 x := by
  by_cases hmasked : (maskSources x.cmd).1 = true
  · refine Settles.next ?_
    unfold cbPcidasAiCmdtest
    dsimp only
    rw [if_pos hmasked]
    exact settles_passing (x := { x with cmd := (maskSources x.cmd).2 }) hboard hlen h.passing hnull
  · have hkept : (maskSources x.cmd).2 = x.cmd :=
      RtTimer.cmdtestHelper_ok (Bool.eq_false_iff.mpr hmasked)
    have hpassing := h.passing
    rw [hkept] at hpassing
    exact (settles_passing hboard hlen hpassing hnull).mono (by omega)

/-- A command whose sources do not pass is refused, and its sources are only masked. -/
theorem refused_of_not_pass (h : ¬ SourcesPass x.cmd) :
    (cbPcidasAiCmdtest board x).1 ≠ 0 ∧ ¬ SourcesPass (cbPcidasAiCmdtest board x).2.cmd := by
  have hmask : ¬ SourcesPass (maskSources x.cmd).2 := fun hpass =>
    h ((sourcesPass_masked x.cmd).mp hpass)
  unfold cbPcidasAiCmdtest
  dsimp only
  split
  · exact ⟨one_ne_zero, hmask⟩
  next hmasked =>
    split
    · exact ⟨two_ne_zero, hmask⟩
    next hsources =>
      have hscanEnd : (maskSrc x.cmd.scanEndSrc trigCount).2 = false := by
        have hall := Bool.eq_false_iff.mpr hmasked
        unfold maskSources RtTimer.cmdtestHelper at hall
        simp only [Bool.or_eq_false_iff] at hall
        exact hall.1.2
      simp only [maskSrc, decide_eq_false_iff_not, not_or] at hscanEnd
      exact absurd ⟨hscanEnd.1, hsources⟩ h

theorem not_pass_again (h : ¬ SourcesPass x.cmd) (k : Nat) :
    ¬ SourcesPass (again (cbPcidasAiCmdtest board) k x).cmd := by
  induction k generalizing x with
  | zero => exact h
  | succ k ih => exact ih (refused_of_not_pass h).2

/-- Five tests are enough, unless the sources never pass. -/
theorem settles_five_iff (hboard : board ∈ cbPcidasBoards)
    (hlen : x.cmd.chanlistLen ≤ board.aiSeChans) (hnull : x.cmd.chanlist = .null) :
    Settles (cbPcidasAiCmdtest board) (fun _ => True) 5 x ↔ SourcesPass x.cmd := by
  constructor
  · rintro ⟨k, -, hret, -⟩
    by_contra hpass
    exact (refused_of_not_pass (not_pass_again hpass k)).1 hret
  · exact settles_of_sourcesPass hboard hlen hnull

end Commands

end Comedi.PcidasSettles
