import Comedi.CommandSteps
import Comedi.GuardedRuns
import Comedi.RtTimer

namespace Comedi.RtTimerRuns

open RunState Requests CommandSteps Kcomedilib Instructions RtTimer GuardedRuns

variable {b : Board} {s s' : Subdevice} {a : Async} {file : File} {req : CmdReq}

/-- `COMEDI_CMD` puts the user's command into `async->cmd`. -/
def Stores (s : Subdevice) (file : File) (cmd : Cmd) : Prop :=
  cmdRefusal s cmd file = none ∧ s.async.isSome = true

/-- `COMEDI_CMD` gets as far as `do_cmd`. -/
def Reaches (s : Subdevice) (file : File) (req : CmdReq) : Prop :=
  ∃ a f, cmdRefusal s req.cmd file = none ∧ s.async = some a ∧ req.allocOk = true ∧
    req.entries = some f ∧
    let entries := (List.range req.cmd.chanlistLen.toNat).map f
    let cmd := (loadCmd a req.cmd entries).cmd
    ¬ ChanlistCheck.checkChanlist s entries < 0 ∧ (timerCmdtest s.type cmd).1 = 0 ∧
      cmd.flags &&& trigBogus = 0 ∧ a.preallocBufsz ≠ 0

/-- The parts of a command that the tasks look at are those of the user's. -/
structure Like (cmd cmd' : Cmd) : Prop where
  stopSrc : cmd'.stopSrc = cmd.stopSrc ∨ cmd'.stopSrc = cmd.stopSrc &&& (trigCount ||| trigNone)
  stopArg : cmd'.stopArg = cmd.stopArg
  scanEndArg : cmd'.scanEndArg = cmd.scanEndArg
  chanlistLen : cmd'.chanlistLen = cmd.chanlistLen

/-- Everything that `COMEDI_CMD` can do to the subdevice of the timer; `called` tells whether it
calls `do_cmd`. -/
inductive CmdOutcome (s : Subdevice) (file : File) (req : CmdReq) : Bool → Subdevice → Prop where
  | refused (h : ¬ Stores s file req.cmd) : CmdOutcome s file req false s
  | stored (called : Bool) (a a' : Async) (r : U32) (hs : s.async = some a) (hb : s.busy = none)
      (hstores : Stores s file req.cmd) (hlike : Like req.cmd a'.cmd)
      (htrig : a'.inttrig = a.inttrig ∨ a'.inttrig = none)
      (hevents : a'.events = a.events ∨ a'.events = 0)
      (hr : r = s.runflags ∨ r &&& srfRunning = 0)
      (hcalled : called = true → Reaches s file req ∧ req.start.ret ≠ 0) :
      CmdOutcome s file req called { s with async := some a', runflags := r, busy := none }
  | started (a a' : Async) (r : U32) (hs : s.async = some a) (hb : s.busy = none)
      (hreach : Reaches s file req) (hret : req.start.ret = 0) (hr : r &&& srfRunning ≠ 0)
      (entries : List U32) (hcmd : a'.cmd = (loadCmd a req.cmd entries).cmd)
      (haccepted : (timerCmdtest s.type a'.cmd).1 = 0) (htrig : a'.inttrig = req.start.inttrig)
      (hevents : a'.events = 0) :
      CmdOutcome s file req true
        { s with async := some a', runflags := r, busy := some (.file file) }

theorem stored_of_released {called : Bool} {s₁ : Subdevice} {a a₁ : Async} {r : U32}
    {owner : Option Owner} (hs : s.async = some a) (hb : s.busy = none)
    (hstores : Stores s file req.cmd)
    (hs₁ : s₁ = { s with async := some a₁, runflags := r, busy := owner })
    (hlike : Like req.cmd a₁.cmd)
    (hcalled : called = true → Reaches s file req ∧ req.start.ret ≠ 0) :
    CmdOutcome s file req called (released s₁) := by
  rw [hs₁]
  exact .stored called a (idleAsync a₁) _ hs hb hstores
    ⟨hlike.stopSrc, hlike.stopArg, hlike.scanEndArg, hlike.chanlistLen⟩ (.inr rfl)
    (.inr rfl) (.inr (BitFlags.cleared (by decide))) hcalled

theorem Like.of_kept {cmd cmd₁ cmd' : Cmd} (h : Like cmd cmd₁) (hk : Kept cmd₁ cmd')
    (hsame : cmd₁.stopSrc = cmd.stopSrc) : Like cmd cmd' where
  stopSrc := by
    rw [← hsame]
    exact hk.stopSrc
  stopArg := hk.stopArg.trans h.stopArg
  scanEndArg := hk.scanEndArg.trans h.scanEndArg
  chanlistLen := hk.chanlistLen.trans h.chanlistLen

theorem doCmdIoctl_outcome (b : Board) (hs : s.async = some a) (htest : req.test = timerTest s.type)
    (file : File) :
    CmdOutcome s file req ((doCmdIoctl b s req file).2.2.2.any Call.isDoCmd)
      (doCmdIoctl b s req file).2.2.1 := by
  unfold doCmdIoctl
  split
  next e hr =>
    refine .refused fun h => ?_
    rw [h.1] at hr
    cases hr
  next hno =>
    rw [hs] at hno
    cases hno
  next a' hr hs' =>
  cases hs.symm.trans hs'
  have hb := (cmdRefusal_none hr).2.1
  have hstores : Stores s file req.cmd := ⟨hr, by rw [hs]; rfl⟩
  have hnever : (false = true) → Reaches s file req ∧ req.start.ret ≠ 0 := fun h => nomatch h
  split
  next halloc =>
    let a' := { a with cmd := { req.cmd with data := 0, chanlist := .null } }
    have h : CmdOutcome s file req false
        { s with async := some a', runflags := s.runflags, busy := none } :=
      .stored false a a' s.runflags hs hb hstores ⟨.inl rfl, rfl, rfl, rfl⟩ (.inl rfl) (.inl rfl)
        (.inl rfl) hnever
    rw [← hb] at h
    exact h
  next halloc =>
  split
  next he =>
    rw [cmdCleanup_released, cmdCleanup_calls]
    exact stored_of_released hs hb hstores rfl ⟨.inl rfl, rfl, rfl, rfl⟩ hnever
  next f he =>
  dsimp only
  split
  next hcheck =>
    rw [cmdCleanup_released, cmdCleanup_calls]
    exact stored_of_released hs hb hstores rfl ⟨.inl rfl, rfl, rfl, rfl⟩ hnever
  next hcheck =>
  let a₁ := loadCmd a req.cmd ((List.range req.cmd.chanlistLen.toNat).map f)
  have hload : Like req.cmd a₁.cmd := ⟨.inl rfl, rfl, rfl, rfl⟩
  have hlike : Like req.cmd (req.test.run a₁.cmd).2 := by
    rw [htest]
    exact hload.of_kept (timerCmdtest_kept s.type a₁.cmd) rfl
  unfold testCmd
  dsimp only
  split
  next htested =>
    rw [cmdCleanup_released, cmdCleanup_calls]
    exact stored_of_released hs hb hstores rfl hlike hnever
  next htested =>
  rw [not_or, not_not, not_not] at htested
  split
  next hsz =>
    rw [cmdCleanup_released, cmdCleanup_calls]
    exact stored_of_released hs hb hstores rfl hlike hnever
  next hsz =>
  have haccepted : (timerCmdtest s.type a₁.cmd).1 = 0 := by
    have h := htested.2
    rw [htest] at h
    exact h
  have hsame : req.test.run a₁.cmd = (0, a₁.cmd) := by
    rw [htest]
    exact Prod.ext haccepted (timerCmdtest_ok haccepted).1
  have hreach : Reaches s file req := by
    have hbogus : (req.test.run a₁.cmd).2.flags &&& trigBogus = 0 := htested.1
    rw [hsame] at hbogus
    exact ⟨a, f, hr, hs, not_not.mp halloc, he, hcheck, haccepted, hbogus, hsz⟩
  obtain ⟨r, hstarted, hrun, -⟩ := startedSubdevice_snd b
    { s with async := some { a₁ with cmd := (req.test.run a₁.cmd).2 } }
    { a₁ with cmd := (req.test.run a₁.cmd).2 } (.file file)
  change CmdOutcome s file req
    ((Call.doCmdtest a₁.cmd (req.test.run a₁.cmd).1 (req.test.run a₁.cmd).2 ::
      (startCmd b { s with async := some { a₁ with cmd := (req.test.run a₁.cmd).2 } }
        { a₁ with cmd := (req.test.run a₁.cmd).2 } file req.start).2.2.2).any Call.isDoCmd)
    (startCmd b { s with async := some { a₁ with cmd := (req.test.run a₁.cmd).2 } }
      { a₁ with cmd := (req.test.run a₁.cmd).2 } file req.start).2.2.1
  unfold startCmd
  dsimp only
  split
  next hret =>
    change CmdOutcome s file req true (setInttrig _ req.start.inttrig)
    rw [hstarted, hsame]
    exact .started a { AsyncBuffer.comediResetAsyncBuf a₁ with
      cbMask := wakeMask a₁.cmd, inttrig := req.start.inttrig } r hs hb hreach hret hrun _ rfl
      haccepted rfl rfl
  next hret =>
    rw [cmdCleanup_released, cmdCleanup_calls]
    change CmdOutcome s file req true (released (setInttrig _ req.start.inttrig))
    rw [released_setInttrig, hstarted]
    exact stored_of_released hs hb hstores rfl hlike fun _ => ⟨hreach, hret⟩

/-- No conversion of a scan reads beyond the channel list. -/
def InBounds (type : SubdeviceType) (cmd : Cmd) : Prop :=
  type = .dio ∨ cmd.scanEndArg.toNat ≤ cmd.chanlistLen.toNat

/-- Nor does the one that the scan task is waiting for. -/
def InHand (st : Timer) (cmd : Cmd) : Prop :=
  ∀ n i, st.scan = .converting n i → st.sub.type = .dio ∨ i < cmd.chanlistLen.toNat

/-- What `timer_cmdtest` does not look at: the channel list is as long as a scan, a scan of
conversions is not too long for 32 bits, and there is a scan at all. -/
structure Proper (type : SubdeviceType) (cmd : Cmd) : Prop where
  inBounds : InBounds type cmd
  noOverflow : cmd.convertSrc = trigTimer → cmd.convertArg.toNat * cmd.scanEndArg.toNat < 2 ^ 32
  going : going cmd 0

/-- The driver would take a command. -/
def Unused (st : Timer) : Prop :=
  st.emul.lock = none ∧ st.drv.rtTaskActive = false ∧ st.drv.scanTaskActive = false

/-- A command is proper, and what is stored while a command is served has its number of scans and
is in bounds; the tasks are started, a command is not cancelled before its trigger, and each
scan is over when the next is due. -/
def Fits (st : Timer) : TimerStep → Prop
  | .cmd file req make =>
    (Unused st → Reaches st.sub file req →
      Proper st.sub.type req.cmd ∧ (req.cmd.startSrc = trigNow → 0 ≤ make)) ∧
    (st.emul.lock.isSome = true → Stores st.sub file req.cmd →
      req.cmd.stopSrc = st.cmd.stopSrc ∧ req.cmd.stopArg = st.cmd.stopArg ∧
        InBounds st.sub.type req.cmd ∧ InHand st req.cmd)
  | .inttrig trigNum make => trigNum = 0 → (inttrigOf st.sub).isSome = true → 0 ≤ make
  | .cancel file =>
    st.sub.lockedOut file = false → st.sub.busy = some (.file file) → inttrigOf st.sub = none
  | .timerTask make =>
    (st.rt = .ready → 0 ≤ make) ∧
      ∀ n, st.rt = .waiting n → st.drv.scanTaskActive = true →
        0 ≤ make ∧ st.woken = false ∧ ∀ m i, st.scan ≠ .converting m i
  | .scanTask _ => True

/-- The command has ended or was cancelled, or there is none. -/
def Over (st : Timer) : Prop := st.sub.runflags &&& srfRunning = 0

/-- A scan is as long as its conversions. -/
def Timed (st : Timer) : Prop :=
  st.cmd.convertSrc = trigTimer →
    (st.cmd.scanEndArg.toNat : Int) * st.drv.convertPeriod ≤ st.drv.scanPeriod

/-- A task has something to do. -/
def TaskDue (st : Timer) : TimerStep → Prop
  | .timerTask _ => st.rt ≠ .suspended
  | .scanTask input =>
    st.woken = true ∨ (∃ n i, st.scan = .converting n i) ∨
      ∃ n, st.scan = .between n ∧ input.suspend < 0
  | _ => False

section Definitions

variable (nano2count : U32 → Int)

/-- The emulated subdevice is not locked, and the next command is not refused. -/
def Free (st : Timer) : Prop :=
  st.emul.lock = none ∧ ∀ cmd make, (timerCmdtest st.sub.type cmd).1 = 0 → 0 ≤ make →
    (timerCmd nano2count st.drv st.emul cmd (inttrigOf st.sub) make).ans.ret = 0

/-- After finitely many runs of the tasks, in whatever order, the device is free. -/
inductive Settles : Timer → Prop where
  | free (st : Timer) (h : Free nano2count st) : Settles st
  | later (st : Timer) (hdue : ∃ x, TaskDue st x ∧ Fits st x)
      (h : ∀ x st', TaskDue st x → Fits st x → timerStep nano2count st x = .ok st' → Settles st') :
      Settles st

end Definitions

/-- A device after `timer_attach`. -/
structure Attached (st : Timer) : Prop where
  async : ∃ a, st.sub.async = some a ∧ a.inttrig = none ∧ a.events = 0
  cancel : st.sub.cancel = true
  ended : Over st
  emulBusy : st.emul.busy = none
  unused : Unused st
  rt : st.rt = .suspended
  scan : st.scan = .suspended
  woken : st.woken = false

/-- Where the scan task is blocked before scan `m`. -/
def point (m : Nat) : ScanTask := if m = 0 then .suspended else .between m

/-- Where the timer task is once it has started scan `m`. -/
def Launched (st : Timer) (m : Nat) : Prop :=
  (st.rt = .waiting (m + 1) ∧ st.drv.rtTaskActive = true ∧ going st.cmd (m + 1)) ∨
    (st.rt = .suspended ∧ st.drv.rtTaskActive = false ∧ ¬ going st.cmd (m + 1))

/-- What holds of a command while the emulated subdevice is locked for it. -/
structure Serving (st : Timer) : Prop where
  lock : st.emul.lock = some .kernel
  inBounds : InBounds st.sub.type st.cmd
  inHand : InHand st st.cmd
  going : going st.cmd 0
  stopSrc : st.cmd.stopSrc = trigCount ∨ st.cmd.stopSrc = trigNone
  stopped : Over st → st.drv.stop = true
  timed : ¬ Over st → Timed st

/-- Where the tasks are while they serve a command. -/
inductive Phase (st : Timer) : Prop where
  | ready (hrt : st.rt = .ready) (hscan : st.scan = .suspended) (hwoken : st.woken = false)
      (hra : st.drv.rtTaskActive = false) (hsa : st.drv.scanTaskActive = false)
  | pending (m : Nat) (hrt : Launched st m) (hscan : st.scan = point m) (hwoken : st.woken = true)
      (hsa : st.drv.scanTaskActive = true)
  | converting (m i : Nat) (hrt : Launched st m) (hscan : st.scan = .converting m i)
      (hwoken : st.woken = false) (hsa : st.drv.scanTaskActive = true)
  | between (m : Nat) (hm : m ≠ 0) (hgoing : RtTimer.going st.cmd m) (hrt : st.rt = .waiting m)
      (hra : st.drv.rtTaskActive = true) (hscan : st.scan = .between m) (hwoken : st.woken = false)
      (hsa : st.drv.scanTaskActive = true)

/-- No command, a command before its trigger, a command that is served, and a command whose end
the timer task has not noticed yet. -/
inductive Mode (st : Timer) : Prop where
  | free (hunused : Unused st) (hrt : st.rt = .suspended) (hscan : st.scan = .suspended)
      (hwoken : st.woken = false) (hover : Over st) (htrig : inttrigOf st.sub = none)
  | armed (hserving : Serving st) (hra : st.drv.rtTaskActive = false)
      (hsa : st.drv.scanTaskActive = false) (hrt : st.rt = .suspended)
      (hscan : st.scan = .suspended) (hwoken : st.woken = false) (hrun : ¬ Over st)
      (htrig : inttrigOf st.sub ≠ none)
  | serving (hserving : Serving st) (hphase : Phase st) (htrig : inttrigOf st.sub = none)
  | ended (n : Nat) (hlock : st.emul.lock = none) (hra : st.drv.rtTaskActive = true)
      (hsa : st.drv.scanTaskActive = false) (hrt : st.rt = .waiting n)
      (hscan : st.scan = .suspended) (hwoken : st.woken = false) (hover : Over st)
      (htrig : inttrigOf st.sub = none)

structure Sound (st : Timer) : Prop where
  async : ∃ a, st.sub.async = some a ∧ a.events = 0
  cancel : st.sub.cancel = true
  emulBusy : st.emul.busy = none
  idleOver : st.sub.busy = none → Over st
  mode : Mode st

theorem Attached.sound {st : Timer} (h : Attached st) : Sound st := by
  obtain ⟨a, ha, htrig, hevents⟩ := h.async
  refine ⟨⟨a, ha, hevents⟩, h.cancel, h.emulBusy, fun _ => h.ended, ?_⟩
  refine .free h.unused h.rt h.scan h.woken h.ended ?_
  rw [inttrigOf, ha]
  exact htrig

variable {st st' : Timer}

/-- What the scan task leaves of the subdevice when it signals events. -/
structure Signalled (s s' : Subdevice) : Prop where
  async : ∃ a, s'.async = some a ∧ a.events = 0
  cmd : cmdOf s' = cmdOf s
  inttrig : inttrigOf s' = inttrigOf s
  type : s'.type = s.type
  cancel : s'.cancel = s.cancel
  busy : s'.busy = s.busy

/-- What `comedi_event` does to the subdevice. -/
theorem comediEvent_sub (b : Board) (hs : s.async = some a) :
    ∃ a' r, (comediEvent b s).1 = { s with async := some a', runflags := r } ∧
      a'.cmd = a.cmd ∧ a'.inttrig = a.inttrig ∧
      r &&& srfRunning = if a.events &&& endMask ≠ 0 then 0 else s.runflags &&& srfRunning := by
  by_cases hrun : s.runflags &&& srfRunning = 0
  · refine ⟨a, s.runflags, by rw [comediEvent_stopped b hrun, ← hs], rfl, rfl, ?_⟩
    rw [hrun, ite_self]
  · obtain ⟨r, hr, hr'⟩ := comediEvent_running b hs hrun
    exact ⟨_, r, hr, rfl, rfl, hr'⟩

theorem signal_eq (st : Timer) (h : ∃ a, st.sub.async = some a ∧ a.events = 0) (events : U32) :
    ∃ s', signal st events = { st with sub := s' } ∧ Signalled st.sub s' ∧
      s'.runflags &&& srfRunning =
        if events &&& endMask ≠ 0 then 0 else st.sub.runflags &&& srfRunning := by
  obtain ⟨a, ha, hevents⟩ := h
  obtain ⟨a', r, hsub, hcmd, htrig, hr⟩ := comediEvent_sub st.board
    (s := { st.sub with async := some (raiseEvents a events) }) rfl
  have hraised : (raiseEvents a events).events = events := by
    rw [raiseEvents, hevents]
    exact BitVec.zero_or
  rw [hraised] at hr
  refine ⟨{ st.sub with async := some { a' with events := 0 }, runflags := r }, ?_,
    ⟨⟨_, rfl, rfl⟩, ?_, ?_, rfl, rfl, rfl⟩, hr⟩
  · simp only [signal, ha, Option.map_some, hsub, setEvents]
  · rw [cmdOf, cmdOf, ha]
    exact hcmd
  · rw [inttrigOf, inttrigOf, ha]
    exact htrig

/-- How many more runs of the tasks it takes at most, once a command is over. -/
def due (st : Timer) : Nat :=
  match st.scan with
  | .converting _ i => 5 + (st.cmd.scanEndArg.toNat - i)
  | _ =>
    if st.woken then 3
    else match st.rt with
      | .ready => 4
      | .waiting _ => if st.drv.scanTaskActive then 4 else 1
      | .suspended => 0

/-- The scan task is at work on scan `m` of a command. -/
structure AtWork (st : Timer) (m : Nat) : Prop where
  async : ∃ a, st.sub.async = some a ∧ a.events = 0
  cancel : st.sub.cancel = true
  emulBusy : st.emul.busy = none
  idleOver : st.sub.busy = none → Over st
  lock : st.emul.lock = some .kernel
  inBounds : InBounds st.sub.type st.cmd
  going : going st.cmd 0
  stopSrc : st.cmd.stopSrc = trigCount ∨ st.cmd.stopSrc = trigNone
  stopped : Over st → st.drv.stop = true
  timed : ¬ Over st → Timed st
  inttrig : inttrigOf st.sub = none
  woken : st.woken = false
  active : st.drv.scanTaskActive = true

theorem eoa_ends (events : U32) : (events ||| comediCbEoa) &&& endMask ≠ 0 := by
  intro hz
  have hsub : comediCbEoa = endMask &&& comediCbEoa := by decide
  have heoa : (events ||| comediCbEoa) &&& comediCbEoa = comediCbEoa := BitFlags.or_self_and
  rw [hsub, ← BitVec.and_assoc, ← hsub, hz] at heoa
  exact absurd heoa (by decide)

theorem AtWork.signalled {m : Nat} (h : AtWork st m) (hs : Signalled st.sub s')
    (hrun : s'.runflags &&& srfRunning = st.sub.runflags &&& srfRunning) :
    AtWork { st with sub := s' } m where
  async := hs.async
  cancel := hs.cancel.trans h.cancel
  emulBusy := h.emulBusy
  idleOver hb := hrun.trans (h.idleOver (hs.busy.symm.trans hb))
  lock := h.lock
  inBounds := by
    rw [Timer.cmd, hs.cmd, hs.type]
    exact h.inBounds
  going := by
    rw [Timer.cmd, hs.cmd]
    exact h.going
  stopSrc := by
    rw [Timer.cmd, hs.cmd]
    exact h.stopSrc
  stopped ho := h.stopped (hrun.symm.trans ho)
  timed ho := by
    rw [Timed, Timer.cmd, hs.cmd]
    exact h.timed fun hz => ho (hrun.trans hz)
  inttrig := hs.inttrig.trans h.inttrig
  woken := h.woken
  active := h.active

theorem Launched.signalled {m : Nat} (h : Launched st m) (hs : Signalled st.sub s') :
    Launched { st with sub := s' } m := by
  rw [Launched, Timer.cmd, hs.cmd]
  exact h

theorem comediUnlock_free (h : st.emul.busy = none) (hl : st.emul.lock = some .kernel) :
    (comediUnlock st.emul).2.lock = none ∧ (comediUnlock st.emul).2.busy = none := by
  have hout : st.emul.lockedOutOfKernel = false := by
    rw [Subdevice.lockedOutOfKernel, hl]
    rfl
  simp only [comediUnlock, h, hout, Option.isSome_none, Bool.false_eq_true, if_false, and_self]

/-- At its end a command leaves the emulated subdevice unlocked, and at most the timer task has
something left to do. -/
theorem scanCleanup_sound {m : Nat} (h : AtWork st m) (events : U32)
    (hrt : (∃ n, st.rt = .waiting n ∧ st.drv.rtTaskActive = true) ∨
      (st.rt = .suspended ∧ st.drv.rtTaskActive = false)) :
    Sound (scanCleanup st events) ∧ Over (scanCleanup st events) ∧ due (scanCleanup st events) ≤ 1 := by
  obtain ⟨hlock, hbusy⟩ := comediUnlock_free h.emulBusy h.lock
  obtain ⟨s', hsignal, hs, hrun⟩ := signal_eq { st with emul := (comediUnlock st.emul).2 }
    h.async (events ||| comediCbEoa)
  have hover : s'.runflags &&& srfRunning = 0 := by
    rw [hrun]
    exact if_pos (eoa_ends events)
  unfold scanCleanup
  rw [hsignal]
  have htrig : inttrigOf s' = none := hs.inttrig.trans h.inttrig
  refine ⟨⟨hs.async, hs.cancel.trans h.cancel, hbusy, fun _ => hover, ?_⟩, hover, ?_⟩
  · obtain ⟨n, hwait, hra⟩ | ⟨hidle, hra⟩ := hrt
    · exact .ended n hlock hra rfl hwait rfl h.woken hover htrig
    · exact .free ⟨hlock, hra, rfl⟩ hidle rfl h.woken hover htrig
  · rw [due]
    dsimp only
    rw [h.woken]
    obtain ⟨n, hwait, -⟩ | ⟨hidle, -⟩ := hrt
    · rw [hwait]
      exact le_refl 1
    · rw [hidle]
      exact Nat.zero_le 1

/-- The loop over scans has come to the next scan, which is waited for, or to its end. -/
theorem nextScan_sound {m : Nat} (h : AtWork st m) (hlaunched : Launched st m) :
    Sound (nextScan st (m + 1)) ∧ (Over st → Over (nextScan st (m + 1))) ∧
      due (nextScan st (m + 1)) ≤ 4 := by
  unfold nextScan
  split
  next hgoing =>
    obtain ⟨hrt, hra, -⟩ | ⟨-, -, hno⟩ := hlaunched
    · refine ⟨⟨h.async, h.cancel, h.emulBusy, h.idleOver, ?_⟩, id, ?_⟩
      · refine .serving ⟨h.lock, h.inBounds, ?_, h.going, h.stopSrc, h.stopped, h.timed⟩ ?_ h.inttrig
        · intro n i hscan
          cases hscan
        · exact .between (m + 1) (Nat.succ_ne_zero m) hgoing hrt hra rfl h.woken h.active
      · rw [due]
        dsimp only
        rw [h.woken, hrt, h.active]
        exact le_refl 4
    · exact absurd hgoing hno
  next hgoing =>
    obtain ⟨-, -, hyes⟩ | ⟨hrt, hra, -⟩ := hlaunched
    · exact absurd hyes hgoing
    · obtain ⟨hs, hover, hdue⟩ := scanCleanup_sound h 0 (.inr ⟨hrt, hra⟩)
      exact ⟨hs, fun _ => hover, hdue.trans (by decide)⟩

theorem Launched.cleanup {m : Nat} (h : Launched st m) :
    (∃ n, st.rt = .waiting n ∧ st.drv.rtTaskActive = true) ∨
      (st.rt = .suspended ∧ st.drv.rtTaskActive = false) :=
  h.imp (fun h => ⟨m + 1, h.1, h.2.1⟩) fun h => ⟨h.1, h.2.1⟩

theorem ioFunction_ok {i : Nat} (h : st.sub.type = .dio ∨ i < st.cmd.chanlistLen.toNat) :
    ioFunction st i = .ok () := by
  unfold ioFunction
  refine if_neg fun hno => ?_
  exact h.elim hno.1 hno.2

theorem InBounds.index (h : InBounds st.sub.type st.cmd) {i : Nat}
    (hi : i < st.cmd.scanEndArg.toNat) : st.sub.type = .dio ∨ i < st.cmd.chanlistLen.toNat :=
  h.imp id fun hle => lt_of_lt_of_le hi hle

/-- The loop over conversions reads within the channel list and ends with the scan, with an
error, or where it waits for a conversion. -/
theorem conversions_sound {m : Nat} (h : AtWork st m) (hlaunched : Launched st m)
    (input : ScanInput) (left i : Nat)
    (hleft : left = st.cmd.scanEndArg.toNat - i) :
    ∃ st', conversions st input m left i = .ok st' ∧ Sound st' ∧ (Over st → Over st') ∧
      (due st' ≤ 4 ∨ ∃ j, i ≤ j ∧ j < st.cmd.scanEndArg.toNat ∧
        due st' = 5 + (st.cmd.scanEndArg.toNat - j)) := by
  induction left generalizing i with
  | zero =>
    obtain ⟨s', hsignal, hs, hrun⟩ := signal_eq st h.async comediCbBlock
    have hflag : s'.runflags &&& srfRunning = st.sub.runflags &&& srfRunning := hrun
    obtain ⟨hsound, hover, hdue⟩ :=
      nextScan_sound (h.signalled hs hflag) (hlaunched.signalled hs)
    refine ⟨_, rfl, ?_⟩
    rw [hsignal]
    exact ⟨hsound, fun ho => hover (hflag.trans ho), .inl hdue⟩
  | succ left ih =>
    have hi : i < st.cmd.scanEndArg.toNat := by omega
    unfold conversions
    split
    next hwait =>
      refine ⟨_, rfl, ⟨h.async, h.cancel, h.emulBusy, h.idleOver, ?_⟩, id, .inr ⟨i, le_refl i, hi, rfl⟩⟩
      refine .serving ⟨h.lock, h.inBounds, ?_, h.going, h.stopSrc, h.stopped, h.timed⟩ ?_ h.inttrig
      · intro n j hscan
        cases hscan
        exact h.inBounds.index hi
      · exact .converting m i hlaunched rfl h.woken h.active
    next =>
    rw [ioFunction_ok (h.inBounds.index hi)]
    change ∃ st', (if input.io i < 0 then .ok (scanCleanup st comediCbError)
      else conversions st input m left (i + 1)) = .ok st' ∧ _
    by_cases hio : input.io i < 0
    · refine ⟨scanCleanup st comediCbError, if_pos hio, ?_⟩
      obtain ⟨hs, hover, hdue⟩ := scanCleanup_sound h comediCbError hlaunched.cleanup
      exact ⟨hs, fun _ => hover, .inl (hdue.trans (by decide))⟩
    · obtain ⟨st', hst, hs, hover, hdue⟩ := ih (i + 1) (by omega)
      refine ⟨st', (if_neg hio).trans hst, hs, hover, hdue.imp id ?_⟩
      rintro ⟨j, hj, hlt, heq⟩
      exact ⟨j, by omega, hlt, heq⟩

/-- A scan from its start, with or without an end before the first conversion. -/
theorem startScan_sound {m : Nat} (h : AtWork st m) (hlaunched : Launched st m)
    (input : ScanInput) :
    ∃ st', startScan st input m = .ok st' ∧ Sound st' ∧ (Over st → Over st' ∧ due st' ≤ 1) := by
  unfold startScan
  split
  next hstop =>
    obtain ⟨hs, hover, hdue⟩ := scanCleanup_sound h 0 hlaunched.cleanup
    exact ⟨_, rfl, hs, fun _ => ⟨hover, hdue⟩⟩
  next hstop =>
  have hrun : ¬ Over st := fun ho => hstop (h.stopped ho)
  split
  · obtain ⟨hs, hover, hdue⟩ := scanCleanup_sound h comediCbError hlaunched.cleanup
    exact ⟨_, rfl, hs, fun _ => ⟨hover, hdue⟩⟩
  · obtain ⟨st', hst, hs, -, -⟩ := conversions_sound h hlaunched input
      st.cmd.scanEndArg.toNat 0 rfl
    exact ⟨st', hst, hs, fun ho => absurd ho hrun⟩

/-- What is left of a scan when the conversion it waits for is due. -/
theorem resumeScan_sound {m i : Nat} (h : AtWork st m) (hlaunched : Launched st m)
    (input : ScanInput) (hi : st.sub.type = .dio ∨ i < st.cmd.chanlistLen.toNat) :
    ∃ st', resumeScan st input m i = .ok st' ∧ Sound st' ∧ (Over st → Over st') ∧
      due st' < 5 + (st.cmd.scanEndArg.toNat - i) := by
  have hend : Sound (scanCleanup st comediCbError) ∧
      (Over st → Over (scanCleanup st comediCbError)) ∧
      due (scanCleanup st comediCbError) < 5 + (st.cmd.scanEndArg.toNat - i) := by
    obtain ⟨hs, hover, hdue⟩ := scanCleanup_sound h comediCbError hlaunched.cleanup
    exact ⟨hs, fun _ => hover, by omega⟩
  unfold resumeScan
  split
  · exact ⟨_, rfl, hend⟩
  rw [ioFunction_ok hi]
  change ∃ st', (if input.io i < 0 then .ok (scanCleanup st comediCbError)
    else conversions st input m (st.cmd.scanEndArg.toNat - (i + 1)) (i + 1)) = .ok st' ∧ _
  by_cases hio : input.io i < 0
  · exact ⟨_, if_pos hio, hend⟩
  · obtain ⟨st', hst, hs, hover, hdue⟩ := conversions_sound h hlaunched input
      (st.cmd.scanEndArg.toNat - (i + 1)) (i + 1) rfl
    refine ⟨st', (if_neg hio).trans hst, hs, hover, ?_⟩
    obtain hle | ⟨j, hj, hlt, heq⟩ := hdue <;> omega

theorem Serving.atWork {m : Nat} {st₁ : Timer} (h : Serving st) (hsound : Sound st)
    (htrig : inttrigOf st.sub = none)
    (heq : st₁ = { st with woken := false, drv := { st.drv with scanTaskActive := true } }) :
    AtWork st₁ m := by
  subst heq
  exact ⟨hsound.async, hsound.cancel, hsound.emulBusy, hsound.idleOver, h.lock, h.inBounds, h.going,
    h.stopSrc, h.stopped, h.timed, htrig, rfl, rfl⟩

/-- The scan task once it is resumed. -/
def resumed (st : Timer) : Timer :=
  { st with woken := false, drv := { st.drv with scanTaskActive := true } }

theorem scanTaskFunc_first (hscan : st.scan = .suspended) (hwoken : st.woken = true)
    (hgoing : going st.cmd 0) (input : ScanInput) :
    scanTaskFunc st input = startScan (resumed st) input 0 := by
  unfold scanTaskFunc
  split
  next hs =>
    rw [hscan] at hs
    cases hs
  next => exact (if_pos hwoken).trans (if_pos hgoing)
  next hs =>
    rw [hscan] at hs
    cases hs

theorem scanTaskFunc_between {n : Nat} (hscan : st.scan = .between n) (input : ScanInput) :
    scanTaskFunc st input =
      if input.suspend < 0 then .ok (scanCleanup { st with woken := false } comediCbError)
      else if st.woken = true then startScan { st with woken := false } input n else .ok st := by
  unfold scanTaskFunc
  split
  next hs =>
    rw [hscan] at hs
    cases hs
  next hs =>
    rw [hscan] at hs
    cases hs
  next hs =>
    rw [hscan] at hs
    cases hs
    rfl

theorem due_woken (hscan : ∀ n i, st.scan ≠ .converting n i) (hwoken : st.woken = true) :
    due st = 3 := by
  unfold due
  split
  next n i hs => exact absurd hs (hscan n i)
  next => rw [if_pos hwoken]

theorem point_ne (m n i : Nat) : point m ≠ .converting n i := by
  unfold point
  split <;> exact fun h => nomatch h

/-- What one run of the scan task keeps, and that it brings the end of a command closer. -/
theorem scanTask_sound (h : Sound st) (input : ScanInput) :
    ∃ st', scanTaskFunc st input = .ok st' ∧ Sound st' ∧
      (Over st → Over st' ∧ (TaskDue st (.scanTask input) → due st' < due st)) := by
  have hidle : st.scan = .suspended → st.woken = false →
      ∃ st', scanTaskFunc st input = .ok st' ∧ Sound st' ∧
        (Over st → Over st' ∧ (TaskDue st (.scanTask input) → due st' < due st)) := by
    intro hscan hwoken
    refine ⟨st, by rw [scanTaskFunc, hscan, hwoken]; rfl, h, fun ho => ⟨ho, fun hd => ?_⟩⟩
    obtain hd | ⟨n, i, hd⟩ | ⟨n, hd, -⟩ := hd
    · rw [hwoken] at hd
      cases hd
    · rw [hscan] at hd
      cases hd
    · rw [hscan] at hd
      cases hd
  cases h.mode with
  | free _ _ hscan hwoken => exact hidle hscan hwoken
  | armed _ _ _ _ hscan hwoken => exact hidle hscan hwoken
  | ended _ _ _ _ _ hscan hwoken => exact hidle hscan hwoken
  | serving hserving hphase htrig =>
    cases hphase with
    | ready _ hscan hwoken => exact hidle hscan hwoken
    | pending m hrt hscan hwoken hsa =>
      have hwork : AtWork (resumed st) m := hserving.atWork h htrig rfl
      have hdue : due st = 3 := due_woken (fun n i => by rw [hscan]; exact point_ne m n i) hwoken
      obtain ⟨st', hst, hs, hover⟩ := startScan_sound hwork hrt input
      have hresult : Over st → Over st' ∧ (TaskDue st (.scanTask input) → due st' < due st) := by
        intro ho
        obtain ⟨ho', hle⟩ := hover ho
        exact ⟨ho', fun _ => by omega⟩
      by_cases hm : m = 0
      · subst m
        refine ⟨st', ?_, hs, hresult⟩
        rw [scanTaskFunc_first hscan hwoken hserving.going, hst]
      · rw [point, if_neg hm] at hscan
        have hsame : resumed st = { st with woken := false } := by rw [resumed, ← hsa]
        rw [hsame] at hst hwork
        rw [scanTaskFunc_between hscan]
        by_cases hsuspend : input.suspend < 0
        · obtain ⟨hs', hover', hdue'⟩ := scanCleanup_sound hwork comediCbError hrt.cleanup
          exact ⟨_, if_pos hsuspend, hs', fun _ => ⟨hover', fun _ => by omega⟩⟩
        · exact ⟨st', by rw [if_neg hsuspend, if_pos hwoken, hst], hs, hresult⟩
    | converting m i hrt hscan hwoken hsa =>
      have hwork : AtWork st m := hserving.atWork h htrig (by rw [← hwoken, ← hsa])
      obtain ⟨st', hst, hs, hover, hdue⟩ := resumeScan_sound hwork hrt input
        (hserving.inHand m i hscan)
      refine ⟨st', by rw [scanTaskFunc, hscan]; exact hst, hs, fun ho => ⟨hover ho, fun _ => ?_⟩⟩
      rw [due.eq_def st, hscan]
      exact hdue
    | between m hm hgoing hrt hra hscan hwoken hsa =>
      have hwork : AtWork st m := hserving.atWork h htrig (by rw [← hwoken, ← hsa])
      have hdue : due st = 4 := by
        rw [due.eq_def, hscan, hwoken, hrt, hsa]
        rfl
      have hsame : { st with woken := false } = st := by rw [← hwoken]
      have hno : ¬ st.woken = true := by
        rw [hwoken]
        exact Bool.false_ne_true
      rw [scanTaskFunc_between hscan, if_neg hno, hsame]
      by_cases hsuspend : input.suspend < 0
      · obtain ⟨hs', hover', hdue'⟩ := scanCleanup_sound hwork comediCbError (.inl ⟨m, hrt, hra⟩)
        exact ⟨_, if_pos hsuspend, hs', fun _ => ⟨hover', fun _ => by omega⟩⟩
      · refine ⟨st, if_neg hsuspend, h, fun ho => ⟨ho, fun hd => ?_⟩⟩
        obtain hd | ⟨n, i, hd⟩ | ⟨n, -, hd⟩ := hd
        · rw [hwoken] at hd
          cases hd
        · rw [hscan] at hd
          cases hd
        · exact absurd hd hsuspend

theorem wakeScanTask_wakes {make : Int} (hscan : ∀ n i, st.scan ≠ .converting n i) (hmake : 0 ≤ make) :
    wakeScanTask st make = { st with woken := true } := by
  unfold wakeScanTask
  split
  next n i hs => exact absurd hs (hscan n i)
  next => exact if_neg (not_lt.mpr hmake)

/-- A scan is started while the scan task rests before it. -/
theorem launchScan_sound {m : Nat} {make : Int} (h : AtWork st m) (hscan : st.scan = point m)
    (hra : st.drv.rtTaskActive = true) (hmake : 0 ≤ make) :
    Sound (launchScan st make m) ∧ (Over st → Over (launchScan st make m)) ∧
      due (launchScan st make m) = 3 := by
  have hne : ∀ n i, st.scan ≠ .converting n i := fun n i => by rw [hscan]; exact point_ne m n i
  have hinHand : ∀ st₁ : Timer, st₁.scan = st.scan → InHand st₁ st₁.cmd :=
    fun st₁ heq n i hs => absurd (heq.symm.trans hs) (hne n i)
  unfold launchScan
  rw [wakeScanTask_wakes hne hmake]
  dsimp only
  split
  next hgoing =>
    refine ⟨⟨h.async, h.cancel, h.emulBusy, h.idleOver, ?_⟩, id, due_woken hne rfl⟩
    refine .serving ⟨h.lock, h.inBounds, hinHand _ rfl, h.going, h.stopSrc, h.stopped, h.timed⟩ ?_
      h.inttrig
    exact .pending m (.inl ⟨rfl, hra, hgoing⟩) hscan rfl h.active
  next hgoing =>
    refine ⟨⟨h.async, h.cancel, h.emulBusy, h.idleOver, ?_⟩, id, due_woken hne rfl⟩
    refine .serving ⟨h.lock, h.inBounds, hinHand _ rfl, h.going, h.stopSrc, h.stopped, h.timed⟩ ?_
      h.inttrig
    exact .pending m (.inr ⟨rfl, rfl, hgoing⟩) hscan rfl h.active

/-- The timer task once it has started. -/
def begun (st : Timer) : Timer :=
  { st with drv := { st.drv with rtTaskActive := true, scanTaskActive := true } }

theorem timerTaskFunc_ready (hrt : st.rt = .ready) (hgoing : going st.cmd 0) (make : Int) :
    timerTaskFunc st make = launchScan (begun st) make 0 := by
  unfold timerTaskFunc
  split
  next hs =>
    rw [hrt] at hs
    cases hs
  next => exact if_pos hgoing
  next hs =>
    rw [hrt] at hs
    cases hs

/-- What one run of the timer task keeps, and that it brings the end of a command closer. -/
theorem timerTask_sound {make : Int} (h : Sound st) (hfit : Fits st (.timerTask make)) :
    Sound (timerTaskFunc st make) ∧
      (Over st → Over (timerTaskFunc st make) ∧
        (st.rt ≠ .suspended → due (timerTaskFunc st make) < due st)) := by
  obtain ⟨hstart, hnext⟩ := hfit
  have hidle : st.rt = .suspended → Sound (timerTaskFunc st make) ∧
      (Over st → Over (timerTaskFunc st make) ∧
        (st.rt ≠ .suspended → due (timerTaskFunc st make) < due st)) := by
    intro hrt
    rw [timerTaskFunc, hrt]
    exact ⟨h, fun ho => ⟨ho, fun hne => absurd rfl hne⟩⟩
  cases h.mode with
  | free _ hrt => exact hidle hrt
  | armed _ _ _ hrt => exact hidle hrt
  | ended n hlock hra hsa hrt hscan hwoken hover htrig =>
    have hstep : timerTaskFunc st make = rtCleanup st := by
      rw [timerTaskFunc, hrt]
      exact if_pos hsa
    have hdue : due st = 1 := by
      rw [due.eq_def, hscan, hwoken, hrt, hsa]
      rfl
    have hdue' : due (rtCleanup st) = 0 := by
      rw [due.eq_def, rtCleanup, hscan, hwoken]
      rfl
    rw [hstep]
    refine ⟨⟨h.async, h.cancel, h.emulBusy, h.idleOver, ?_⟩, fun ho => ⟨ho, fun _ => by omega⟩⟩
    exact .free ⟨hlock, rfl, hsa⟩ rfl hscan hwoken hover htrig
  | serving hserving hphase htrig =>
    cases hphase with
    | ready hrt hscan hwoken hra hsa =>
      have hwork : AtWork (begun st) 0 :=
        ⟨h.async, h.cancel, h.emulBusy, h.idleOver, hserving.lock, hserving.inBounds,
          hserving.going, hserving.stopSrc, hserving.stopped, hserving.timed, htrig, hwoken, rfl⟩
      have hdue : due st = 4 := by
        rw [due.eq_def, hscan, hwoken, hrt]
        rfl
      obtain ⟨hs, hover, hdue'⟩ := launchScan_sound hwork hscan rfl (hstart hrt)
      rw [timerTaskFunc_ready hrt hserving.going]
      exact ⟨hs, fun ho => ⟨hover ho, fun _ => by omega⟩⟩
    | pending m hrt hscan hwoken hsa =>
      obtain ⟨hrt, -, -⟩ | ⟨hrt, -, -⟩ := hrt
      · have hno := (hnext (m + 1) hrt hsa).2.1
        rw [hwoken] at hno
        cases hno
      · exact hidle hrt
    | converting m i hrt hscan hwoken hsa =>
      obtain ⟨hrt, -, -⟩ | ⟨hrt, -, -⟩ := hrt
      · exact absurd hscan ((hnext (m + 1) hrt hsa).2.2 m i)
      · exact hidle hrt
    | between m hm hgoing hrt hra hscan hwoken hsa =>
      have hstep : timerTaskFunc st make = launchScan st make m := by
        rw [timerTaskFunc, hrt]
        exact if_neg (by rw [hsa]; exact Bool.noConfusion)
      have hwork : AtWork st m := hserving.atWork h htrig (by rw [← hwoken, ← hsa])
      have hdue : due st = 4 := by
        rw [due.eq_def, hscan, hwoken, hrt, hsa]
        rfl
      obtain ⟨hs, hover, hdue'⟩ := launchScan_sound hwork (by rw [hscan, point, if_neg hm]) hra
        (hnext m hrt hsa).1
      rw [hstep]
      exact ⟨hs, fun ho => ⟨hover ho, fun _ => by omega⟩⟩

theorem doCancel_calls (b : Board) (s : Subdevice) (ans : Answer)
    (h : s.runflags &&& srfRunning ≠ 0 ∧ s.cancel = true) :
    (doCancel b s ans).2.2.2.any isCancel = true := by
  unfold doCancel
  rw [if_pos h]
  rfl

/-- `COMEDI_CANCEL` does nothing, or it releases the subdevice and stops what is running. -/
theorem doCancelIoctl_outcome (b : Board) (s : Subdevice) (ans : Answer) (file : File) :
    (doCancelIoctl b s ans file).2.2.1 = s ∧
        (doCancelIoctl b s ans file).2.2.2.any isCancel = false ∨
      s.busy = some (.file file) ∧ s.lockedOut file = false ∧
        (doCancelIoctl b s ans file).2.2.1 = released s ∧
        (s.runflags &&& srfRunning ≠ 0 ∧ s.cancel = true →
          (doCancelIoctl b s ans file).2.2.2.any isCancel = true) := by
  unfold doCancelIoctl
  split
  · exact .inl ⟨rfl, rfl⟩
  split
  · exact .inl ⟨rfl, rfl⟩
  next hl =>
  split
  · exact .inl ⟨rfl, rfl⟩
  next o hb =>
  split
  · exact .inl ⟨rfl, rfl⟩
  next ho =>
  rw [not_not] at ho
  refine .inr ⟨by rw [hb, ho], by simpa using hl, doCancel_released b s ans, fun h => ?_⟩
  change ((doCancel b s ans).2.2.2 ++ _).any isCancel = true
  rw [List.any_append, doCancel_calls b s ans h, Bool.true_or]

theorem cmdOf_released (h : s.async = some a) :
    cmdOf (released s) = { a.cmd with chanlist := .null } := by
  rw [cmdOf, released, h]
  rfl

theorem inttrigOf_released (h : s.async = some a) : inttrigOf (released s) = none := by
  rw [inttrigOf, released, h]
  rfl

theorem cmdOf_eq (h : s.async = some a) : cmdOf s = a.cmd := by rw [cmdOf, h]

/-- A request leaves the tasks and the lock where they are. -/
structure Retains (st st' : Timer) : Prop where
  emul : st'.emul = st.emul
  rt : st'.rt = st.rt
  scan : st'.scan = st.scan
  woken : st'.woken = st.woken
  rtActive : st'.drv.rtTaskActive = st.drv.rtTaskActive
  scanActive : st'.drv.scanTaskActive = st.drv.scanTaskActive

theorem Launched.retained {m : Nat} (h : Launched st m) (hr : Retains st st')
    (hgoing : ∀ n, going st'.cmd n ↔ going st.cmd n) : Launched st' m := by
  rw [Launched, hr.rt, hr.rtActive, hgoing]
  exact h

theorem Phase.retained (h : Phase st) (hr : Retains st st')
    (hgoing : ∀ n, going st'.cmd n ↔ going st.cmd n) : Phase st' := by
  cases h with
  | ready hrt hscan hwoken hra hsa =>
    exact .ready (hr.rt.trans hrt) (hr.scan.trans hscan) (hr.woken.trans hwoken)
      (hr.rtActive.trans hra) (hr.scanActive.trans hsa)
  | pending m hrt hscan hwoken hsa =>
    exact .pending m (hrt.retained hr hgoing) (hr.scan.trans hscan) (hr.woken.trans hwoken)
      (hr.scanActive.trans hsa)
  | converting m i hrt hscan hwoken hsa =>
    exact .converting m i (hrt.retained hr hgoing) (hr.scan.trans hscan) (hr.woken.trans hwoken)
      (hr.scanActive.trans hsa)
  | between m hm hg hrt hra hscan hwoken hsa =>
    exact .between m hm ((hgoing m).mpr hg) (hr.rt.trans hrt) (hr.rtActive.trans hra)
      (hr.scan.trans hscan) (hr.woken.trans hwoken) (hr.scanActive.trans hsa)

/-- Where no command is served, all that a request may do is to keep it so. -/
theorem Mode.retained_unlocked (h : Mode st) (hlock : st.emul.lock = none) (hr : Retains st st')
    (hover : Over st') (htrig : inttrigOf st'.sub = none) : Mode st' := by
  cases h with
  | free hunused hrt hscan hwoken =>
    refine .free ⟨by rw [hr.emul]; exact hlock, hr.rtActive.trans hunused.2.1,
      hr.scanActive.trans hunused.2.2⟩ (hr.rt.trans hrt) (hr.scan.trans hscan)
      (hr.woken.trans hwoken) hover htrig
  | armed hserving =>
    rw [hserving.lock] at hlock
    cases hlock
  | serving hserving =>
    rw [hserving.lock] at hlock
    cases hlock
  | ended n _ hra hsa hrt hscan hwoken =>
    exact .ended n (by rw [hr.emul]; exact hlock) (hr.rtActive.trans hra)
      (hr.scanActive.trans hsa) (hr.rt.trans hrt) (hr.scan.trans hscan) (hr.woken.trans hwoken)
      hover htrig

theorem Mode.unlocked_cases (h : Mode st) :
    (st.emul.lock = none ∧ Over st ∧ inttrigOf st.sub = none) ∨
      (Serving st ∧ Phase st ∧ inttrigOf st.sub = none) ∨
      (Serving st ∧ ¬ Over st ∧ inttrigOf st.sub ≠ none) := by
  cases h with
  | free hunused _ _ _ hover htrig => exact .inl ⟨hunused.1, hover, htrig⟩
  | armed hserving _ _ _ _ _ hrun htrig => exact .inr (.inr ⟨hserving, hrun, htrig⟩)
  | serving hserving hphase htrig => exact .inr (.inl ⟨hserving, hphase, htrig⟩)
  | ended _ hlock _ _ _ _ _ hover htrig => exact .inl ⟨hlock, hover, htrig⟩

/-- Nothing depends on what the subdevices of the device share. -/
theorem Sound.board (h : Sound st) (b : Board) : Sound { st with board := b } := by
  refine ⟨h.async, h.cancel, h.emulBusy, h.idleOver, ?_⟩
  have hr : Retains st { st with board := b } := ⟨rfl, rfl, rfl, rfl, rfl, rfl⟩
  have hserved : Serving st → Serving { st with board := b } := fun hs =>
    ⟨hs.lock, hs.inBounds, hs.inHand, hs.going, hs.stopSrc, hs.stopped, hs.timed⟩
  cases h.mode with
  | free hunused hrt hscan hwoken hover htrig => exact .free hunused hrt hscan hwoken hover htrig
  | armed hserving hra hsa hrt hscan hwoken hrun htrig =>
    exact .armed (hserved hserving) hra hsa hrt hscan hwoken hrun htrig
  | serving hserving hphase htrig =>
    exact .serving (hserved hserving) (hphase.retained hr fun _ => Iff.rfl) htrig
  | ended n hlock hra hsa hrt hscan hwoken hover htrig =>
    exact .ended n hlock hra hsa hrt hscan hwoken hover htrig

/-- A command that is cancelled while it is served is served no differently, but the stop flag
is set. -/
theorem cancelRequest_sound (h : Sound st) (hfit : Fits st (.cancel file)) :
    Sound (cancelRequest st file) := by
  obtain ⟨a, ha, hevents⟩ := h.async
  unfold cancelRequest
  have houtcome := doCancelIoctl_outcome st.board st.sub { inttrig := inttrigOf st.sub } file
  generalize doCancelIoctl st.board st.sub { inttrig := inttrigOf st.sub } file = r at houtcome ⊢
  obtain ⟨ret, b, s₁, calls⟩ := r
  dsimp only at houtcome ⊢
  obtain ⟨rfl, hcalls⟩ | ⟨hb, hl, rfl, hcalls⟩ := houtcome
  · rw [hcalls, Bool.or_false]
    exact h.board b
  have htrig : inttrigOf st.sub = none := hfit hl hb
  have hover : (released st.sub).runflags &&& srfRunning = 0 := released_running st.sub
  have htrig' := inttrigOf_released ha
  have hcmd := cmdOf_released ha
  have hcmd' : st.cmd = a.cmd := cmdOf_eq ha
  refine ⟨⟨idleAsync a, by rw [released, ha]; rfl, rfl⟩, h.cancel, h.emulBusy, fun _ => hover, ?_⟩
  obtain ⟨hlock, -, -⟩ | ⟨hserving, hphase, -⟩ | ⟨-, -, harmed⟩ := h.mode.unlocked_cases
  · exact h.mode.retained_unlocked hlock ⟨rfl, rfl, rfl, rfl, rfl, rfl⟩ hover htrig'
  · have hgoing : ∀ n, going (cmdOf (released st.sub)) n ↔ going st.cmd n := by
      intro n
      rw [hcmd, hcmd']
      exact Iff.rfl
    refine .serving ⟨hserving.lock, ?_, ?_, (hgoing 0).mpr hserving.going, ?_, ?_,
      fun ho => absurd hover ho⟩ (hphase.retained ⟨rfl, rfl, rfl, rfl, rfl, rfl⟩ hgoing) htrig'
    · rw [Timer.cmd, hcmd]
      have hbounds := hserving.inBounds
      rw [hcmd'] at hbounds
      exact hbounds
    · intro n i hscan
      have hhand := hserving.inHand n i hscan
      rw [hcmd'] at hhand
      rw [Timer.cmd, hcmd]
      exact hhand
    · rw [Timer.cmd, hcmd]
      have hsrc := hserving.stopSrc
      rw [hcmd'] at hsrc
      exact hsrc
    · intro _
      by_cases ho : Over st
      · change (st.drv.stop || _) = true
        rw [hserving.stopped ho, Bool.true_or]
      · change (_ || calls.any isCancel) = true
        rw [hcalls ⟨ho, h.cancel⟩, Bool.or_true]
  · exact absurd htrig harmed

theorem inttrigRequest_none (h : inttrigOf st.sub = none) (trigNum : U32) (make : Int) :
    inttrigRequest st trigNum make = st := by
  have hinsn : ∀ ans, inttrigInsn st.sub trigNum ans =
      ((inttrigInsn st.sub trigNum ans).1, st.sub, []) := by
    intro ans
    unfold inttrigInsn
    cases hs : st.sub.async with
    | none => rfl
    | some a =>
      rw [inttrigOf, hs] at h
      have htrig : a.inttrig = none := h
      dsimp only
      rw [htrig]
  unfold inttrigRequest
  dsimp only
  rw [hinsn]
  rfl

theorem setInttrig_self (s : Subdevice) : setInttrig s (inttrigOf s) = s := by
  cases hs : s.async with
  | none => rw [setInttrig, hs, Option.map_none, ← hs]
  | some a =>
    have htrig : inttrigOf s = a.inttrig := by rw [inttrigOf, hs]; rfl
    rw [setInttrig, htrig, hs, Option.map_some, ← hs]

/-- The internal trigger starts the tasks for the command that waits for it. -/
theorem inttrigRequest_sound {trigNum : U32} {make : Int} (h : Sound st)
    (hfit : Fits st (.inttrig trigNum make)) : Sound (inttrigRequest st trigNum make) := by
  cases htrig : inttrigOf st.sub with
  | none =>
    rw [inttrigRequest_none htrig]
    exact h
  | some fn =>
    have hsome : inttrigOf st.sub ≠ none := by
      rw [htrig]
      exact Option.some_ne_none fn
    obtain ⟨a, ha, hevents⟩ := h.async
    have hfn : a.inttrig = some fn := by
      rw [inttrigOf, ha] at htrig
      exact htrig
    have hinsn : ∀ ans, inttrigInsn st.sub trigNum ans = (if 0 ≤ ans.ret then 1 else ans.ret,
        setInttrig st.sub ans.inttrig, [.inttrig fn trigNum]) := by
      intro ans
      unfold inttrigInsn
      rw [ha]
      dsimp only
      rw [hfn]
    cases h.mode with
    | free _ _ _ _ _ hno => exact absurd hno hsome
    | ended _ _ _ _ _ _ _ _ hno => exact absurd hno hsome
    | serving _ _ hno => exact absurd hno hsome
    | armed hserving hra hsa hrt hscan hwoken hrun _ =>
      by_cases hzero : trigNum = 0
      · have hmake : 0 ≤ make := hfit hzero (by rw [htrig]; rfl)
        have hresult : inttrigRequest st trigNum make =
            { st with
              sub := setEvents (setInttrig st.sub none) 0
              drv := { st.drv with stop := false }
              rt := .ready } := by
          unfold inttrigRequest
          have hr : timerInttrig st.drv st.emul (inttrigOf st.sub) trigNum make =
              ⟨⟨0, none⟩, { st.drv with stop := false }, st.emul, true⟩ := by
            rw [timerInttrig, if_neg (not_not.mpr hzero), timerStartCmd, if_neg (not_lt.mpr hmake),
              decide_eq_true hmake]
          dsimp only
          rw [hr, hinsn]
          simp only [List.any_cons, isInttrig, Bool.true_or, hzero, and_self, if_true, Timer.after]
        have hsub : setEvents (setInttrig st.sub none) 0 =
            { st.sub with async := some { a with inttrig := none, events := 0 } } := by
          simp only [setEvents, setInttrig, ha, Option.map_some]
        have hcmd : cmdOf (setEvents (setInttrig st.sub none) 0) = st.cmd := by
          rw [hsub, Timer.cmd, cmdOf_eq ha]
          rfl
        rw [hresult]
        have hserved : Serving { st with
            sub := setEvents (setInttrig st.sub none) 0
            drv := { st.drv with stop := false }
            rt := .ready } := by
          refine ⟨hserving.lock, ?_, ?_, ?_, ?_, fun ho => absurd ho hrun, fun _ => ?_⟩
          · rw [Timer.cmd, hcmd]
            exact hserving.inBounds
          · intro n i hconverting
            rw [hscan] at hconverting
            cases hconverting
          · rw [Timer.cmd, hcmd]
            exact hserving.going
          · rw [Timer.cmd, hcmd]
            exact hserving.stopSrc
          · rw [Timed, Timer.cmd, hcmd]
            exact hserving.timed hrun
        refine ⟨⟨_, by rw [hsub], rfl⟩, h.cancel, h.emulBusy, h.idleOver, ?_⟩
        exact .serving hserved (.ready rfl hscan hwoken hra hsa) (by rw [hsub]; rfl)
      · have hresult : inttrigRequest st trigNum make = st := by
          unfold inttrigRequest
          have hr : timerInttrig st.drv st.emul (inttrigOf st.sub) trigNum make =
              ⟨⟨-einval, inttrigOf st.sub⟩, st.drv, st.emul, false⟩ := by
            rw [timerInttrig, if_pos hzero]
          dsimp only
          rw [hr, hinsn]
          simp only [List.any_cons, isInttrig, Bool.true_or, hzero, and_false, if_false, if_true,
            Timer.after, Bool.false_eq_true, setInttrig_self]
        rw [hresult]
        exact h

section Commands

variable (nano2count : U32 → Int)

theorem comediLock_free {e : Subdevice} (hb : e.busy = none) (hl : e.lock = none) :
    comediLock e = (0, { e with lock := some .kernel }) := by
  simp [comediLock, hb, hl]

/-- A driver that is in use refuses every command and is left as it is. -/
theorem timerCmd_busy (h : ¬ Unused st) (cmd : Cmd) (inttrig : Option Nat) (make : Int) :
    timerCmd nano2count st.drv st.emul cmd inttrig make =
      ⟨⟨-ebusy, inttrig⟩, st.drv, st.emul, false⟩ := by
  unfold timerCmd
  split
  · rfl
  next hactive =>
  rw [not_or, Bool.not_eq_true, Bool.not_eq_true] at hactive
  have hlock : st.emul.lock.isSome = true := by
    rw [Option.isSome_iff_ne_none]
    exact fun hl => h ⟨hl, hactive⟩
  have hrefused : comediLock st.emul = (-ebusy, st.emul) := by
    rw [comediLock, if_pos (.inr hlock)]
  rw [hrefused]
  rfl

/-- The periods that the driver computes for a command. -/
structure Periods (cmd : Cmd) (scan convert : Int) : Prop where
  scan_eq : scanPeriod nano2count cmd = some scan
  convert_eq : convertPeriod nano2count cmd = some convert

theorem periods_exist {cmd : Cmd} (h : ¬ badSources cmd) :
    ∃ scan convert, Periods nano2count cmd scan convert := by
  have hscan : ∃ scan, scanPeriod nano2count cmd = some scan := by
    unfold scanPeriod
    split
    · exact ⟨_, rfl⟩
    split
    · exact ⟨_, rfl⟩
    next h₁ h₂ => exact absurd (.inr (.inl ⟨h₁, h₂⟩)) h
  have hconvert : ∃ convert, convertPeriod nano2count cmd = some convert := by
    unfold convertPeriod
    split
    · exact ⟨_, rfl⟩
    split
    · exact ⟨_, rfl⟩
    next h₁ h₂ => exact absurd (.inr (.inr (.inl ⟨h₁, h₂⟩))) h
  obtain ⟨scan, hscan⟩ := hscan
  obtain ⟨convert, hconvert⟩ := hconvert
  exact ⟨scan, convert, hscan, hconvert⟩

/-- A driver that is not in use takes the lock and the periods of the command. -/
theorem timerCmd_free (h : Unused st) (hb : st.emul.busy = none) {cmd : Cmd} {scan convert : Int}
    (hp : Periods nano2count cmd scan convert) (inttrig : Option Nat) (make : Int) :
    timerCmd nano2count st.drv st.emul cmd inttrig make =
      let drv := { st.drv with scanPeriod := scan, convertPeriod := convert }
      let emul := { st.emul with lock := some .kernel }
      if cmd.startSrc = trigNow then timerStartCmd drv emul inttrig make
      else ⟨⟨0, some timerInttrigFn⟩, drv, emul, false⟩ := by
  obtain ⟨hl, hra, hsa⟩ := h
  have hactive : ¬ (st.drv.rtTaskActive = true ∨ st.drv.scanTaskActive = true) := by
    rw [hra, hsa]
    decide
  have hret : ¬ (0 : Int) < 0 := by decide
  unfold timerCmd
  rw [if_neg hactive, comediLock_free hb hl]
  dsimp only
  rw [if_neg hret, hp.scan_eq]
  dsimp only
  rw [hp.convert_eq]

variable {nano2count}

/-- `nano2count` rounds down in proportion. -/
def Proportional (nano2count : U32 → Int) : Prop :=
  ∀ (k : Nat) (x y : U32), k * x.toNat ≤ y.toNat → k * nano2count x ≤ nano2count y

theorem testArgs_fit {cmd : Cmd} (h : (testArgs cmd).1 = 0) :
    ¬ (cmd.convertSrc = trigTimer ∧ cmd.scanBeginSrc = trigTimer ∧
      cmd.convertArg * cmd.scanEndArg > cmd.scanBeginArg) := by
  intro hcrowded
  have hstep := (testArgs_steps h).2.2
  rw [fitScan, if_pos hcrowded] at hstep
  cases hstep

/-- A scan of an accepted command is as long as its conversions, if their product does not
overflow. -/
theorem periods_timed (hcount : Proportional nano2count) {cmd : Cmd} {scan convert : Int}
    (hp : Periods nano2count cmd scan convert)
    (hfit : ¬ (cmd.convertSrc = trigTimer ∧ cmd.scanBeginSrc = trigTimer ∧
      cmd.convertArg * cmd.scanEndArg > cmd.scanBeginArg)) (hconvert : cmd.convertSrc = trigTimer)
    (hno : cmd.convertArg.toNat * cmd.scanEndArg.toNat < 2 ^ 32) :
    cmd.scanEndArg.toNat * convert ≤ scan := by
  have hproduct : (cmd.convertArg * cmd.scanEndArg).toNat =
      cmd.scanEndArg.toNat * cmd.convertArg.toNat := by
    rw [BitVec.toNat_mul, Nat.mod_eq_of_lt hno, Nat.mul_comm]
  have hc := hp.convert_eq
  rw [convertPeriod, if_pos hconvert, Option.some.injEq] at hc
  rw [← hc]
  have hs := hp.scan_eq
  unfold scanPeriod at hs
  split at hs
  next hbegin =>
    rw [Option.some.injEq] at hs
    have hle : cmd.convertArg * cmd.scanEndArg ≤ cmd.scanBeginArg :=
      BitVec.not_lt.mp fun hlt => hfit ⟨hconvert, hbegin, hlt⟩
    rw [BitVec.le_def, hproduct] at hle
    rw [← hs]
    exact hcount _ _ _ hle
  next =>
    split at hs
    · rw [Option.some.injEq] at hs
      rw [← hs]
      exact hcount _ _ _ hproduct.ge
    · cases hs

/-- The request in terms of what the core and the driver do. -/
theorem cmdRequest_eq (h : Sound st) (nano2count : U32 → Int) (file : File) (req : CmdReq)
    (make : Int) :
    let r := timerCmd nano2count st.drv st.emul req.cmd (inttrigOf st.sub) make
    ∃ b called s', cmdRequest nano2count st file req make =
        Timer.after { st with board := b, sub := s' } called r ∧
      CmdOutcome st.sub file { req with test := timerTest st.sub.type, start := r.ans } called s' := by
  intro r
  obtain ⟨a, ha, -⟩ := h.async
  exact ⟨_, _, _, rfl, doCmdIoctl_outcome st.board ha rfl file⟩

/-- What a request stores while a command is served is served like it. -/
theorem Serving.stored (h : Serving st) (hphase : Phase st) (s' : Subdevice) {cmd : Cmd} {b : Board}
    (hlike : Like cmd (cmdOf s')) (htype : s'.type = st.sub.type) (hover : Over st)
    (hover' : s'.runflags &&& srfRunning = 0)
    (hfit : cmd.stopSrc = st.cmd.stopSrc ∧ cmd.stopArg = st.cmd.stopArg ∧
      InBounds st.sub.type cmd ∧ InHand st cmd) :
    Serving { st with board := b, sub := s' } ∧ Phase { st with board := b, sub := s' } := by
  obtain ⟨hsrc, harg, hbounds, hhand⟩ := hfit
  have hsrc' : (cmdOf s').stopSrc = st.cmd.stopSrc := by
    obtain heq | heq := hlike.stopSrc
    · exact heq.trans hsrc
    · rw [heq, hsrc]
      obtain h₁ | h₁ := h.stopSrc <;> rw [h₁] <;> decide
  have hgoing : ∀ n, RtTimer.going (cmdOf s') n ↔ RtTimer.going st.cmd n := by
    intro n
    rw [RtTimer.going, RtTimer.going, hsrc', hlike.stopArg, harg]
  refine ⟨⟨h.lock, ?_, ?_, (hgoing 0).mpr h.going, ?_, fun _ => h.stopped hover,
    fun ho => absurd hover' ho⟩, hphase.retained ⟨rfl, rfl, rfl, rfl, rfl, rfl⟩ hgoing⟩
  · rw [InBounds, Timer.cmd, hlike.scanEndArg, hlike.chanlistLen, htype]
    exact hbounds
  · intro n i hscan
    rw [Timer.cmd, hlike.chanlistLen, htype]
    exact hhand n i hscan
  · rw [Timer.cmd, hsrc']
    exact h.stopSrc

/-- A request that does not start a command leaves the tasks to the one that is served. -/
theorem stored_sound (h : Sound st) {b : Board} {called : Bool} {s' : Subdevice} {req : CmdReq}
    (hout : CmdOutcome st.sub file req called s')
    (hno : called = true → Reaches st.sub file req → req.start.ret = 0 → False)
    (hfit : st.emul.lock.isSome = true → Stores st.sub file req.cmd →
      req.cmd.stopSrc = st.cmd.stopSrc ∧ req.cmd.stopArg = st.cmd.stopArg ∧
        InBounds st.sub.type req.cmd ∧ InHand st req.cmd) :
    Sound { st with board := b, sub := s' } := by
  obtain ⟨a₀, ha₀, hevents₀⟩ := h.async
  cases hout with
  | refused => exact h.board b
  | started a a' r hs hb hreach hret => exact absurd hret fun hz => hno rfl hreach hz
  | stored _ a a' r hs hb hstores hlike htrig hevents hr hcalled =>
    cases ha₀.symm.trans hs
    have hover : Over st := h.idleOver hb
    have hover' : r &&& srfRunning = 0 := by
      obtain rfl | hz := hr
      · exact hover
      · exact hz
    have htrig' : inttrigOf st.sub = none → a'.inttrig = none := by
      intro hnone
      rw [inttrigOf, hs] at hnone
      exact htrig.elim (fun heq => heq.trans hnone) id
    refine ⟨⟨a', rfl, hevents.elim (fun heq => heq.trans hevents₀) id⟩, h.cancel, h.emulBusy,
      fun _ => hover', ?_⟩
    obtain ⟨hlock, -, hnone⟩ | ⟨hserving, hphase, hnone⟩ | ⟨-, hrun, -⟩ := h.mode.unlocked_cases
    · exact h.mode.retained_unlocked hlock ⟨rfl, rfl, rfl, rfl, rfl, rfl⟩ hover' (htrig' hnone)
    · obtain ⟨hserved, hphase'⟩ := hserving.stored (b := b) hphase
        { st.sub with async := some a', runflags := r, busy := none } hlike rfl hover hover'
        (hfit (by rw [hserving.lock]; rfl) hstores)
      exact .serving hserved hphase' (htrig' hnone)
    · exact absurd hover hrun

/-- A proper command that is taken is served, or waits for its trigger. -/
theorem started_sound (hcount : Proportional nano2count) (h : Sound st) (hunused : Unused st)
    {req : CmdReq} {make : Int} {b : Board} {a' : Async} {flags : U32}
    (hproper : Proper st.sub.type req.cmd) (hmake : req.cmd.startSrc = trigNow → 0 ≤ make)
    {entries : List U32} {a : Async} (hcmd : a'.cmd = (loadCmd a req.cmd entries).cmd)
    (haccepted : (timerCmdtest st.sub.type a'.cmd).1 = 0) (hr : flags &&& srfRunning ≠ 0)
    (hevents : a'.events = 0)
    (htrig : a'.inttrig =
      (timerCmd nano2count st.drv st.emul req.cmd (inttrigOf st.sub) make).ans.inttrig) :
    Sound (Timer.after
      { st with
        board := b
        sub := { st.sub with async := some a', runflags := flags, busy := some (.file file) } } true
      (timerCmd nano2count st.drv st.emul req.cmd (inttrigOf st.sub) make)) := by
  obtain ⟨-, hbad, hargs⟩ := timerCmdtest_ok haccepted
  have hfit := testArgs_fit hargs
  rw [hcmd] at hbad hfit
  have hbad' : ¬ badSources req.cmd := hbad
  obtain ⟨scan, convert, hp⟩ := periods_exist nano2count hbad'
  have htimed : req.cmd.convertSrc = trigTimer → req.cmd.scanEndArg.toNat * convert ≤ scan :=
    fun hc => periods_timed hcount hp hfit hc (hproper.noOverflow hc)
  have hstop : req.cmd.stopSrc = trigCount ∨ req.cmd.stopSrc = trigNone := by
    by_contra hno
    rw [not_or] at hno
    exact hbad (.inr (.inr (.inr (.inl hno))))
  have hlocked : Serving st → False := by
    intro hserving
    have hlock := hserving.lock
    rw [hunused.1] at hlock
    cases hlock
  have hmode : st.rt = .suspended ∧ st.scan = .suspended ∧ st.woken = false ∧
      inttrigOf st.sub = none := by
    cases h.mode with
    | free _ hrt hscan hwoken _ hno => exact ⟨hrt, hscan, hwoken, hno⟩
    | armed hserving => exact (hlocked hserving).elim
    | serving hserving => exact (hlocked hserving).elim
    | ended _ _ hra =>
      rw [hunused.2.1] at hra
      cases hra
  obtain ⟨hrt, hscan, hwoken, hnone⟩ := hmode
  have hserved : ∀ st₁ : Timer, st₁.emul = { st.emul with lock := some .kernel } →
      st₁.sub = { st.sub with async := some a', runflags := flags, busy := some (.file file) } →
      st₁.scan = st.scan → st₁.drv.scanPeriod = scan → st₁.drv.convertPeriod = convert →
      Serving st₁ := by
    intro st₁ hemul hsub hscan₁ hscanPeriod hconvertPeriod
    have hcmd₁ : st₁.cmd = (loadCmd a req.cmd entries).cmd := by
      rw [Timer.cmd, hsub]
      exact hcmd
    have hrun : ¬ Over st₁ := by
      rw [Over, hsub]
      exact hr
    refine ⟨by rw [hemul], ?_, ?_, ?_, ?_, fun ho => absurd ho hrun, fun _ => ?_⟩
    · rw [hcmd₁, hsub]
      exact hproper.inBounds
    · intro n i hconverting
      rw [hscan₁, hscan] at hconverting
      cases hconverting
    · rw [hcmd₁]
      exact hproper.going
    · rw [hcmd₁]
      exact hstop
    · rw [Timed, hcmd₁, hscanPeriod, hconvertPeriod]
      exact htimed
  have hdriver := timerCmd_free nano2count hunused h.emulBusy hp (inttrigOf st.sub) make
  by_cases hnow : req.cmd.startSrc = trigNow
  · have hmake' := hmake hnow
    have hresult : timerCmd nano2count st.drv st.emul req.cmd (inttrigOf st.sub) make =
        ⟨⟨0, none⟩, { st.drv with scanPeriod := scan, convertPeriod := convert, stop := false },
          { st.emul with lock := some .kernel }, true⟩ := by
      rw [hdriver]
      dsimp only
      rw [if_pos hnow, timerStartCmd, if_neg (not_lt.mpr hmake'), decide_eq_true hmake', hnone]
    rw [hresult] at htrig ⊢
    refine ⟨⟨a', rfl, hevents⟩, h.cancel, h.emulBusy, (fun hb => nomatch hb), ?_⟩
    exact .serving (hserved _ rfl rfl rfl rfl rfl) (.ready rfl hscan hwoken hunused.2.1 hunused.2.2)
      htrig
  · have hresult : timerCmd nano2count st.drv st.emul req.cmd (inttrigOf st.sub) make =
        ⟨⟨0, some timerInttrigFn⟩, { st.drv with scanPeriod := scan, convertPeriod := convert },
          { st.emul with lock := some .kernel }, false⟩ := by
      rw [hdriver]
      dsimp only
      rw [if_neg hnow]
    rw [hresult] at htrig ⊢
    refine ⟨⟨a', rfl, hevents⟩, h.cancel, h.emulBusy, (fun hb => nomatch hb), ?_⟩
    refine .armed (hserved _ rfl rfl rfl rfl rfl) hunused.2.1 hunused.2.2 hrt hscan hwoken hr ?_
    change a'.inttrig ≠ none
    rw [htrig]
    exact Option.some_ne_none _

/-- A driver that is not in use takes every command that is accepted. -/
theorem timerCmd_taken (nano2count : U32 → Int) (hunused : Unused st) (hb : st.emul.busy = none)
    {cmd : Cmd} (hbad : ¬ badSources cmd) (inttrig : Option Nat) {make : Int}
    (hmake : cmd.startSrc = trigNow → 0 ≤ make) :
    (timerCmd nano2count st.drv st.emul cmd inttrig make).ans.ret = 0 := by
  obtain ⟨scan, convert, hp⟩ := periods_exist nano2count hbad
  rw [timerCmd_free nano2count hunused hb hp]
  dsimp only
  split
  next hnow => exact if_neg (not_lt.mpr (hmake hnow))
  next => rfl

theorem cmdRequest_sound (hcount : Proportional nano2count) (h : Sound st) {file : File}
    {req : CmdReq} {make : Int} (hfit : Fits st (.cmd file req make)) :
    Sound (cmdRequest nano2count st file req make) := by
  obtain ⟨hproper, hstored⟩ := hfit
  obtain ⟨b, called, s', heq, hout⟩ := cmdRequest_eq h nano2count file req make
  rw [heq]
  by_cases hunused : Unused st
  · have hret : Reaches st.sub file req →
        (timerCmd nano2count st.drv st.emul req.cmd (inttrigOf st.sub) make).ans.ret = 0 := by
      intro hreach
      have hmake := (hproper hunused hreach).2
      obtain ⟨a, f, -, -, -, -, -, haccepted, -⟩ := hreach
      have hbad : ¬ badSources req.cmd := (timerCmdtest_ok haccepted).2.1
      exact timerCmd_taken nano2count hunused h.emulBusy hbad _ hmake
    cases hout with
    | refused => exact h.board b
    | stored _ a a' r hs hb hstores hlike htrig hevents hr hcalled =>
      cases called with
      | false =>
        refine stored_sound (b := b) h (.stored false a a' r hs hb hstores hlike htrig hevents hr
          hcalled) (fun hf => nomatch hf) hstored
      | true =>
        obtain ⟨hreach, hfailed⟩ := hcalled rfl
        exact absurd (hret hreach) hfailed
    | started a a' r hs hb hreach hzero hr entries hcmd haccepted htrig hevents =>
      obtain ⟨hp, hmake⟩ := hproper hunused hreach
      exact started_sound hcount h hunused hp hmake hcmd haccepted hr hevents htrig
  · have hbusy := timerCmd_busy nano2count hunused req.cmd (inttrigOf st.sub) make
    rw [hbusy] at hout ⊢
    have hsame : Timer.after { st with board := b, sub := s' } called
        ⟨⟨-ebusy, inttrigOf st.sub⟩, st.drv, st.emul, false⟩ =
          { st with board := b, sub := s' } := by
      cases called <;> rfl
    rw [hsame]
    have hne : -ebusy ≠ 0 := by decide
    exact stored_sound h hout (fun _ _ hz => hne hz) hstored

/-- What a step keeps; no step reads beyond the channel list. -/
theorem timerStep_sound (hcount : Proportional nano2count) (h : Sound st) (x : TimerStep)
    (hfit : Fits st x) : ∃ st', timerStep nano2count st x = .ok st' ∧ Sound st' := by
  cases x with
  | cmd file req make => exact ⟨_, rfl, cmdRequest_sound hcount h hfit⟩
  | inttrig trigNum make => exact ⟨_, rfl, inttrigRequest_sound h hfit⟩
  | cancel file => exact ⟨_, rfl, cancelRequest_sound h hfit⟩
  | timerTask make => exact ⟨_, rfl, (timerTask_sound h hfit).1⟩
  | scanTask input =>
    obtain ⟨st', hst, hs, -⟩ := scanTask_sound h input
    exact ⟨st', hst, hs⟩

theorem due_step (h : Sound st) (ho : Over st) {x : TimerStep} (hdue : TaskDue st x)
    (hfit : Fits st x) (hst : timerStep nano2count st x = .ok st') :
    Sound st' ∧ Over st' ∧ due st' < due st := by
  cases x with
  | cmd file req make => exact hdue.elim
  | inttrig trigNum make => exact hdue.elim
  | cancel file => exact hdue.elim
  | timerTask make =>
    cases hst
    obtain ⟨hs, hover⟩ := timerTask_sound h hfit
    exact ⟨hs, (hover ho).1, (hover ho).2 hdue⟩
  | scanTask input =>
    obtain ⟨st₁, hst₁, hs, hover⟩ := scanTask_sound h input
    cases hst₁.symm.trans hst
    exact ⟨hs, (hover ho).1, (hover ho).2 hdue⟩

/-- A command that is over is followed by the release of the lock. -/
theorem settles (nano2count : U32 → Int) (k : Nat) :
    ∀ st, Sound st → Over st → due st ≤ k → Settles nano2count st := by
  induction k using Nat.strong_induction_on with
  | _ k ih =>
    intro st h ho hk
    have hnext : ∀ x st', TaskDue st x → Fits st x → timerStep nano2count st x = .ok st' →
        Settles nano2count st' := by
      intro x st' hdue hfit hst
      obtain ⟨hs, ho', hlt⟩ := due_step h ho hdue hfit hst
      exact ih (due st') (lt_of_lt_of_le hlt hk) st' hs ho' le_rfl
    have hrun : (∃ n, st.rt = .waiting n) → st.rt ≠ .suspended ∧ st.rt ≠ .ready := by
      rintro ⟨n, hn⟩
      rw [hn]
      exact ⟨nofun, nofun⟩
    cases h.mode with
    | free hunused _ _ _ _ _ =>
      refine .free st ⟨hunused.1, fun cmd make haccepted hmake => ?_⟩
      exact timerCmd_taken nano2count hunused h.emulBusy (timerCmdtest_ok haccepted).2.1 _
        fun _ => hmake
    | armed _ _ _ _ _ _ hno _ => exact absurd ho hno
    | ended n _ _ hsa hrt _ _ _ _ =>
      obtain ⟨hne, hready⟩ := hrun ⟨n, hrt⟩
      refine .later st ⟨.timerTask 0, hne, fun h => absurd h hready, fun _ _ hactive => ?_⟩ hnext
      rw [hsa] at hactive
      cases hactive
    | serving _ hphase _ =>
      cases hphase with
      | ready hrt hscan hwoken hra hsa =>
        refine .later st ⟨.timerTask 0, by rw [TaskDue, hrt]; nofun, fun _ => le_rfl,
          fun n hn => ?_⟩ hnext
        rw [hrt] at hn
        cases hn
      | pending m hrt hscan hwoken hsa =>
        exact .later st ⟨.scanTask {}, .inl hwoken, trivial⟩ hnext
      | converting m i hrt hscan hwoken hsa =>
        exact .later st ⟨.scanTask {}, .inr (.inl ⟨m, i, hscan⟩), trivial⟩ hnext
      | between m hm hgoing hrt hra hscan hwoken hsa =>
        obtain ⟨hne, hready⟩ := hrun ⟨m, hrt⟩
        refine .later st ⟨.timerTask 0, hne, fun h => absurd h hready,
          fun _ _ _ => ⟨le_rfl, hwoken, fun n i => ?_⟩⟩ hnext
        rw [hscan]
        nofun

end Commands

/-- A timer for an analog input or output of two channels. -/
def timerFor (type : SubdeviceType) : Timer where
  sub :=
    { type, nChan := 2, lenChanlist := 1024, rangeTable := some { length := 1 }
      async := some { preallocBufsz := 4096 } }

/-- One scan of two timed conversions, with a channel list of the given length. -/
def twoConversions (startSrc chanlistLen : U32) : CmdReq where
  cmd :=
    { startSrc, scanBeginSrc := trigTimer, scanBeginArg := 200000, convertSrc := trigTimer
      convertArg := 100000, scanEndSrc := trigCount, scanEndArg := 2, stopSrc := trigCount
      stopArg := 1, chanlistLen }
  entries := some fun _ => 0
  test := timerTest .ai

/-- The conversion of RTLinux, which counts in periods of 838 ns. -/
def rtlNano2count (ns : U32) : Int := (ns.toNat / 838 : Nat)

theorem rtlNano2count_proportional : Proportional rtlNano2count := by
  intro k x y h
  have hle : k * (x.toNat / 838) ≤ y.toNat / 838 := by
    rw [Nat.le_div_iff_mul_le (by decide)]
    calc k * (x.toNat / 838) * 838 = k * (x.toNat / 838 * 838) := Nat.mul_assoc _ _ _
      _ ≤ k * x.toNat := Nat.mul_le_mul_left k (Nat.div_mul_le_self _ _)
      _ ≤ y.toNat := h
  unfold rtlNano2count
  exact_mod_cast hle

theorem timerFor_attached (type : SubdeviceType) : Attached (timerFor type) where
  async := ⟨_, rfl, rfl, rfl⟩
  cancel := rfl
  ended := BitVec.zero_and
  emulBusy := rfl
  unused := ⟨rfl, rfl, rfl⟩
  rt := rfl
  scan := rfl
  woken := rfl

/-- A command that is cancelled between its conversions. -/
def cancelledScan : List TimerStep :=
  [.cmd 0 (twoConversions trigNow 2) 0, .timerTask 0, .scanTask {}, .cancel 0, .scanTask {}]

end Comedi.RtTimerRuns
