import Comedi.CommandSteps
import Comedi.DeviceSteps
import Comedi.KernelCommands

namespace Comedi.RealTime

open RunState Requests CommandSteps Kcomedilib DeviceSteps GuardedRuns

/-- The start and the end of a command. Every request and every close that ends one does so
through `do_become_nonbusy`, which may come at any time. -/
inductive RtAction where
  | cmd (file : File) (req : CmdReq)
  | becomeNonbusy
  | kernelCommand (cmd : Cmd) (ans : Answer)
  | kernelCancel (ans : Answer)

def RtAction.effect : RtAction → Effect
  | .cmd file req => fun b s => .ok (doCmdIoctl b s req file).2
  | .becomeNonbusy => fun b s => .ok ((doBecomeNonbusy b s).1, (doBecomeNonbusy b s).2, [])
  | .kernelCommand command ans => fun b s => .ok (comediCommand b s command ans).2
  | .kernelCancel ans => fun b s => .ok (comediCancel b s ans).2

/-- An action on a subdevice of the device, given by its number. -/
def rtStep (dev : Device) (x : Nat × RtAction) : Result Device :=
  (·.1) <$> onSubdevice dev x.1 x.2.effect

/-- Whether `comedi_free_irq` gives the real-time interrupt back. -/
def comediFreeIrq (it : Irq) : Bool := it.rt

def rtOn (s : Subdevice) : Bool := s.runflags &&& srfRt ≠ 0

def rtCount (dev : Device) : Nat := dev.subdevices.countP rtOn

/-- Real time is counted and the interrupt held as the count says. -/
def Counted (dev : Device) : Prop :=
  ∃ it, dev.board.irq = some it ∧ dev.board.rt = rtCount dev ∧ (it.held = true ↔ 0 < dev.board.rt)

/-- The record of the interrupt tells whether the device is in real time. -/
def Recorded (dev : Device) : Prop :=
  ∀ it, dev.board.irq = some it → (it.rt = true ↔ 0 < dev.board.rt) ∧ comediFreeIrq it = it.held

/-- A device that was attached with an interrupt of its own. -/
structure Attached (dev : Device) : Prop where
  rt : dev.board.rt = 0
  irq : dev.board.irq = some {}
  idle : ∀ s ∈ dev.subdevices, s.runflags &&& srfRt = 0

/-- `COMEDI_CMD` gets as far as `do_cmd` with a command in real time, and the driver fails. -/
def FailsInRealTime (s : Subdevice) (file : File) (req : CmdReq) : Prop :=
  ∃ a f, cmdRefusal s req.cmd file = none ∧ s.async = some a ∧ req.allocOk = true ∧
    req.entries = some f ∧
    let entries := (List.range req.cmd.chanlistLen.toNat).map f
    let tested := req.test.run (loadCmd a req.cmd entries).cmd
    ¬ ChanlistCheck.checkChanlist s entries < 0 ∧ tested.1 = 0 ∧ tested.2.flags &&& trigBogus = 0 ∧
      a.preallocBufsz ≠ 0 ∧ tested.2.flags &&& trigRt ≠ 0 ∧ req.start.ret ≠ 0

/-- The action takes the subdevice out of real time. -/
def Leaves (s : Subdevice) : RtAction → Prop
  | .cmd file req => FailsInRealTime s file req
  | .becomeNonbusy => rtOn s = true
  | .kernelCommand _ _ => False
  | .kernelCancel ans => rtOn s = true ∧ KernelCommands.Admits s ∧ ans.ret = 0

/-- No subdevice leaves real time while another is in it. -/
def LastToLeave (dev : Device) (x : Nat × RtAction) : Prop :=
  ∀ s, dev.subdevices[x.1]? = some s → Leaves s x.2 →
    ∀ j s', j ≠ x.1 → dev.subdevices[j]? = some s' → rtOn s' = false

variable {b : Board} {s s' : Subdevice} {dev dev' : Device}

/-- What an action does to the count, with `p` telling that a subdevice leaves real time. -/
inductive Switch (b : Board) (s : Subdevice) (p : Prop) : Board → Subdevice → Prop where
  | keep (s' : Subdevice) (hp : ¬ p) (hrt : rtOn s' = rtOn s) : Switch b s p b s'
  | up (s' : Subdevice) (hp : ¬ p) (hoff : rtOn s = false) (hon : rtOn s' = true) :
      Switch b s p (comediSwitchToRt b).2 s'
  | down (s' : Subdevice) (hp : p) (hon : rtOn s = true) (hoff : rtOn s' = false) :
      Switch b s p (comediSwitchToNonRt b) s'
  | upDown (s' : Subdevice) (hp : p) (hoff : rtOn s = false) (hoff' : rtOn s' = false) :
      Switch b s p (comediSwitchToNonRt (comediSwitchToRt b).2) s'

/-- A subdevice that runs no command is not in real time. -/
def Idle (s : Subdevice) : Prop := s.busy = none → rtOn s = false

theorem rtOn_eq_false : rtOn s = false ↔ s.runflags &&& srfRt = 0 := by
  simp [rtOn]

theorem released_off (s : Subdevice) : rtOn (released s) = false :=
  rtOn_eq_false.mpr (released_rt s)

theorem doBecomeNonbusy_fst (b : Board) (s : Subdevice) :
    (doBecomeNonbusy b s).1 = if rtOn s = true then comediSwitchToNonRt b else b := by
  have hflag : (s.runflags &&& ~~~srfRunning ||| 0 &&& srfRunning) &&& srfRt = s.runflags &&& srfRt :=
    BitFlags.set_keeps (by decide)
  simp only [doBecomeNonbusy, comediSetSubdeviceRunflags, hflag, rtOn, decide_eq_true_eq]
  split <;> rfl

/-- `do_become_nonbusy` counts down exactly when the subdevice is in real time. -/
theorem doBecomeNonbusy_switch (b : Board) (s : Subdevice) {p : Prop} (hp : p ↔ rtOn s = true) :
    Switch b s p (doBecomeNonbusy b s).1 (doBecomeNonbusy b s).2 := by
  rw [doBecomeNonbusy_fst, doBecomeNonbusy_released]
  cases hs : rtOn s with
  | true => exact .down _ (hp.mpr hs) hs (released_off s)
  | false =>
    rw [if_neg Bool.false_ne_true]
    exact .keep _ (fun h => by rw [hp.mp h] at hs; cases hs) (by rw [released_off, hs])

theorem Switch.of_flag {s₁ : Subdevice} {p : Prop} {b' : Board} (h : Switch b s₁ p b' s')
    (hflag : rtOn s₁ = rtOn s) : Switch b s p b' s' := by
  cases h with
  | keep s' hp hrt => exact .keep s' hp (hrt.trans hflag)
  | up s' hp hoff hon => exact .up s' hp (hflag ▸ hoff) hon
  | down s' hp hon hoff => exact .down s' hp (hflag ▸ hon) hoff
  | upDown s' hp hoff hoff' => exact .upDown s' hp (hflag ▸ hoff) hoff'

/-- The label `cleanup` on a subdevice that was never switched. -/
theorem cmdCleanup_switch {s₁ : Subdevice} {p : Prop} (hp : ¬ p) (hoff : rtOn s = false)
    (hflag : rtOn s₁ = rtOn s) (ret : Int) (calls : List Call) :
    Switch b s p (cmdCleanup b s₁ ret calls).2.1 (cmdCleanup b s₁ ret calls).2.2.1 := by
  have hon : ¬ rtOn s₁ = true := by
    rw [hflag, hoff]
    exact Bool.false_ne_true
  exact (doBecomeNonbusy_switch b s₁ (iff_of_false hp hon)).of_flag hflag

theorem switchForCmd_rt {it : Irq} (hirq : b.irq = some it) (hoff : rtOn s = false) (cmd : Cmd) :
    rtOn (switchForCmd b s cmd).2 = decide (cmd.flags &&& trigRt ≠ 0) ∧
      (switchForCmd b s cmd).1 =
        if cmd.flags &&& trigRt ≠ 0 then (comediSwitchToRt b).2 else b := by
  have hret : (comediSwitchToRt b).1 = 0 := by rw [comediSwitchToRt, hirq]
  have hset : rtOn (comediSetSubdeviceRunflags s srfRt srfRt) = true := by
    have hne : srfRt &&& srfRt ≠ 0 := by decide
    simp only [rtOn, comediSetSubdeviceRunflags, BitVec.and_self, BitFlags.or_self_and]
    exact decide_eq_true (by decide)
  unfold switchForCmd
  by_cases hrt : cmd.flags &&& trigRt ≠ 0
  · rw [if_pos hrt, if_pos hrt, decide_eq_true hrt]
    dsimp only
    rw [if_pos hret]
    exact ⟨hset, rfl⟩
  · rw [if_neg hrt, if_neg hrt, decide_eq_false hrt]
    exact ⟨hoff, rfl⟩

/-- The flag of the subdevice that `do_cmd` finds, and the board. -/
theorem startedSubdevice_rt {it : Irq} (hirq : b.irq = some it) (a : Async) (owner : Owner) :
    rtOn (startedSubdevice b s a owner).2 = decide (a.cmd.flags &&& trigRt ≠ 0) ∧
      (startedSubdevice b s a owner).1 =
        if a.cmd.flags &&& trigRt ≠ 0 then (comediSwitchToRt b).2 else b := by
  let s₁ := comediSetSubdeviceRunflags
    { s with async := some { AsyncBuffer.comediResetAsyncBuf a with cbMask := wakeMask a.cmd } }
    (~~~0) (srfUser ||| srfRunning)
  have hoff : rtOn s₁ = false := by
    rw [rtOn_eq_false]
    change (s.runflags &&& ~~~(~~~0) ||| (srfUser ||| srfRunning) &&& ~~~0) &&& srfRt = 0
    have hz : s.runflags &&& ~~~(~~~0) = 0 := BitVec.and_zero
    rw [hz]
    rfl
  exact switchForCmd_rt hirq hoff a.cmd

theorem startCmd_switch {it : Irq} (hirq : b.irq = some it) {s₁ : Subdevice} (a : Async)
    (file : File) (ans : Answer) (hoff : rtOn s = false) {p : Prop}
    (hp : p ↔ a.cmd.flags &&& trigRt ≠ 0 ∧ ans.ret ≠ 0) :
    Switch b s p (startCmd b s₁ a file ans).2.1 (startCmd b s₁ a file ans).2.2.1 := by
  obtain ⟨hflag, hboard⟩ := startedSubdevice_rt (s := s₁) hirq a (.file file)
  unfold startCmd
  generalize startedSubdevice b s₁ a (.file file) = started at hflag hboard
  obtain ⟨b₁, s₂⟩ := started
  dsimp only at hflag hboard ⊢
  have hflag' : rtOn (setInttrig s₂ ans.inttrig) = rtOn s₂ := rfl
  by_cases hrt : a.cmd.flags &&& trigRt ≠ 0
  · rw [if_pos hrt] at hboard
    rw [decide_eq_true hrt] at hflag
    subst b₁
    split
    next hret => exact .up _ (fun h => (hp.mp h).2 hret) hoff (hflag'.trans hflag)
    next hret =>
      change Switch b s p (doBecomeNonbusy _ _).1 (doBecomeNonbusy _ _).2
      rw [doBecomeNonbusy_fst, doBecomeNonbusy_released, if_pos (hflag'.trans hflag)]
      exact .upDown _ (hp.mpr ⟨hrt, hret⟩) hoff (released_off _)
  · rw [if_neg hrt] at hboard
    rw [decide_eq_false hrt] at hflag
    subst b₁
    have hno : ¬ p := fun h => hrt (hp.mp h).1
    split
    · exact .keep _ hno (by rw [hflag', hflag, hoff])
    · exact cmdCleanup_switch hno hoff (by rw [hflag', hflag, hoff]) _ _

theorem doCmdIoctl_switch {it : Irq} (hirq : b.irq = some it) (hidle : Idle s) (req : CmdReq)
    (file : File) :
    Switch b s (FailsInRealTime s file req) (doCmdIoctl b s req file).2.1
      (doCmdIoctl b s req file).2.2.1 := by
  unfold doCmdIoctl
  split
  next e hr =>
    refine .keep s (fun ⟨a, f, hn, _⟩ => ?_) rfl
    rw [hr] at hn
    cases hn
  next hs =>
    refine .keep s (fun ⟨a, f, _, ha, _⟩ => ?_) rfl
    rw [hs] at ha
    cases ha
  next a hr hs =>
  have hoff : rtOn s = false := hidle (cmdRefusal_none hr).2.1
  split
  next halloc => exact .keep _ (fun ⟨_, _, _, _, h, _⟩ => halloc h) rfl
  split
  next he =>
    have hno : ¬ FailsInRealTime s file req := by
      rintro ⟨_, f, _, _, _, hf, _⟩
      rw [he] at hf
      cases hf
    exact cmdCleanup_switch hno hoff (by rfl) _ _
  next f he =>
  have hfails : FailsInRealTime s file req ↔
      ¬ ChanlistCheck.checkChanlist s ((List.range req.cmd.chanlistLen.toNat).map f) < 0 ∧
        let tested := req.test.run
          (loadCmd a req.cmd ((List.range req.cmd.chanlistLen.toNat).map f)).cmd
        tested.1 = 0 ∧ tested.2.flags &&& trigBogus = 0 ∧ a.preallocBufsz ≠ 0 ∧
          tested.2.flags &&& trigRt ≠ 0 ∧ req.start.ret ≠ 0 := by
    constructor
    · rintro ⟨a', f', _, ha, _, hf, h⟩
      rw [hs] at ha
      rw [he] at hf
      cases ha
      cases hf
      exact h
    · intro h
      exact ⟨a, f, hr, hs, by simpa using ‹¬¬req.allocOk = true›, he, h⟩
  dsimp only
  split
  next hcheck =>
    have hno : ¬ FailsInRealTime s file req := fun h => (hfails.mp h).1 hcheck
    exact cmdCleanup_switch hno hoff (by rfl) _ _
  next hcheck =>
  unfold testCmd
  dsimp only
  split
  next htest =>
    have hno : ¬ FailsInRealTime s file req := fun h =>
      htest.elim (fun hb => hb (hfails.mp h).2.2.1) (fun hr => hr (hfails.mp h).2.1)
    exact cmdCleanup_switch hno hoff (by rfl) _ _
  next htest =>
  rw [not_or, not_not, not_not] at htest
  split
  next hsz =>
    have hno : ¬ FailsInRealTime s file req := fun h => (hfails.mp h).2.2.2.1 hsz
    exact cmdCleanup_switch hno hoff (by rfl) _ _
  next hsz =>
  refine startCmd_switch hirq _ file req.start hoff ?_
  rw [hfails]
  exact ⟨fun h => h.2.2.2.2, fun h => ⟨hcheck, htest.2, htest.1, hsz, h⟩⟩

theorem comediCommand_switch {it : Irq} (hirq : b.irq = some it) (hidle : Idle s) (cmd : Cmd)
    (ans : Answer) :
    Switch b s False (comediCommand b s cmd ans).2.1 (comediCommand b s cmd ans).2.2.1 := by
  have hret : (comediSwitchToRt b).1 = 0 := by rw [comediSwitchToRt, hirq]
  unfold comediCommand
  split
  · exact .keep s id rfl
  split
  · exact .keep s id rfl
  next a ha =>
  split
  · exact .keep s id rfl
  next hb =>
  have hoff : rtOn s = false := hidle (by simpa using hb)
  refine .up _ id hoff ?_
  have hflags : (s.runflags &&& ~~~(~~~0) ||| (srfRunning ||| srfRt) &&& ~~~0) &&& srfRt ≠ 0 := by
    have hz : s.runflags &&& ~~~(~~~0) = 0 := BitVec.and_zero
    rw [hz]
    decide
  simp only [clientStarted, hret, if_true, setInttrig, comediSetSubdeviceRunflags, rtOn]
  exact decide_eq_true hflags

theorem clientStopped_off (b : Board) (s : Subdevice) : rtOn (clientStopped b s).2 = false := by
  rw [rtOn_eq_false]
  change (s.runflags &&& ~~~(srfRunning ||| srfRt) ||| 0 &&& (srfRunning ||| srfRt)) &&& srfRt = 0
  have hz : (0 : U32) &&& (srfRunning ||| srfRt) = 0 := BitVec.zero_and
  have hor : s.runflags &&& ~~~(srfRunning ||| srfRt) ||| 0 =
      s.runflags &&& ~~~(srfRunning ||| srfRt) := BitVec.or_zero
  rw [hz, hor]
  exact BitFlags.cleared (by decide)

theorem comediCancel_switch (b : Board) (s : Subdevice) (ans : Answer) :
    Switch b s (rtOn s = true ∧ KernelCommands.Admits s ∧ ans.ret = 0) (comediCancel b s ans).2.1
      (comediCancel b s ans).2.2.1 := by
  unfold comediCancel
  split
  next hl =>
    refine .keep s (fun h => ?_) rfl
    rw [h.2.1.1] at hl
    cases hl
  next hl =>
  split
  next hc =>
    refine .keep s (fun h => ?_) rfl
    rw [h.2.1.2.1] at hc
    obtain hc | hc := hc
    · exact hc rfl
    · rw [Option.isNone_iff_eq_none] at hc
      have := h.2.1.2.2
      rw [hc] at this
      cases this
  next hc =>
  split
  next hret => exact .keep _ (fun h => hret h.2.2) rfl
  next hret =>
  rw [not_or, not_not] at hc
  have hadmits : KernelCommands.Admits s :=
    ⟨by simpa using hl, hc.1, by simpa [Option.isSome_iff_ne_none] using hc.2⟩
  have hoff := clientStopped_off b (setInttrig s ans.inttrig)
  have hboard : (clientStopped b (setInttrig s ans.inttrig)).1 =
      if rtOn s = true then comediSwitchToNonRt b else b := by
    simp only [clientStopped, setInttrig, rtOn, decide_eq_true_eq]
    rfl
  dsimp only
  rw [hboard]
  cases hs : rtOn s with
  | true => exact .down _ ⟨rfl, hadmits, not_not.mp hret⟩ hs hoff
  | false =>
    rw [if_neg Bool.false_ne_true]
    exact .keep _ (fun h => Bool.false_ne_true h.1) (hoff.trans hs.symm)

/-- Every action counts as the flag of the subdevice says. -/
theorem effect_switch {it : Irq} (hirq : b.irq = some it) (hidle : Idle s) {x : RtAction}
    {b' : Board} {calls : List Call} (h : x.effect b s = .ok (b', s', calls)) :
    Switch b s (Leaves s x) b' s' := by
  cases x with
  | cmd file req =>
    have hswitch := doCmdIoctl_switch hirq hidle req file
    rw [Except.ok.inj h] at hswitch
    exact hswitch
  | becomeNonbusy =>
    cases h
    exact doBecomeNonbusy_switch b s Iff.rfl
  | kernelCommand cmd ans =>
    have hswitch := comediCommand_switch hirq hidle cmd ans
    rw [Except.ok.inj h] at hswitch
    exact hswitch
  | kernelCancel ans =>
    have hswitch := comediCancel_switch b s ans
    rw [Except.ok.inj h] at hswitch
    exact hswitch

theorem effect_idle (hidle : Idle s) {x : RtAction} {b' : Board} {calls : List Call}
    (h : x.effect b s = .ok (b', s', calls)) : Idle s' := by
  cases x with
  | cmd file req =>
    have he := doCmdIoctl_effect b s req file
    rw [Except.ok.inj h] at he
    intro hb
    cases he with
    | refused => exact hidle hb
    | noMemory a a' hs hfree => exact hidle hfree
    | failed => exact rtOn_eq_false.mpr (BitFlags.cleared (by decide))
    | started => cases hb
  | becomeNonbusy =>
    cases h
    rw [doBecomeNonbusy_released]
    exact fun _ => released_off s
  | kernelCommand cmd ans =>
    have hs : (comediCommand b s cmd ans).2.2.1 = s' := by rw [Except.ok.inj h]
    rw [← hs]
    unfold comediCommand
    split
    · exact hidle
    split
    · exact hidle
    split
    · exact hidle
    exact fun hb => nomatch hb
  | kernelCancel ans =>
    have hs : (comediCancel b s ans).2.2.1 = s' := by rw [Except.ok.inj h]
    have hswitch := comediCancel_switch b s ans
    rw [← hs]
    unfold comediCancel
    split
    · exact hidle
    split
    · exact hidle
    split
    · exact hidle
    exact fun _ => clientStopped_off b _

theorem onSubdevice_ok {k : Nat} {f : Effect} {r : Device × List (Nat × Call)}
    (h : onSubdevice dev k f = .ok r) :
    r.1 = dev ∧ dev.subdevices[k]? = none ∨
      ∃ s b' s' calls, dev.subdevices[k]? = some s ∧ f dev.board s = .ok (b', s', calls) ∧
        r.1 = { dev.set k s' with board := b' } := by
  unfold onSubdevice at h
  split at h
  next hk =>
    cases h
    exact .inl ⟨rfl, hk⟩
  next s hk =>
    obtain ⟨⟨b', s', calls⟩, hf, h⟩ := bind_eq_ok h
    cases h
    exact .inr ⟨s, b', s', calls, hk, hf, rfl⟩

theorem rtStep_cases {x : Nat × RtAction} (h : rtStep dev x = .ok dev') :
    dev' = dev ∧ dev.subdevices[x.1]? = none ∨
      ∃ s b' s' calls, dev.subdevices[x.1]? = some s ∧ x.2.effect dev.board s = .ok (b', s', calls) ∧
        dev' = { dev.set x.1 s' with board := b' } := by
  unfold rtStep at h
  obtain ⟨r, hr, h⟩ := bind_eq_ok (x := onSubdevice dev x.1 x.2.effect) h
  cases h
  exact onSubdevice_ok hr

/-- One for each subdevice, and one more or less for the one that is replaced. -/
theorem countP_replace {l : List Subdevice} {k : Nat} (hk : l[k]? = some s) (s' : Subdevice) :
    (l.set k s').countP rtOn + (if rtOn s = true then 1 else 0) =
      l.countP rtOn + (if rtOn s' = true then 1 else 0) := by
  obtain ⟨hlt, hget⟩ := List.getElem?_eq_some_iff.mp hk
  have hpos : (if rtOn s = true then 1 else 0) ≤ l.countP rtOn := by
    split
    next hs => exact List.countP_pos_iff.mpr ⟨s, List.mem_of_getElem? hk, hs⟩
    next => exact Nat.zero_le _
  rw [List.countP_set hlt, hget]
  omega

/-- Nobody else is in real time exactly when nobody is after the subdevice has left it. -/
theorem last_iff {k : Nat} (hk : dev.subdevices[k]? = some s) (hoff : rtOn s' = false) :
    (dev.subdevices.set k s').countP rtOn = 0 ↔
      ∀ j t, j ≠ k → dev.subdevices[j]? = some t → rtOn t = false := by
  obtain ⟨hlt, -⟩ := List.getElem?_eq_some_iff.mp hk
  rw [List.countP_eq_zero]
  constructor
  · intro h j t hj ht
    have hmem : t ∈ dev.subdevices.set k s' :=
      List.mem_of_getElem? ((List.getElem?_set_ne (Ne.symm hj)).trans ht)
    exact Bool.eq_false_iff.mpr (h t hmem)
  · intro h t ht
    obtain ⟨j, hj⟩ := List.mem_iff_getElem?.mp ht
    by_cases hjk : j = k
    · subst j
      rw [List.getElem?_set_self hlt] at hj
      cases hj
      rw [hoff]
      exact Bool.false_ne_true
    · rw [List.getElem?_set_ne (Ne.symm hjk)] at hj
      rw [h j t hjk hj]
      exact Bool.false_ne_true

def Sound (dev : Device) : Prop := Counted dev ∧ ∀ s ∈ dev.subdevices, Idle s

theorem Attached.sound (h : Attached dev) : Sound dev := by
  have hnone : rtCount dev = 0 :=
    List.countP_eq_zero.mpr fun s hs => by simp [rtOn_eq_false.mpr (h.idle s hs)]
  refine ⟨⟨{}, h.irq, by rw [h.rt, hnone]; rfl, ?_⟩, fun s hs _ => rtOn_eq_false.mpr (h.idle s hs)⟩
  rw [h.rt]
  exact iff_of_false Bool.false_ne_true (lt_irrefl 0)

theorem Attached.recorded (h : Attached dev) : Recorded dev := by
  intro it hirq
  rw [h.irq] at hirq
  cases hirq
  rw [h.rt]
  exact ⟨iff_of_false Bool.false_ne_true (lt_irrefl 0), rfl⟩

theorem switchToRt_up {it : Irq} (hirq : b.irq = some it) (hheld : it.held = true ↔ 0 < b.rt)
    (hrt : 0 ≤ b.rt) :
    ∃ it', (comediSwitchToRt b).2.irq = some it' ∧ (comediSwitchToRt b).2.rt = b.rt + 1 ∧
      it'.held = true ∧ it'.rt = true := by
  unfold comediSwitchToRt
  rw [hirq]
  refine ⟨_, rfl, rfl, ?_, rfl⟩
  dsimp only
  split
  · rfl
  · exact hheld.mpr (by omega)

theorem switchToNonRt_down {it : Irq} {n : Nat} (hirq : b.irq = some it)
    (hheld : b.rt - 1 ≠ 0 → it.held = true) (hn : b.rt - 1 = n) :
    ∃ it', (comediSwitchToNonRt b).irq = some it' ∧ (comediSwitchToNonRt b).rt = n ∧
      (it'.held = true ↔ 0 < (comediSwitchToNonRt b).rt) ∧ it'.rt = false := by
  unfold comediSwitchToNonRt
  rw [hirq]
  refine ⟨_, rfl, hn, ?_, rfl⟩
  dsimp only
  split
  next hz => exact iff_of_false Bool.false_ne_true (by omega)
  next hne => exact iff_of_true (hheld hne) (by omega)

/-- With its flag down, the record of the interrupt is right only where nothing is counted. -/
theorem recorded_iff_zero {it : Irq} {n : Nat} (hirq : dev.board.irq = some it)
    (hrt : dev.board.rt = n) (hheld : it.held = true ↔ 0 < dev.board.rt) (hflag : it.rt = false) :
    Recorded dev ↔ n = 0 := by
  constructor
  · intro h
    have hzero := (h it hirq).1
    rw [hflag] at hzero
    by_contra hne
    exact Bool.false_ne_true (hzero.mpr (by omega))
  · intro hzero it' hit
    cases hirq.symm.trans hit
    have hle : ¬ 0 < dev.board.rt := by omega
    refine ⟨iff_of_false (by rw [hflag]; exact Bool.false_ne_true) hle, ?_⟩
    rw [comediFreeIrq, hflag]
    exact (Bool.eq_false_iff.mpr fun h => hle (hheld.mp h)).symm

/-- What a step makes of the count and of the interrupt. The record of the interrupt is right
after it if it was before, and unless a subdevice leaves real time that is not the last. -/
theorem rtStep_counted {x : Nat × RtAction} (hs : Sound dev) (h : rtStep dev x = .ok dev') :
    Sound dev' ∧ (Recorded dev → (Recorded dev' ↔ LastToLeave dev x)) := by
  obtain ⟨⟨it, hirq, hrt, hheld⟩, hidle⟩ := hs
  obtain ⟨rfl, hk⟩ | ⟨s, b', s', calls, hk, heff, rfl⟩ := rtStep_cases h
  · refine ⟨⟨⟨it, hirq, hrt, hheld⟩, hidle⟩, fun hrec => iff_of_true hrec fun s hs => ?_⟩
    rw [hk] at hs
    cases hs
  have hidle' : ∀ t ∈ dev.subdevices.set x.1 s', Idle t := by
    intro t ht
    obtain ht | rfl := List.mem_or_eq_of_mem_set ht
    · exact hidle t ht
    · exact effect_idle (hidle s (List.mem_of_getElem? hk)) heff
  have hswitch := effect_switch hirq (hidle s (List.mem_of_getElem? hk)) heff
  have hcount := countP_replace hk s'
  have hlast : Leaves s x.2 → rtOn s' = false →
      ((dev.subdevices.set x.1 s').countP rtOn = 0 ↔ LastToLeave dev x) := by
    intro hleaves hoff
    rw [last_iff hk hoff]
    constructor
    · intro h t ht _
      exact h
    · intro h
      exact h s hk hleaves
  have hstays : ¬ Leaves s x.2 → LastToLeave dev x := by
    intro hno t ht hleaves
    rw [hk] at ht
    cases ht
    exact absurd hleaves hno
  unfold rtCount at hrt
  cases hswitch with
  | keep s' hp hflag =>
    rw [hflag] at hcount
    have heq := Nat.add_right_cancel hcount
    refine ⟨⟨⟨it, hirq, ?_, hheld⟩, hidle'⟩, fun hrec => iff_of_true hrec (hstays hp)⟩
    rw [rtCount]
    change dev.board.rt = _
    rw [hrt, ← heq]
    rfl
  | up s' hp hoff hon =>
    rw [hoff, hon, if_neg Bool.false_ne_true, if_pos rfl] at hcount
    obtain ⟨it', hirq', hrt', hheld', hrec'⟩ := switchToRt_up hirq hheld (hrt ▸ Int.natCast_nonneg _)
    have hpos : 0 < dev.board.rt + 1 := by omega
    refine ⟨⟨⟨it', hirq', ?_, ?_⟩, hidle'⟩, fun _ => iff_of_true ?_ (hstays hp)⟩
    · change (comediSwitchToRt dev.board).2.rt = ((dev.subdevices.set x.1 s').countP rtOn : Nat)
      rw [hrt', hrt]
      omega
    · exact iff_of_true hheld' (hrt' ▸ hpos)
    · intro it hit
      cases hirq'.symm.trans hit
      exact ⟨iff_of_true hrec' (hrt' ▸ hpos), hrec'.trans hheld'.symm⟩
  | down s' hp hon hoff =>
    rw [hoff, hon, if_neg Bool.false_ne_true, if_pos rfl] at hcount
    have hnext : dev.board.rt - 1 = ((dev.subdevices.set x.1 s').countP rtOn : Nat) := by omega
    obtain ⟨it', hirq', hrt', hheld', hrec'⟩ := switchToNonRt_down hirq
      (fun hne => hheld.mpr (by omega)) hnext
    refine ⟨⟨⟨it', hirq', hrt', hheld'⟩, hidle'⟩, fun _ => ?_⟩
    exact (recorded_iff_zero hirq' hrt' hheld' hrec').trans (hlast hp hoff)
  | upDown s' hp hoff hoff' =>
    rw [hoff, hoff'] at hcount
    have heq := Nat.add_right_cancel hcount
    obtain ⟨it₁, hirq₁, hrt₁, hheld₁, -⟩ :=
      switchToRt_up hirq hheld (hrt ▸ Int.natCast_nonneg _)
    have hnext : (comediSwitchToRt dev.board).2.rt - 1 =
        ((dev.subdevices.set x.1 s').countP rtOn : Nat) := by
      rw [hrt₁, heq]
      omega
    obtain ⟨it', hirq', hrt', hheld', hrec'⟩ := switchToNonRt_down hirq₁ (fun _ => hheld₁) hnext
    refine ⟨⟨⟨it', hirq', hrt', hheld'⟩, hidle'⟩, fun _ => ?_⟩
    exact (recorded_iff_zero hirq' hrt' hheld' hrec').trans (hlast hp hoff')

/-- In every run of commands on a device with an interrupt, real time is counted right and the
interrupt is held exactly while it is counted. -/
theorem rt_counted (h : Attached dev) {steps : List (Nat × RtAction)}
    (hrun : run rtStep dev steps = .ok dev') : Counted dev' := by
  have hfit : AllFit rtStep (fun _ _ => True) dev steps :=
    AllFit.of_forall (fun _ _ _ => trivial) dev
  have hstep : ∀ st x st', Sound st → True → rtStep st x = .ok st' → Sound st' :=
    fun st x st' hs _ hst => (rtStep_counted hs hst).1
  exact (run_keeps Sound hstep h.sound hfit hrun).1

/-- Where no subdevice leaves real time before the last, the record of the interrupt is right
as well. -/
theorem rt_recorded (h : Attached dev) {steps : List (Nat × RtAction)}
    (hrun : run rtStep dev steps = .ok dev') (hfit : AllFit rtStep LastToLeave dev steps) :
    Counted dev' ∧ Recorded dev' := by
  have hkeep : ∀ st x st', Sound st ∧ Recorded st → LastToLeave st x → rtStep st x = .ok st' →
      Sound st' ∧ Recorded st' := by
    intro st x st' hst hx hstep
    obtain ⟨hs, hrec⟩ := rtStep_counted hst.1 hstep
    exact ⟨hs, (hrec hst.2).mpr hx⟩
  obtain ⟨hs, hrec⟩ := run_keeps (fun st => Sound st ∧ Recorded st) hkeep ⟨h.sound, h.recorded⟩
    hfit hrun
  exact ⟨hs.1, hrec⟩

/-- Two subdevices for commands on a board with an interrupt. -/
def twoInputs : Device where
  board := { irq := some {} }
  subdevices := [{ async := some {} }, { async := some {} }]

theorem twoInputs_attached : Attached twoInputs where
  rt := rfl
  irq := rfl
  idle := by decide

/-- A command that is ended before two others are started. -/
theorem rt_recorded_twoInputs :
    ∃ dev', run rtStep twoInputs
        [(0, .kernelCommand {} {}), (0, .kernelCancel {}), (0, .kernelCommand {} {}),
          (1, .kernelCommand {} {})] = .ok dev' ∧
      dev'.board.rt = 2 ∧ Counted dev' ∧ Recorded dev' := by
  obtain ⟨dev', hrun, hrt⟩ : ∃ dev', run rtStep twoInputs
      [(0, .kernelCommand {} {}), (0, .kernelCancel {}), (0, .kernelCommand {} {}),
        (1, .kernelCommand {} {})] = .ok dev' ∧ dev'.board.rt = 2 := ⟨_, rfl, rfl⟩
  refine ⟨dev', hrun, hrt, rt_recorded twoInputs_attached hrun ?_⟩
  refine .cons (fun _ _ h => h.elim) rfl (.cons ?_ rfl (.cons (fun _ _ h => h.elim) rfl
    (.cons (fun _ _ h => h.elim) rfl trivial)))
  intro s _ _ j t hj ht
  match j with
  | 0 => exact absurd rfl hj
  | 1 =>
    cases ht
    decide
  | j + 2 => cases ht

/-- Once the first of two real-time commands has ended, the record of the interrupt says that
it is not held while it is, and `comedi_free_irq` would not give it back. -/
theorem first_of_two_ends :
    ¬ ∀ (dev : Device) (steps : List (Nat × RtAction)) (dev' : Device), Attached dev →
      run rtStep dev steps = .ok dev' → Counted dev' ∧ Recorded dev' := by
  intro h
  have hrec := (h twoInputs
    [(0, .kernelCommand {} {}), (1, .kernelCommand {} {}), (1, .kernelCancel {})] _
    twoInputs_attached rfl).2
  have hflag := (hrec { rt := false, held := true } rfl).2
  cases hflag

end Comedi.RealTime
