import Comedi.DeviceSteps
import Comedi.RequestEffects

namespace Comedi.LifeCycle

open AsyncBuffer RunState Requests Instructions ReadWrite Bufinfo CommandSteps RequestEffects
open DeviceSteps GuardedRuns

/-- What a driver does to the buffer of a running command. -/
structure DriverUse where
  run : Async → Async
  stirs : ∀ a, Stirs a (run a)

inductive LifeStep where
  | cmd (req : CmdReq) (file : File)
  | cancel (ans : Answer) (file : File)
  | bufinfo (bi : Info) (file : File) (copyTo : Bool)
  | readEnter (call : IoCall)
  | readWake (call : IoCall) (signal : Bool)
  | readRelease
  | readPost (ret : Int)
  | writeEnter (call : IoCall) (data : List Byte)
  | writeWake (call : IoCall) (data : List Byte) (signal : Bool)
  | writeRelease
  | close (ans : Answer) (file : File)
  | insn (req : InsnReq) (data : Nat → U32) (file : File)
  | inttrig (x : U32) (ans : Answer)
  | lock (file : File)
  | unlock (file : File)
  | driver (f : DriverUse)
  | event (events : U32)

def wakeEffect (call : IoCall) (signal : Bool) : Effect := fun b s => do
  let (_, _, s) ← readWake s call signal
  return (b, s, [])

def writeWakeEffect (call : IoCall) (data : List Byte) (signal : Bool) : Effect := fun b s => do
  let (_, s) ← writeWake s call data signal
  return (b, s, [])

def driverEffect (f : DriverUse) : Effect := fun b s =>
  .ok (b, if s.runflags &&& srfRunning ≠ 0 then { s with async := s.async.map f.run } else s, [])

def raised (s : Subdevice) (events : U32) : Subdevice :=
  { s with async := s.async.map fun a => raiseEvents a events }

def LifeStep.effect : LifeStep → Effect
  | .cmd req file => fun b s => .ok (doCmdIoctl b s req file).2
  | .cancel ans file => fun b s => .ok (doCancelIoctl b s ans file).2
  | .bufinfo bi file copyTo => bufinfoEffect bi file copyTo
  | .readEnter call => readEffect call
  | .readWake call signal => wakeEffect call signal
  | .readRelease => fun b s => .ok (ReadWrite.readRelease b s).2
  | .readPost ret => fun b s => .ok (ReadWrite.readPost b s ret).2
  | .writeEnter call data => writeEffect call data
  | .writeWake call data signal => writeWakeEffect call data signal
  | .writeRelease => fun b s => .ok (ReadWrite.writeRelease b s).2
  | .close ans file => fun b s => .ok (closeSubdevice b s ans file)
  | .insn req data file => fun b s => .ok (b, (subdeviceInsn s req data file).2.2)
  | .inttrig x ans => fun b s => .ok (b, (inttrigInsn s x ans).2)
  | .lock file => fun b s => .ok (b, (doLockIoctl s file).2, [])
  | .unlock file => fun b s => .ok (b, (doUnlockIoctl s file).2, [])
  | .driver f => driverEffect f
  | .event events => fun b s => .ok (b, comediEvent b (raised s events))

/-- A subdevice and what it has seen: the file for which `do_cmd` was called last, and for each
step the owner that the step found and the calls that it made. -/
structure Life where
  board : Board := {}
  sub : Subdevice
  issuer : Option File := none
  log : List (Option Owner × List Call) := []

/-- The file for which `do_cmd` was called last, after a step that made the given calls. -/
def issuerAfter (x : LifeStep) (calls : List Call) (issuer : Option File) : Option File :=
  match x with
  | .cmd _ file => if calls.any Call.isDoCmd then some file else issuer
  | _ => issuer

def lifeStep (st : Life) (x : LifeStep) : Result Life := do
  let (b, s, calls) ← x.effect st.board st.sub
  return { board := b
           sub := s
           issuer := issuerAfter x calls st.issuer
           log := st.log ++ [(st.sub.busy, calls)] }

/-- No `COMEDI_BUFINFO` writes into the buffer that its reading part has given back. -/
def LifeFits (st : Life) : LifeStep → Prop
  | .bufinfo bi file _ =>
    ¬ (st.sub.lockedOut file = false ∧ st.sub.busy = some (.file file) ∧ WritesFreed st.sub bi)
  | _ => True

/-- A subdevice that nobody has used yet. -/
structure Untouched (s : Subdevice) : Prop where
  busy : s.busy = none
  running : s.runflags &&& srfRunning = 0
  async : ∀ a, s.async = some a → AtRest a ∧ a.chanlistAllocs = 0

/-- The subdevice between two steps. -/
structure Orderly (s : Subdevice) (issuer : Option File) : Prop where
  running : s.runflags &&& srfRunning ≠ 0 →
    ∃ file, issuer = some file ∧ s.busy = some (.file file)
  idle : s.busy = none →
    s.runflags &&& srfRunning = 0 ∧ ∀ a, s.async = some a → AtRest a ∧ a.chanlistAllocs = 0
  held : s.busy ≠ none → ∀ a, s.async = some a →
    (∃ entries, a.cmd.chanlist = .kernel entries) ∧ a.chanlistAllocs = 1

/-- `do_cmd` was called on a free subdevice for commands that had passed every test. -/
def Vetted (log : List (Option Owner × List Call)) : Prop :=
  ∀ e ∈ log, Tested e.2 ∧ ((∃ s, .doCmd s ∈ e.2) → e.1 = none)

variable {s s' : Subdevice} {issuer : Option File} {b b' : Board} {a a' : Async} {file : File}
  {ans : Answer} {calls : List Call}

theorem Untouched.orderly (h : Untouched s) : Orderly s issuer :=
  ⟨fun hr => absurd h.running hr, fun _ => ⟨h.running, h.async⟩, fun hb => absurd h.busy hb⟩

theorem Orderly.busy_of_running (h : Orderly s issuer) (hr : s.runflags &&& srfRunning ≠ 0) :
    s.busy ≠ none := by
  obtain ⟨file, -, hb⟩ := h.running hr
  rw [hb]
  exact Option.some_ne_none _

/-- Using the buffer of a command that has an owner. -/
theorem Orderly.stirred (h : Orderly s issuer) (hb : s.busy ≠ none) (hs : Stirred s s') :
    Orderly s' issuer := by
  obtain ⟨a, a', hs, hst⟩ := hs
  refine ⟨h.running, fun hn => absurd hn hb, fun _ a₁ ha₁ => ?_⟩
  cases ha₁
  obtain ⟨⟨entries, he⟩, hone⟩ := h.held hb a hs
  exact ⟨⟨entries, by rw [hst.cmd, he]⟩, by rw [hst.chanlistAllocs, hone]⟩

/-- Giving the subdevice back, be it busy or not. -/
theorem Orderly.released (h : Orderly s issuer) : Orderly (released s) issuer := by
  refine ⟨fun hr => absurd (released_running s) hr, fun _ => ⟨released_running s, ?_⟩,
    fun hb => absurd rfl hb⟩
  intro a' ha'
  obtain ⟨a, ha, rfl⟩ := Option.map_eq_some_iff.mp ha'
  refine ⟨idleAsync_atRest a, ?_⟩
  by_cases hb : s.busy = none
  · obtain ⟨hrest, hzero⟩ := (h.idle hb).2 a ha
    simp only [idleAsync, freeChanlist, comediResetAsyncBuf, hrest.chanlist, hzero]
  · obtain ⟨⟨entries, he⟩, hone⟩ := h.held hb a ha
    rw [idleAsync_chanlistAllocs he, hone]

theorem Orderly.io (h : Orderly s issuer) (hs : IoEffect s file s') : Orderly s' issuer := by
  cases hs with
  | nothing => exact h
  | used s' hb hs => exact h.stirred (by rw [hb]; exact Option.some_ne_none _) hs

theorem Orderly.bufinfo {bi : Info} (h : Orderly s issuer) (hs : BufinfoEffect s bi file s')
    (hfit : ¬ (s.lockedOut file = false ∧ s.busy = some (.file file) ∧ WritesFreed s bi)) :
    Orderly s' issuer := by
  cases hs with
  | nothing => exact h
  | used s' hb hl hs => exact h.stirred (by rw [hb]; exact Option.some_ne_none _) hs
  | freed s' hb hl hf hs => exact (h.stirred (by rw [hb]; exact Option.some_ne_none _) hs).released
  | usedFreed s' hb hl hw hs => exact absurd ⟨hl, hb, hw⟩ hfit

theorem Orderly.doCancel (h : Orderly s issuer) : Orderly (doCancel b s ans).2.2.1 issuer := by
  rw [doCancel_released]
  exact h.released

theorem Orderly.of_lock {lock : Option Owner} (h : Orderly s issuer) :
    Orderly { s with lock := lock } issuer :=
  ⟨h.running, h.idle, h.held⟩

theorem Orderly.cmd {req : CmdReq} (h : Orderly s issuer) (hs : CmdEffect s file calls s') :
    Orderly s' (issuerAfter (.cmd req file) calls issuer) := by
  cases hs with
  | refused => exact h
  | noMemory a a' hs hb ha hc =>
    obtain ⟨hrun, hasync⟩ := h.idle hb
    refine ⟨fun hr => absurd hrun hr, fun _ => ⟨hrun, fun a₁ ha₁ => ?_⟩, fun hn => absurd hb hn⟩
    cases ha₁
    obtain ⟨hrest, hzero⟩ := hasync a hs
    rw [ha]
    exact ⟨⟨hrest.writeCount, hrest.writeAllocCount, hrest.readCount, hrest.readAllocCount,
      hrest.mungeCount, hrest.writePtr, hrest.readPtr, hrest.mungePtr, hrest.mungeChan,
      hrest.inttrig, hc⟩, hzero⟩
  | failed a a' r calls hs hb ha hc =>
    have hrun : r &&& ~~~(srfRunning ||| srfRt) &&& srfRunning = 0 := BitFlags.cleared (by decide)
    refine ⟨fun hr => absurd hrun hr, fun _ => ⟨hrun, fun a₁ ha₁ => ?_⟩, fun hn => absurd rfl hn⟩
    cases ha₁
    exact ⟨ha.atRest, by rw [ha.chanlistAllocs, ((h.idle hb).2 a hs).2]⟩
  | started a a' r s₀ cmd hs hb hl ha hr he hc =>
    refine ⟨fun _ => ⟨file, rfl, rfl⟩, nofun, fun _ a₁ ha₁ => ?_⟩
    cases ha₁
    obtain ⟨entries, hchan, -⟩ := ha.ready.chanlist
    exact ⟨⟨entries, hchan⟩, by rw [ha.chanlistAllocs, ((h.idle hb).2 a hs).2]⟩

theorem Orderly.cancel (h : Orderly s issuer) (b : Board) (ans : Answer) (file : File) :
    Orderly (doCancelIoctl b s ans file).2.2.1 issuer := by
  rcases doCancelIoctl_cases b s ans file with he | ⟨-, -, he⟩ <;> rw [he]
  · exact h
  · exact h.released

theorem Orderly.close (h : Orderly s issuer) (b : Board) (ans : Answer) (file : File) :
    Orderly (closeSubdevice b s ans file).2.1 issuer := by
  unfold closeSubdevice
  by_cases hb : s.busy = some (.file file)
  · simp only [if_pos hb]
    split
    · exact h.doCancel.of_lock
    · exact h.doCancel
  · simp only [if_neg hb]
    split
    · exact h.of_lock
    · exact h

theorem Orderly.subdeviceInsn (h : Orderly s issuer) (req : InsnReq) (data : Nat → U32)
    (file : File) :
    Orderly (subdeviceInsn s req data file).2.2.1 issuer := by
  unfold Instructions.subdeviceInsn
  split
  · exact h
  split
  · exact h
  split
  · exact h
  split
  · exact h
  · next hb =>
    rw [Option.not_isSome_iff_eq_none] at hb
    have hs : { s with busy := none } = s := by rw [← hb]
    rw [hs]
    exact h

/-- A trigger is armed only while there is a command. -/
theorem Orderly.inttrigInsn (h : Orderly s issuer) (x : U32) (ans : Answer) :
    Orderly (inttrigInsn s x ans).2.1 issuer := by
  unfold Instructions.inttrigInsn
  split
  · exact h
  next a ha =>
  split
  · exact h
  next fn hfn =>
  have hb : s.busy ≠ none := fun hb => by
    have := ((h.idle hb).2 a ha).1.inttrig
    rw [hfn] at this
    cases this
  refine ⟨h.running, fun hn => absurd hn hb, fun _ a₁ ha₁ => ?_⟩
  obtain ⟨a₂, ha₂, rfl⟩ := Option.map_eq_some_iff.mp ha₁
  exact h.held hb a₂ ha₂

theorem Orderly.lock (h : Orderly s issuer) : Orderly (doLockIoctl s file).2 issuer := by
  unfold doLockIoctl
  split
  · exact h
  · exact h.of_lock

theorem Orderly.unlock (h : Orderly s issuer) : Orderly (doUnlockIoctl s file).2 issuer := by
  unfold doUnlockIoctl
  split
  · exact h
  split
  · exact h
  split
  · exact h.of_lock
  · exact h

theorem Orderly.driver (h : Orderly s issuer) (f : DriverUse)
    (hr : s.runflags &&& srfRunning ≠ 0) :
    Orderly { s with async := s.async.map f.run } issuer := by
  cases hs : s.async with
  | none => exact ⟨h.running, fun hn => absurd hn (h.busy_of_running hr), fun _ a ha => by cases ha⟩
  | some a => exact h.stirred (h.busy_of_running hr) ⟨a, f.run a, hs, f.stirs a⟩

/-- Events stay pending, or are handled, and handling them can only stop the command. -/
theorem Orderly.event (h : Orderly s issuer) (events : U32) :
    Orderly (comediEvent b (raised s events)).1 issuer := by
  cases hs : s.async with
  | none =>
    have hr : raised s events = s := by rw [raised, hs, Option.map_none, ← hs]
    rw [hr, comediEvent, hs]
    exact h
  | some a =>
    have hraised : (raised s events).async = some (raiseEvents a events) := by
      simp only [raised, hs, Option.map_some]
    have hkeep : ∀ (r e : U32), (r &&& srfRunning ≠ 0 → s.runflags &&& srfRunning ≠ 0) →
        Orderly { s with runflags := r, async := some { a with events := e } } issuer := by
      intro r e hr
      refine ⟨fun h' => h.running (hr h'), fun hb => ⟨?_, fun a₁ ha₁ => ?_⟩, fun hb a₁ ha₁ => ?_⟩
      · by_contra hn
        exact hr hn (h.idle hb).1
      · cases ha₁
        obtain ⟨hrest, hzero⟩ := (h.idle hb).2 a hs
        exact ⟨⟨hrest.writeCount, hrest.writeAllocCount, hrest.readCount, hrest.readAllocCount,
          hrest.mungeCount, hrest.writePtr, hrest.readPtr, hrest.mungePtr, hrest.mungeChan,
          hrest.inttrig, hrest.chanlist⟩, hzero⟩
      · cases ha₁
        exact h.held hb a hs
    unfold comediEvent
    rw [hraised]
    dsimp only
    split
    · have hr : raised s events =
          { s with runflags := s.runflags, async := some { a with events := a.events ||| events } } := by
        simp only [raised, hs, Option.map_some, raiseEvents]
      rw [hr]
      exact hkeep _ _ id
    · next hrun => exact hkeep _ 0 fun _ => hrun

/-- A command has been set up and has not ended. -/
def Running (s : Subdevice) : Prop := s.runflags &&& srfRunning ≠ 0

theorem orderly_not_running (h : Orderly s issuer) (hb : s.busy = none) : ¬ Running s := by
  unfold Running
  rw [(h.idle hb).1]
  exact fun hne => hne rfl

/-- A command that runs after a request that did not start one is the one that ran before. -/
theorem running_short (h : Orderly s issuer) {calls : List Call} (he : CmdEffect s file calls s')
    (hidle : s'.busy = s.busy) (hr : Running s') : s' = s := by
  cases he with
  | refused => rfl
  | noMemory a a' hs hb ha hc => exact absurd (h.idle hb).1 hr
  | failed a a' r calls hs hb ha hc => exact absurd (BitFlags.cleared (by decide)) hr
  | started a a' r s₀ cmd hs hb hl ha hr he hc =>
    rw [hb] at hidle
    cases hidle

theorem running_cancel {ans : Answer} (hr : Running (doCancelIoctl b s ans file).2.2.1) :
    (doCancelIoctl b s ans file).2.2.1 = s := by
  obtain he | ⟨-, -, he⟩ := doCancelIoctl_cases b s ans file
  · exact he
  · rw [he] at hr
    exact absurd (released_running s) hr

theorem not_running_release : ¬ Running (doBecomeNonbusy b s).2 := by
  rw [doBecomeNonbusy_released]
  exact fun hr => hr (released_running s)

/-- None of the calls is one of `do_cmd`. -/
def Quiet (calls : List Call) : Prop := ∀ s, .doCmd s ∉ calls

theorem quiet_nil : Quiet [] := fun _ hm => nomatch hm

theorem doCancel_quiet (b : Board) (s : Subdevice) (ans : Answer) :
    Quiet (doCancel b s ans).2.2.2 := by
  intro s' hm
  unfold doCancel at hm
  split at hm <;> simp at hm

theorem doCancelIoctl_quiet (b : Board) (s : Subdevice) (ans : Answer) (file : File) :
    Quiet (doCancelIoctl b s ans file).2.2.2 := by
  unfold doCancelIoctl
  split
  · exact quiet_nil
  split
  · exact quiet_nil
  split
  · exact quiet_nil
  split
  · exact quiet_nil
  · intro s' hm
    rcases List.mem_append.mp hm with hm | hm
    · exact doCancel_quiet b s ans s' hm
    · split at hm <;> simp at hm

theorem closeSubdevice_quiet (b : Board) (s : Subdevice) (ans : Answer) (file : File) :
    Quiet (closeSubdevice b s ans file).2.2 := by
  unfold closeSubdevice
  by_cases hb : s.busy = some (.file file)
  · simp only [if_pos hb]
    exact doCancel_quiet b s ans
  · simp only [if_neg hb]
    exact quiet_nil

theorem insnRwEmulateBits_quiet (s : Subdevice) (insn : Insn) (ans : InsnAnswer)
    (data : Nat → U32) : Quiet (insnRwEmulateBits s insn ans data).2.2 := by
  intro s' hm
  unfold insnRwEmulateBits at hm
  dsimp only at hm
  repeat' split at hm
  all_goals simp at hm

theorem callRw_quiet (handler : InsnHandler) {call : Call} (hc : call.isDoCmd = false)
    (s : Subdevice) (insn : Insn) (ans : InsnAnswer) (data : Nat → U32) :
    Quiet (callRw handler call s insn ans data).2.2 := by
  cases handler with
  | driver =>
    intro s' hm
    rw [← List.mem_singleton.mp hm] at hc
    cases hc
  | emulateBits => exact insnRwEmulateBits_quiet s insn ans data
  | inval => exact quiet_nil

theorem runInsn_quiet (s : Subdevice) (req : InsnReq) (data : Nat → U32) :
    Quiet (runInsn s req data).2.2 := by
  unfold runInsn
  dsimp only
  split
  · exact callRw_quiet _ rfl s _ _ _
  split
  · split
    · exact quiet_nil
    · exact callRw_quiet _ rfl s _ _ _
  split
  · unfold bitsInsn callBits
    split
    · exact quiet_nil
    · intro s' hm
      dsimp only at hm
      split at hm <;> simp at hm
  split
  · unfold callConfig
    split
    · exact quiet_nil
    · intro s' hm
      split at hm <;> simp at hm
  · exact quiet_nil

theorem subdeviceInsn_quiet (s : Subdevice) (req : InsnReq) (data : Nat → U32) (file : File) :
    Quiet (subdeviceInsn s req data file).2.2.2 := by
  unfold Instructions.subdeviceInsn
  split
  · exact quiet_nil
  split
  · exact quiet_nil
  split
  · exact quiet_nil
  split
  · exact quiet_nil
  · exact runInsn_quiet _ req data

theorem inttrigInsn_quiet (s : Subdevice) (x : U32) (ans : Answer) :
    Quiet (inttrigInsn s x ans).2.2 := by
  intro s' hm
  unfold Instructions.inttrigInsn at hm
  split at hm
  · simp at hm
  · split at hm <;> simp at hm

theorem wakeCalls_quiet (s : Subdevice) (b : Board) : Quiet (wakeCalls s b) := by
  intro s' hm
  unfold wakeCalls at hm
  split at hm
  · simp at hm
  rcases List.mem_append.mp hm with hm | hm
  · rcases List.mem_append.mp hm with hm | hm
    · simp at hm
    · split at hm <;> simp at hm
  · split at hm <;> simp at hm

theorem eventCalls_quiet (b : Board) (a : Async) (s : Subdevice) : Quiet
    (if a.cbMask &&& a.events = 0 then []
    else if s.runflags &&& srfUser ≠ 0 then wakeCalls s b
    else match a.cbFunc with
      | none => []
      | some fn => [.cbFunc fn a.events]) := by
  split
  · exact quiet_nil
  split
  · exact wakeCalls_quiet s b
  split
  · exact quiet_nil
  · intro s' hm
    simp at hm

theorem comediEvent_quiet (b : Board) (s : Subdevice) : Quiet (comediEvent b s).2 := by
  unfold comediEvent
  split
  · exact quiet_nil
  next a _ =>
  split
  · exact quiet_nil
  exact eventCalls_quiet b a _

theorem readPost_quiet (b : Board) (s : Subdevice) (ret : Int) :
    Quiet (readPost b s ret).2.2.2 := by
  unfold readPost
  split
  · exact quiet_nil
  split
  · exact becomeNonbusy_quiet _ _
  · exact quiet_nil

/-- Every step keeps the subdevice in order, and tests what it gives to the driver. -/
theorem effect_orderly {x : LifeStep} {st : Life} (h : Orderly st.sub st.issuer)
    (hfit : LifeFits st x) (hx : x.effect st.board st.sub = .ok (b', s', calls)) :
    Orderly s' (issuerAfter x calls st.issuer) ∧
      Tested calls ∧ ((∃ s, .doCmd s ∈ calls) → st.sub.busy = none) := by
  have hquiet : Quiet calls → Tested calls ∧ ((∃ s, .doCmd s ∈ calls) → st.sub.busy = none) :=
    fun hq => ⟨.inl hq, fun ⟨s, hm⟩ => absurd hm (hq s)⟩
  cases x with
  | cmd req file =>
    have he := doCmdIoctl_effect st.board st.sub req file
    injection hx with hx
    rw [hx] at he
    refine ⟨h.cmd he, ?_⟩
    cases he with
    | refused => exact hquiet quiet_nil
    | noMemory a a' hs hb ha hc => exact hquiet quiet_nil
    | failed a a' r calls hs hb ha hc => exact ⟨hc, fun _ => hb⟩
    | started a a' r s₀ cmd hs hb hl ha hr he hc => exact ⟨hc, fun _ => hb⟩
  | cancel ans file =>
    have ho := h.cancel st.board ans file
    have hq := doCancelIoctl_quiet st.board st.sub ans file
    injection hx with hx
    rw [hx] at ho hq
    exact ⟨ho, hquiet hq⟩
  | bufinfo bi file copyTo =>
    obtain ⟨⟨ret, out, b₁, s₁⟩, hb, hx⟩ := bind_eq_ok hx
    cases hx
    exact ⟨h.bufinfo (doBufinfoIoctl_effect hb) hfit, hquiet quiet_nil⟩
  | readEnter call =>
    obtain ⟨⟨pc, bytes, s₁⟩, hb, hx⟩ := bind_eq_ok hx
    cases hx
    exact ⟨h.io (readEnter_effect hb), hquiet quiet_nil⟩
  | readWake call signal =>
    obtain ⟨⟨pc, bytes, s₁⟩, hb, hx⟩ := bind_eq_ok hx
    cases hx
    exact ⟨h.io (readWake_effect hb), hquiet quiet_nil⟩
  | readRelease =>
    have hq : Quiet (ReadWrite.readRelease st.board st.sub).2.2.2 := becomeNonbusy_quiet _ _
    have he := readRelease_released st.board st.sub
    injection hx with hx
    rw [hx] at he hq
    obtain rfl : s' = released st.sub := he
    exact ⟨h.released, hquiet hq⟩
  | readPost ret =>
    have hq := readPost_quiet st.board st.sub ret
    have he := readPost_effect st.board st.sub ret
    injection hx with hx
    rw [hx] at he hq
    obtain rfl | rfl : s' = st.sub ∨ s' = released st.sub := he
    · exact ⟨h, hquiet hq⟩
    · exact ⟨h.released, hquiet hq⟩
  | writeEnter call data =>
    obtain ⟨⟨pc, s₁⟩, hb, hx⟩ := bind_eq_ok hx
    cases hx
    exact ⟨h.io (writeEnter_effect hb), hquiet quiet_nil⟩
  | writeWake call data signal =>
    obtain ⟨⟨pc, s₁⟩, hb, hx⟩ := bind_eq_ok hx
    cases hx
    exact ⟨h.io (writeWake_effect hb), hquiet quiet_nil⟩
  | writeRelease =>
    have hq : Quiet (ReadWrite.writeRelease st.board st.sub).2.2.2 := becomeNonbusy_quiet _ _
    have he := writeRelease_released st.board st.sub
    injection hx with hx
    rw [hx] at he hq
    obtain rfl : s' = released st.sub := he
    exact ⟨h.released, hquiet hq⟩
  | close ans file =>
    have ho := h.close st.board ans file
    have hq := closeSubdevice_quiet st.board st.sub ans file
    injection hx with hx
    rw [hx] at ho hq
    exact ⟨ho, hquiet hq⟩
  | insn req data file =>
    have ho := h.subdeviceInsn req data file
    have hq := subdeviceInsn_quiet st.sub req data file
    injection hx with hx
    injection hx with _ hx
    rw [hx] at ho hq
    exact ⟨ho, hquiet hq⟩
  | inttrig x ans =>
    have ho := h.inttrigInsn x ans
    have hq := inttrigInsn_quiet st.sub x ans
    injection hx with hx
    injection hx with _ hx
    rw [hx] at ho hq
    exact ⟨ho, hquiet hq⟩
  | lock file =>
    cases hx
    exact ⟨h.lock, hquiet quiet_nil⟩
  | unlock file =>
    cases hx
    exact ⟨h.unlock, hquiet quiet_nil⟩
  | driver f =>
    cases hx
    refine ⟨?_, hquiet quiet_nil⟩
    change Orderly (if st.sub.runflags &&& srfRunning ≠ 0 then _ else _) st.issuer
    split
    · next hr => exact h.driver f hr
    · exact h
  | event events =>
    have ho := h.event (b := st.board) events
    have hq := comediEvent_quiet st.board (raised st.sub events)
    injection hx with hx
    injection hx with _ hx
    rw [hx] at ho hq
    exact ⟨ho, hquiet hq⟩

/-- What is true of a subdevice at every moment of its life. -/
def Sound (st : Life) : Prop := Orderly st.sub st.issuer ∧ Vetted st.log

theorem lifeStep_sound (st : Life) (x : LifeStep) (st' : Life) (h : Sound st) (hfit : LifeFits st x)
    (hx : lifeStep st x = .ok st') : Sound st' := by
  obtain ⟨⟨b, s, calls⟩, he, hx⟩ := bind_eq_ok hx
  cases hx
  obtain ⟨ho, ht⟩ := effect_orderly h.1 hfit he
  refine ⟨ho, fun e hm => ?_⟩
  rcases List.mem_append.mp hm with hm | hm
  · exact h.2 e hm
  · rw [List.mem_singleton.mp hm]
    exact ht

/-- The life of a command, over any run in which no `COMEDI_BUFINFO` writes into the buffer that
its own reading part has given back. -/
theorem life_cycle {b : Board} {s : Subdevice} (hs : Untouched s) {steps : List LifeStep}
    (hfit : AllFit lifeStep LifeFits { board := b, sub := s } steps) {st : Life}
    (hrun : GuardedRuns.run lifeStep { board := b, sub := s } steps = .ok st) :
    Orderly st.sub st.issuer ∧ Vetted st.log :=
  run_keeps Sound lifeStep_sound ⟨hs.orderly, fun _ hm => absurd hm List.not_mem_nil⟩ hfit hrun

/-- A subdevice that takes commands for both directions. -/
def duplex : Subdevice where
  subdevFlags := sdfCmdRead ||| sdfCmdWrite
  nChan := 1
  rangeTable := some { length := 1 }
  async := some { preallocBufsz := 4096 }

/-- A command on one channel that every test lets pass. -/
def plainCmd : CmdReq where
  cmd := { chanlistLen := 1 }
  entries := some fun _ => 0
  test := .accepting

theorem duplex_untouched : Untouched duplex where
  busy := rfl
  running := rfl
  async a ha := by
    cases ha
    exact ⟨⟨rfl, rfl, rfl, rfl, rfl, rfl, rfl, rfl, rfl, rfl, rfl⟩, rfl⟩

def duplexLife (steps : List LifeStep) : Life :=
  match GuardedRuns.run lifeStep { board := {}, sub := duplex } steps with
  | .ok st => st
  | .error _ => { sub := duplex }

/-- A command is started, stops at its end and is given back. -/
def givenBack (bi : Info) : List LifeStep :=
  [.cmd plainCmd 0, .event comediCbEoa, .bufinfo bi 0 true]

theorem life_cycle_duplex :
    Orderly (duplexLife (givenBack {})).sub (duplexLife (givenBack {})).issuer ∧
      Vetted (duplexLife (givenBack {})).log := by
  refine @life_cycle {} duplex duplex_untouched (givenBack {}) (.of_forall (fun x hx st => ?_) _)
    (duplexLife (givenBack {})) rfl
  simp only [givenBack, List.mem_cons, List.not_mem_nil, or_false] at hx
  rcases hx with rfl | rfl | rfl
  · trivial
  · trivial
  · exact fun h => h.2.2.2.2 rfl

/-- With bytes written in the last request the subdevice is free and its ring is not empty. -/
theorem written_after_release :
    let st := duplexLife (givenBack { bytesWritten := 2 })
    GuardedRuns.run lifeStep { board := {}, sub := duplex } (givenBack { bytesWritten := 2 }) = .ok st ∧
      st.sub.busy = none ∧ st.sub.async.map (·.bufWriteCount) = some 2 ∧
      ¬ Orderly st.sub st.issuer := by
  refine ⟨rfl, rfl, rfl, fun h => ?_⟩
  have hw : (duplexLife (givenBack { bytesWritten := 2 })).sub.async.map (·.bufWriteCount) = some 2 := rfl
  obtain ⟨a, ha, he⟩ := Option.map_eq_some_iff.mp hw
  rw [((h.idle rfl).2 a ha).1.writeCount] at he
  exact absurd he (by decide)

end Comedi.LifeCycle
