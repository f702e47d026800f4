import Comedi.CommandStarts
import Comedi.LifeCycle

namespace Comedi.CommandEnds

open AsyncBuffer RunState Requests CommandSteps CommandStarts LifeCycle

/-- `comedi_event`, if it was called. -/
def afterEvents (b : Board) (s : Subdevice) : Option U32 → Subdevice
  | none => s
  | some events => (comediEvent b (raised s events)).1

def pending (s : Subdevice) : U32 :=
  match s.async with
  | none => 0
  | some a => a.events

def commandOf (s : Subdevice) : Cmd := (cmdOf s).getD {}

def callsCancel (calls : List Call) : Bool :=
  calls.any fun
    | .cancel => true
    | _ => false

def release (b : Board) (s : Subdevice) : Board × Subdevice :=
  if s.runflags &&& srfRunning ≠ 0 then (b, s) else doBecomeNonbusy b s

/-- `COMEDI_CANCEL` gets as far as `do_cancel`. -/
def Cancels (s : Subdevice) (file : File) : Prop :=
  s.async.isSome ∧ s.lockedOut file = false ∧ s.busy = some (.file file)

/-- A subdevice whose driver can cancel a command, between two steps. -/
structure Base (s : Subdevice) : Prop where
  orderly : ∃ issuer, Orderly s issuer
  cancel : s.cancel = true
  quiet : Running s → ∃ a, s.async = some a ∧ a.events = 0

variable {s s' : Subdevice} {b : Board} {file : File}

theorem Base.not_running (hb : Base s) (hidle : s.busy = none) : ¬ Running s := by
  obtain ⟨issuer, ho⟩ := hb.orderly
  exact orderly_not_running ho hidle

theorem Base.released (hb : Base s) : Base (released s) := by
  obtain ⟨issuer, ho⟩ := hb.orderly
  exact ⟨⟨issuer, ho.released⟩, hb.cancel, fun hr => absurd (released_running s) hr⟩

theorem Base.cmd {calls : List Call} (hb : Base s) (he : CmdEffect s file calls s')
    (req : CmdReq) : Base s' := by
  obtain ⟨issuer, ho⟩ := hb.orderly
  have ho' : ∃ issuer, Orderly s' issuer := ⟨issuerAfter (.cmd req file) calls issuer, ho.cmd he⟩
  cases he with
  | refused => exact hb
  | noMemory a a' hs hbusy ha hc =>
    exact ⟨ho', hb.cancel, fun hr => absurd (show Running s from hr) (orderly_not_running ho hbusy)⟩
  | failed a a' r calls hs hbusy ha hc =>
    exact ⟨ho', hb.cancel, fun hr => absurd (BitFlags.cleared (by decide)) hr⟩
  | started a a' r s₀ cmd hs hbusy hl ha hr he hc =>
    exact ⟨ho', hb.cancel, fun _ => ⟨a', rfl, (congrArg Async.events ha.reset).symm⟩⟩

section Requested

variable {ε ρ : Type} {start : Cmd → Except ε (Answer × ρ)} {req : CmdReq} {cmd : Cmd}
  {ans : Answer} {left : ρ}

/-- `COMEDI_CMD` ends before the driver is asked: if there is a command, it is the same. -/
theorem Base.unasked (hb : Base s) (start : Cmd → Except ε (Answer × ρ))
    (h : startedCmd (doCmdIoctl b s req file).2.2.2 = none) :
    ∃ r, commandIoctl start b s req file = .ok (none, r) ∧ Base r.2.2.1 ∧
      (Running s ∨ Running r.2.2.1 → r.2.2.1 = s) := by
  obtain ⟨issuer, ho⟩ := hb.orderly
  have he := doCmdIoctl_effect b s req file
  refine ⟨doCmdIoctl b s req file, ?_, hb.cmd he req, ?_⟩
  · unfold commandIoctl
    rw [h]
  · rintro (hr | hr)
    · exact effect_busy he (ho.busy_of_running hr)
    · exact running_short ho he (effect_idle he h).1 hr

/-- The driver has been asked: the command runs exactly if its answer was 0. -/
theorem Base.asked (hb : Base s) (h : startedCmd (doCmdIoctl b s req file).2.2.2 = some cmd)
    (hs : start cmd = .ok (ans, left)) :
    ∃ r, commandIoctl start b s req file = .ok (some left, r) ∧ r.1 = ans.ret ∧ Base r.2.2.1 ∧
      (ans.ret ≠ 0 → ¬ Running r.2.2.1) ∧
      (ans.ret = 0 → Running r.2.2.1 ∧
        ∃ a, r.2.2.1.async = some a ∧ a.cmd = cmd ∧ a.inttrig = ans.inttrig) := by
  have he := doCmdIoctl_effect b s { req with start := ans } file
  refine ⟨doCmdIoctl b s { req with start := ans } file, ?_, ?_⟩
  · unfold commandIoctl
    rw [h]
    dsimp only
    rw [hs]
    rfl
  cases doCmdIoctl_reach b s req file with
  | short r hr hc =>
    rw [show doCmdIoctl b s req file = r from hr req.start, hc] at h
    cases h
  | start a calls hc hq _ hidle hr =>
    have hcmd : a.cmd = cmd := by
      rw [show doCmdIoctl b s req file = _ from hr req.start] at h
      dsimp only at h
      rw [startedCmd_append _ hq, startCmd_calls] at h
      exact Option.some.inj h
    subst hcmd
    have hb' : Base (doCmdIoctl b s { req with start := ans } file).2.2.1 := hb.cmd he req
    rw [hr ans] at hb' ⊢
    by_cases hret : ans.ret = 0
    · obtain ⟨hval, -, hrun, a', ha', hcmd, htrig⟩ :=
        startCmd_started b { s with async := some a } a file hret
      exact ⟨hval.trans hret.symm, hb', fun hn => absurd hret hn,
        fun _ => ⟨hrun, a', ha', hcmd, htrig⟩⟩
    · obtain ⟨hval, s₁, hrel⟩ := startCmd_refused b { s with async := some a } a file hret
      refine ⟨hval, hb', fun _ => ?_, fun h0 => absurd h0 hret⟩
      dsimp only
      rw [hrel]
      exact fun hr => hr (released_running s₁)

end Requested

/-- After `comedi_event` a command runs on unless an event ends it. -/
theorem Base.event (hb : Base s) (b : Board) (events : U32) :
    Base (comediEvent b (raised s events)).1 ∧
      (Running (comediEvent b (raised s events)).1 ↔ Running s ∧ events &&& endMask = 0) := by
  obtain ⟨issuer, ho⟩ := hb.orderly
  have ho' := ho.event (b := b) events
  by_cases hrun : Running s
  · obtain ⟨a, ha, hz⟩ := hb.quiet hrun
    have hraise : (raised s events).async = some { a with events := events } := by
      simp [raised, ha, raiseEvents, hz]
    obtain ⟨r, hr, hr'⟩ := comediEvent_running b hraise hrun
    rw [hr] at ho' ⊢
    refine ⟨⟨⟨issuer, ho'⟩, hb.cancel, fun _ => ⟨_, rfl, rfl⟩⟩, ?_⟩
    unfold Running
    rw [hr']
    by_cases he : events &&& endMask ≠ 0
    · rw [if_pos he]
      exact ⟨fun h => absurd rfl h, fun h => absurd h.2 he⟩
    · rw [if_neg he]
      exact ⟨fun h => ⟨h, not_not.mp he⟩, fun h => h.1⟩
  · have hsame : (comediEvent b (raised s events)).1 = raised s events :=
      comediEvent_stopped b (not_not.mp hrun)
    rw [hsame] at ho' ⊢
    exact ⟨⟨⟨issuer, ho'⟩, hb.cancel, fun h => absurd h hrun⟩, fun h => absurd h hrun,
      fun h => absurd h.1 hrun⟩

theorem Base.setInttrig (h : Base s) {a : Async} {fn : Nat} (ha : s.async = some a)
    (hfn : a.inttrig = some fn) (fn' : Option Nat) : Base (setInttrig s fn') := by
  obtain ⟨issuer, ho⟩ := h.orderly
  have ho' := ho.inttrigInsn 0 ⟨0, fn'⟩
  simp only [Instructions.inttrigInsn, ha, hfn] at ho'
  refine ⟨⟨issuer, ho'⟩, h.cancel, fun hr => ?_⟩
  obtain ⟨a', ha', hz⟩ := h.quiet hr
  exact ⟨{ a' with inttrig := fn' }, by simp [RunState.setInttrig, ha'], hz⟩

theorem pending_zero (h : Base s) (hr : Running s) : pending s &&& endMask = 0 := by
  obtain ⟨a, ha, hz⟩ := h.quiet hr
  rw [pending, ha]
  dsimp only
  rw [hz]
  decide

theorem pending_raised (h : Base s) (hr : Running s) (events : U32) :
    pending (raised s events) = events := by
  obtain ⟨a, ha, hz⟩ := h.quiet hr
  simp [pending, raised, ha, raiseEvents, hz]

theorem raised_quiet {events : U32} (h : pending (raised s events) = 0) : raised s events = s := by
  cases ha : s.async with
  | none => rw [raised, ha, Option.map_none, ← ha]
  | some a =>
    simp only [pending, raised, ha, Option.map_some, raiseEvents] at h
    have hsame : a.events = a.events ||| events := by
      rw [h]
      exact (BitVec.or_eq_zero_iff.mp h).1
    simp only [raised, ha, Option.map_some, raiseEvents]
    rw [← hsame, ← ha]

theorem setInttrig_same {a : Async} {fn : Option Nat} (ha : s.async = some a)
    (hfn : a.inttrig = fn) : setInttrig s fn = s := by
  subst hfn
  have h : s.async.map (fun a' => { a' with inttrig := a.inttrig }) = s.async := by
    rw [ha]
    rfl
  rw [setInttrig, h]

theorem setInttrig_async {fn : Option Nat} {a : Async} (ha : (setInttrig s fn).async = some a) :
    a.inttrig = fn := by
  obtain ⟨a', -, rfl⟩ := Option.map_eq_some_iff.mp ha
  rfl

theorem armed_fn {fn : Nat} (h : s.async.bind (·.inttrig) = some fn) :
    ∃ a, s.async = some a ∧ a.inttrig = some fn := Option.bind_eq_some_iff.mp h

theorem doCancel_calls (b : Board) (hc : s.cancel = true) (hr : Running s) (ans : Answer) :
    callsCancel (doCancel b s ans).2.2.2 = true := by
  unfold doCancel
  rw [if_pos ⟨hr, hc⟩]
  rfl

/-- `COMEDI_CANCEL` changes nothing, or it gives the subdevice up after `s->cancel`. -/
theorem cancel_cases (b : Board) (hc : s.cancel = true) (file : File) :
    (doCancelIoctl b s {} file).2.2.1 = s ∧
        callsCancel (doCancelIoctl b s {} file).2.2.2 = false ∨
      Cancels s file ∧ (doCancelIoctl b s {} file).2.2.1 = released s ∧
        (Running s → callsCancel (doCancelIoctl b s {} file).2.2.2 = true) := by
  unfold doCancelIoctl
  split
  · exact .inl ⟨rfl, rfl⟩
  next hasync =>
  split
  · exact .inl ⟨rfl, rfl⟩
  next hlock =>
  split
  · exact .inl ⟨rfl, rfl⟩
  next o hbusy =>
  split
  · exact .inl ⟨rfl, rfl⟩
  next ho =>
  rw [not_not] at ho
  refine .inr ⟨⟨Option.isSome_iff_ne_none.mpr fun hn => hasync (hn ▸ rfl), by simpa using hlock,
    ho ▸ hbusy⟩, doCancel_released b s {}, fun hr => ?_⟩
  unfold callsCancel
  rw [List.any_append, Bool.or_eq_true]
  exact .inl (doCancel_calls b hc hr {})

theorem close_cases (b : Board) (hc : s.cancel = true) (file : File) :
    (∃ lock, (closeSubdevice b s {} file).2.1 = { s with lock := lock }) ∧
        callsCancel (closeSubdevice b s {} file).2.2 = false ∨
      s.busy = some (.file file) ∧
        (∃ lock, (closeSubdevice b s {} file).2.1 = { released s with lock := lock }) ∧
        (Running s → callsCancel (closeSubdevice b s {} file).2.2 = true) := by
  unfold closeSubdevice
  by_cases hbusy : s.busy = some (.file file)
  · rw [if_pos hbusy]
    refine .inr ⟨hbusy, ?_, fun hr => doCancel_calls b hc hr {}⟩
    dsimp only
    rw [doCancel_released]
    split
    · exact ⟨none, rfl⟩
    · exact ⟨(released s).lock, rfl⟩
  · rw [if_neg hbusy]
    refine .inl ⟨?_, rfl⟩
    dsimp only
    split
    · exact ⟨none, rfl⟩
    · exact ⟨s.lock, rfl⟩

theorem cancel_released (b : Board) (h : Cancels s file) :
    ¬ Running (doCancelIoctl b s {} file).2.2.1 := by
  obtain ⟨hasync, hlock, hbusy⟩ := h
  have hasync' : ¬ s.async.isNone = true := by
    rw [Option.isNone_iff_eq_none]
    exact Option.isSome_iff_ne_none.mp hasync
  unfold doCancelIoctl
  rw [if_neg hasync', hlock, if_neg Bool.false_ne_true, hbusy]
  dsimp only
  rw [if_neg (not_not.mpr rfl)]
  change ¬ Running (doCancel b s {}).2.2.1
  rw [doCancel_released]
  exact fun hr => hr (released_running s)

theorem close_released (b : Board) (h : s.busy = some (.file file)) :
    ¬ Running (closeSubdevice b s {} file).2.1 := by
  unfold closeSubdevice
  rw [if_pos h]
  dsimp only
  rw [doCancel_released]
  split
  · exact fun hr => hr (released_running s)
  · exact fun hr => hr (released_running s)

end Comedi.CommandEnds
