import Comedi.LifeCycle

namespace Comedi.ReadersWriters

open AsyncBuffer RunState Requests ReadWrite ReadSpecs Bufinfo CommandSteps RequestEffects
open WriteSpecs DeviceSteps GuardedRuns

/-- A call of `comedi_read`, or of `comedi_write` with the bytes it writes. -/
inductive Direction where
  | reads
  | writes (data : List Byte)

/-- A call in progress: where it stands, and how often `s->busy` had changed when it last found
its file there. -/
structure Ongoing where
  direction : Direction
  call : IoCall
  pc : Pc
  since : Nat

/-- Calls of any files on one subdevice. `turns` counts the changes of `s->busy`, and `made` is
what the last step called. -/
structure Contest where
  board : Board := {}
  sub : Subdevice
  calls : Nat → Option Ongoing := fun _ => none
  turns : Nat := 0
  made : List Call := []

/-- A call starts, goes on after `schedule()`, or gets the mutex it waits for; a request of a
file is carried out; the driver uses its buffer or signals an event. -/
inductive ContestStep where
  | start (id : Nat) (direction : Direction) (call : IoCall)
  | resume (id : Nat) (signal : Bool)
  | acquire (id : Nat)
  | cmd (req : CmdReq) (file : File)
  | cancel (ans : Answer) (file : File)
  | bufinfo (bi : Info) (file : File) (copyTo : Bool)
  | driver (f : Async → Async)
  | event (events : U32)

/-- The subdevice has become `s`. -/
def Contest.moved (st : Contest) (b : Board) (s : Subdevice) (made : List Call) : Contest :=
  { st with
    board := b
    sub := s
    turns := if s.busy = st.sub.busy then st.turns else st.turns + 1
    made := made }

def Contest.put (st : Contest) (id : Nat) (o : Ongoing) : Contest :=
  { st with calls := Function.update st.calls id (some o) }

def enter (s : Subdevice) (call : IoCall) : Direction → Result (Pc × Subdevice)
  | .reads => do
    let (pc, _, s) ← readEnter s call
    return (pc, s)
  | .writes data => writeEnter s call data

def wake (s : Subdevice) (call : IoCall) (signal : Bool) : Direction → Result (Pc × Subdevice)
  | .reads => do
    let (pc, _, s) ← readWake s call signal
    return (pc, s)
  | .writes data => writeWake s call data signal

/-- What a call does with `dev->mutex`. -/
def withMutex (b : Board) (s : Subdevice) : Direction → Pc → Pc × Board × Subdevice × List Call
  | .reads, .releaseLock => readRelease b s
  | .writes _, .releaseLock => writeRelease b s
  | _, .postLock ret => readPost b s ret
  | _, pc => (pc, b, s, [])

/-- How often `s->busy` has changed when a call that wakes up looks at it, if it does and finds
its file. -/
def sinceWake (st : Contest) (o : Ongoing) (signal : Bool) : Nat :=
  if ¬ signal ∧ st.sub.busy = some (.file o.call.file) then st.turns else o.since

def contestStep (st : Contest) : ContestStep → Result Contest
  | .start id direction call =>
    match st.calls id with
    | some _ => .ok { st with made := [] }
    | none => do
      let (pc, s) ← enter st.sub call direction
      return (st.moved st.board s []).put id ⟨direction, call, pc, st.turns⟩
  | .resume id signal =>
    match st.calls id with
    | none => .ok { st with made := [] }
    | some o =>
      if o.pc = .asleep then do
        let (pc, s) ← wake st.sub o.call signal o.direction
        return (st.moved st.board s []).put id { o with pc := pc, since := sinceWake st o signal }
      else .ok { st with made := [] }
  | .acquire id =>
    match st.calls id with
    | none => .ok { st with made := [] }
    | some o =>
      let (pc, b, s, calls) := withMutex st.board st.sub o.direction o.pc
      .ok ((st.moved b s calls).put id { o with pc := pc })
  | .cmd req file =>
    let (_, b, s, calls) := doCmdIoctl st.board st.sub req file
    .ok (st.moved b s calls)
  | .cancel ans file =>
    let (_, b, s, calls) := doCancelIoctl st.board st.sub ans file
    .ok (st.moved b s calls)
  | .bufinfo bi file copyTo => do
    let (_, _, b, s) ← doBufinfoIoctl st.board st.sub bi file copyTo
    return st.moved b s []
  | .driver f => .ok (st.moved st.board { st.sub with async := st.sub.async.map f } [])
  | .event events =>
    let s := { st.sub with async := st.sub.async.map fun a => raiseEvents a events }
    .ok (st.moved st.board (comediEvent st.board s).1 (comediEvent st.board s).2)

/-- The call whose step it is. -/
def ContestStep.actor (st : Contest) : ContestStep → Option File
  | .start _ _ call => some call.file
  | .resume id _ | .acquire id => (st.calls id).map (·.call.file)
  | _ => none

/-- A call that gets the mutex releases the subdevice only if it still is as the call has found
it, and a running command is cancelled through the driver. -/
def ContestFits (st : Contest) : ContestStep → Prop
  | .acquire id => ∀ o, st.calls id = some o →
      match o.pc with
      | .releaseLock => o.since = st.turns
      | .postLock _ => o.since = st.turns ∨
          ∀ a, st.sub.async = some a → a.bufReadCount - a.bufWriteCount ≠ 0
      | _ => True
  | .cancel _ _ => st.sub.runflags &&& srfRunning ≠ 0 → st.sub.cancel = true
  | _ => True

/-- A call releases the subdevice only for its own file and after the end of the command, and
touches nothing that is another's; no running command is released without `s->cancel`. -/
structure OwnOnly (st st' : Contest) (x : ContestStep) : Prop where
  releases : ∀ file, x.actor st = some file → ∀ owner flags, .becomeNonbusy owner flags ∈ st'.made →
    owner = some (.file file) ∧ flags &&& srfRunning = 0
  touches : ∀ file, x.actor st = some file → st'.sub.async ≠ st.sub.async →
    st.sub.busy = some (.file file)
  cancels : st.sub.runflags &&& srfRunning ≠ 0 → st.sub.busy ≠ none → st'.sub.busy ≠ st.sub.busy →
    .cancel ∈ st'.made

def Pc.waits : Pc → Bool
  | .releaseLock | .postLock _ => true
  | _ => false

/-- What a call in progress knows as long as `s->busy` does not change. -/
structure Knows (st : Contest) (o : Ongoing) : Prop where
  since_le : o.since ≤ st.turns
  owner : o.since = st.turns → (∀ ret, o.pc ≠ .returned ret) →
    st.sub.busy = some (.file o.call.file)
  stopped : o.since = st.turns → Pc.waits o.pc = true → st.sub.runflags &&& srfRunning = 0

def Informed (st : Contest) : Prop := ∀ id o, st.calls id = some o → Knows st o

variable {s s' : Subdevice} {a a' : Async} {call : IoCall} {pc : Pc} {b : Board} {d : Direction}
  {st st' : Contest} {o : Ongoing} {made : List Call}

theorem readTail_waits {k : U32} {retval : Int} (h : Pc.waits (readTail s k retval) = true) :
    s.runflags &&& srfRunning = 0 := by
  unfold readTail at h
  split at h
  · next hf =>
    rw [BitVec.and_or_distrib_left] at hf
    exact (BitVec.or_eq_zero_iff.mp hf).2
  · cases h

theorem readLoop_waits {bytes : List Byte} (hl : readLoop s a call = .ok (pc, bytes, a'))
    (h : Pc.waits pc = true) : s.runflags &&& srfRunning = 0 := by
  unfold readLoop at hl
  dsimp only at hl
  split at hl
  · split at hl
    · assumption
    · split at hl <;> cases hl
      · exact readTail_waits h
      · cases h
  · obtain ⟨x, -, hl⟩ := bind_eq_ok hl
    cases hl
    exact readTail_waits h

theorem writeLoop_waits {data : List Byte} (hl : writeLoop s a call data = .ok (pc, a'))
    (h : Pc.waits pc = true) : s.runflags &&& srfRunning = 0 := by
  unfold writeLoop at hl
  split at hl
  · assumption
  · dsimp only at hl
    split at hl
    · cases hl
      split at h <;> cases h
    · obtain ⟨x, -, hl⟩ := bind_eq_ok hl
      cases hl
      cases h

/-- A call that gets past the tests at its entry is the owner's, and one that wants the mutex
has seen the command stopped. -/
theorem enter_spec (h : enter s call d = .ok (pc, s')) :
    ((∀ ret, pc ≠ .returned ret) → s.busy = some (.file call.file)) ∧
      (Pc.waits pc = true → s.runflags &&& srfRunning = 0) ∧ IoEffect s call.file s' := by
  cases d with
  | reads =>
    obtain ⟨⟨pc', bytes, s₁⟩, he, h⟩ := bind_eq_ok h
    cases h
    have hio := readEnter_effect he
    cases hs : s.async with
    | none =>
      simp only [readEnter, hs] at he
      cases he
      exact ⟨fun hr => absurd rfl (hr _), fun hw => absurd hw Bool.false_ne_true, hio⟩
    | some a =>
      rcases readEnter_cases hs he with ⟨-, -, ret, rfl⟩ | ⟨-, hb, a', hl, -⟩
      · exact ⟨fun hr => absurd rfl (hr _), fun hw => absurd hw Bool.false_ne_true, hio⟩
      · exact ⟨fun _ => hb, readLoop_waits hl, hio⟩
  | writes data =>
    have hio := writeEnter_effect h
    cases hs : s.async with
    | none =>
      simp only [enter, writeEnter, hs] at h
      cases h
      exact ⟨fun hr => absurd rfl (hr _), fun hw => absurd hw Bool.false_ne_true, hio⟩
    | some a =>
      rcases writeEnter_cases hs h with ⟨-, ret, rfl⟩ | ⟨-, hb, a', hl, -⟩
      · exact ⟨fun hr => absurd rfl (hr _), fun hw => absurd hw Bool.false_ne_true, hio⟩
      · exact ⟨fun _ => hb, writeLoop_waits hl, hio⟩

theorem wake_spec {signal : Bool} (h : wake s call signal d = .ok (pc, s')) :
    (Pc.waits pc = true → s.runflags &&& srfRunning = 0) ∧ IoEffect s call.file s' := by
  cases d with
  | reads =>
    obtain ⟨⟨pc', bytes, s₁⟩, he, h⟩ := bind_eq_ok h
    cases h
    refine ⟨fun hw => ?_, readWake_effect he⟩
    cases hs : s.async with
    | none =>
      simp only [readWake, hs] at he
      split at he
      · cases he
        exact readTail_waits hw
      · split at he
        · cases he
          exact readTail_waits hw
        · cases he
          cases hw
        · next heq => cases heq
    | some a =>
      rcases readWake_cases hs he with ⟨-, -, retval, rfl⟩ | ⟨hb, a', hl, -⟩
      · exact readTail_waits hw
      · exact readLoop_waits hl hw
  | writes data =>
    refine ⟨fun hw => ?_, writeWake_effect h⟩
    cases hs : s.async with
    | none =>
      simp only [wake, writeWake, hs] at h
      split at h
      · cases h
        cases hw
      · split at h
        · cases h
          cases hw
        · cases h
          cases hw
        · next heq => cases heq
    | some a =>
      rcases writeWake_cases hs h with ⟨-, ret, rfl⟩ | ⟨hb, a', hl, -⟩
      · cases hw
      · exact writeLoop_waits hl hw

/-- As long as the owner is the same, no stopped command starts to run. -/
def Calm (s s' : Subdevice) : Prop :=
  s'.busy = s.busy → s.busy ≠ none → s.runflags &&& srfRunning = 0 → s'.runflags &&& srfRunning = 0

/-- A running command does not lose its owner, or the driver has been told. -/
def Told (s s' : Subdevice) (made : List Call) : Prop :=
  s.runflags &&& srfRunning ≠ 0 → s.busy ≠ none → s'.busy ≠ s.busy → .cancel ∈ made

theorem Calm.of_eq (hr : s'.runflags = s.runflags) : Calm s s' := fun _ _ h => hr ▸ h

theorem Told.of_busy (hb : s'.busy = s.busy) : Told s s' made := fun _ _ hn => absurd hb hn

theorem Calm.released (h : s'.runflags &&& srfRunning = 0) : Calm s s' := fun _ _ _ => h

theorem Stirred.runflags (h : Stirred s s') : s'.runflags = s.runflags := by
  obtain ⟨a, a', -, -⟩ := h
  rfl

theorem Stirred.busy (h : Stirred s s') : s'.busy = s.busy := by
  obtain ⟨a, a', -, -⟩ := h
  rfl

theorem ioEffect_calm {file : File} (h : IoEffect s file s') :
    Calm s s' ∧ Told s s' made ∧ (s'.async ≠ s.async → s.busy = some (.file file)) := by
  cases h with
  | nothing => exact ⟨.of_eq rfl, .of_busy rfl, fun hn => absurd rfl hn⟩
  | used _ hb hs => exact ⟨.of_eq (Stirred.runflags hs), .of_busy (Stirred.busy hs), fun _ => hb⟩

theorem cmdEffect_calm {file : File} {calls : List Call} (h : CmdEffect s file calls s') :
    Calm s s' ∧ Told s s' made := by
  cases h with
  | refused => exact ⟨.of_eq rfl, .of_busy rfl⟩
  | noMemory a a' hs hb => exact ⟨.of_eq rfl, .of_busy rfl⟩
  | failed a a' r calls hs hb => exact ⟨fun _ hn => absurd hb hn, fun _ hn => absurd hb hn⟩
  | started a a' r s₀ cmd hs hb => exact ⟨fun _ hn => absurd hb hn, fun _ hn => absurd hb hn⟩

theorem freesOnRead_stopped {bi : Info} (h : FreesOnRead s bi) : s.runflags &&& srfRunning = 0 := by
  have hf := h.2.1
  rw [BitVec.and_or_distrib_left] at hf
  exact (BitVec.or_eq_zero_iff.mp hf).1

theorem bufinfoEffect_calm {bi : Info} {file : File} (h : BufinfoEffect s bi file s') :
    Calm s s' ∧ Told s s' made := by
  cases h with
  | nothing => exact ⟨.of_eq rfl, .of_busy rfl⟩
  | used _ hb hl hs => exact ⟨.of_eq (Stirred.runflags hs), .of_busy (Stirred.busy hs)⟩
  | freed s₁ hb hl hf hs =>
    exact ⟨.released (released_running s₁), fun hrun => absurd (freesOnRead_stopped hf) hrun⟩
  | usedFreed _ hb hl hw hs =>
    obtain ⟨s₁, -, hs⟩ := hs
    refine ⟨.released ?_, fun hrun => absurd (freesOnRead_stopped hw.1) hrun⟩
    rw [Stirred.runflags hs]
    exact released_running s₁

theorem doCancel_calls {ans : Answer} (hrun : s.runflags &&& srfRunning ≠ 0) (hc : s.cancel = true) :
    .cancel ∈ (doCancel b s ans).2.2.2 := by
  unfold doCancel
  rw [if_pos ⟨hrun, hc⟩]
  exact List.mem_cons_self

theorem doCancelIoctl_calm {ans : Answer} {file : File}
    (hc : s.runflags &&& srfRunning ≠ 0 → s.cancel = true) :
    Calm s (doCancelIoctl b s ans file).2.2.1 ∧
      Told s (doCancelIoctl b s ans file).2.2.1 (doCancelIoctl b s ans file).2.2.2 := by
  unfold doCancelIoctl
  split
  · exact ⟨.of_eq rfl, .of_busy rfl⟩
  split
  · exact ⟨.of_eq rfl, .of_busy rfl⟩
  split
  · exact ⟨.of_eq rfl, .of_busy rfl⟩
  split
  · exact ⟨.of_eq rfl, .of_busy rfl⟩
  refine ⟨.released ?_, fun hrun _ _ => List.mem_append_left _ (doCancel_calls hrun (hc hrun))⟩
  rw [doCancel_released]
  exact released_running s

/-- With the mutex a call either finds nothing to do or releases the subdevice. -/
theorem withMutex_cases (b : Board) (s : Subdevice) (d : Direction) (pc : Pc) :
    ((withMutex b s d pc).2.2 = (s, []) ∧
      ((withMutex b s d pc).1 = pc ∧ Pc.waits pc = false ∨
        ∃ ret, (withMutex b s d pc).1 = .returned ret)) ∨
    (Pc.waits pc = true ∧
      (∀ ret, pc = .postLock ret → ∃ a, s.async = some a ∧ a.bufReadCount - a.bufWriteCount = 0) ∧
      (withMutex b s d pc).2.2 = (released s, [.becomeNonbusy s.busy s.runflags])) := by
  cases pc with
  | asleep => exact .inl ⟨by cases d <;> rfl, .inl ⟨by cases d <;> rfl, rfl⟩⟩
  | returned ret => exact .inl ⟨by cases d <;> rfl, .inl ⟨by cases d <;> rfl, rfl⟩⟩
  | releaseLock =>
    refine .inr ⟨rfl, nofun, ?_⟩
    cases d with
    | reads => exact congrArg (·, _) (readRelease_released b s)
    | writes data => exact congrArg (·, _) (writeRelease_released b s)
  | postLock ret =>
    have hpost : withMutex b s d (.postLock ret) = readPost b s ret := by cases d <;> rfl
    rw [hpost]
    unfold readPost
    split
    · exact .inl ⟨rfl, .inr ⟨ret, rfl⟩⟩
    · next a hs =>
      split
      · next hz =>
        exact .inr ⟨rfl, fun _ _ => ⟨a, hs, hz⟩, congrArg (·, _) (doBecomeNonbusy_released b s)⟩
      · exact .inl ⟨rfl, .inr ⟨ret, rfl⟩⟩

theorem Knows.moved (h : Knows st o) (hc : Calm st.sub s') :
    Knows (st.moved b s' made) o := by
  have hle := h.since_le
  by_cases hb : s'.busy = st.sub.busy
  · have ht : (st.moved b s' made).turns = st.turns := if_pos hb
    refine ⟨by rw [ht]; exact hle, fun hs hpc => ?_, fun hs hw => ?_⟩
    · exact hb.trans (h.owner (hs.trans ht) hpc)
    · refine hc hb ?_ (h.stopped (hs.trans ht) hw)
      rw [h.owner (hs.trans ht) (fun ret hr => by rw [hr] at hw; cases hw)]
      exact Option.some_ne_none _
  · have ht : (st.moved b s' made).turns = st.turns + 1 := if_neg hb
    exact ⟨by omega, fun hs => absurd hs (by omega), fun hs => absurd hs (by omega)⟩

theorem Informed.moved (h : Informed st) (hc : Calm st.sub s') : Informed (st.moved b s' made) :=
  fun id o ho => (h id o ho).moved hc

theorem Informed.put (h : Informed st) {id : Nat} (ho : Knows st o) : Informed (st.put id o) := by
  intro id' o' ho'
  by_cases hid : id' = id
  · subst hid
    have he : o' = o := by simpa [Contest.put] using ho'.symm
    rw [he]
    exact ⟨ho.since_le, ho.owner, ho.stopped⟩
  · have he : st.calls id' = some o' := by simpa [Contest.put, hid] using ho'
    have hk := h id' o' he
    exact ⟨hk.since_le, hk.owner, hk.stopped⟩

/-- The state after a step, for a step of nobody's call. -/
theorem informed_and_own {x : ContestStep} (h : Informed st) (hx : x.actor st = none)
    (hst : st' = st.moved b s' made) (hc : Calm st.sub s') (ht : Told st.sub s' made) :
    Informed st' ∧ OwnOnly st st' x := by
  subst hst
  refine ⟨h.moved hc, ⟨fun _ ha => ?_, fun _ ha => ?_, ht⟩⟩
  · rw [hx] at ha
    cases ha
  · rw [hx] at ha
    cases ha

theorem idle_own {x : ContestStep} (h : Informed st) :
    Informed { st with made := [] } ∧ OwnOnly st { st with made := [] } x := by
  refine ⟨fun id o ho => ?_, ⟨fun _ _ _ _ hm => absurd hm List.not_mem_nil, fun _ _ hn => absurd rfl hn,
    fun _ _ hn => absurd rfl hn⟩⟩
  exact ⟨(h id o ho).since_le, (h id o ho).owner, (h id o ho).stopped⟩

theorem enter_own {id : Nat} (h : Informed st)
    (he : enter st.sub call d = .ok (pc, s')) :
    Informed ((st.moved st.board s' []).put id ⟨d, call, pc, st.turns⟩) ∧
      OwnOnly st ((st.moved st.board s' []).put id ⟨d, call, pc, st.turns⟩) (.start id d call) := by
  obtain ⟨hown, hstop, hio⟩ := enter_spec he
  obtain ⟨hc, ht, htouch⟩ := ioEffect_calm hio
  have hk : Knows st ⟨d, call, pc, st.turns⟩ := ⟨le_rfl, fun _ hpc => hown hpc, fun _ hw => hstop hw⟩
  refine ⟨(h.moved hc).put (hk.moved hc), ⟨fun _ _ _ _ hm => absurd hm List.not_mem_nil, ?_, ht⟩⟩
  intro file hf hn
  cases hf
  exact htouch hn

theorem wake_own {id : Nat} {signal : Bool} (h : Informed st) (hid : st.calls id = some o)
    (hpc : o.pc = .asleep) (he : wake st.sub o.call signal o.direction = .ok (pc, s')) :
    Informed ((st.moved st.board s' []).put id { o with pc := pc, since := sinceWake st o signal }) ∧
      OwnOnly st ((st.moved st.board s' []).put id { o with pc := pc, since := sinceWake st o signal })
        (.resume id signal) := by
  obtain ⟨hstop, hio⟩ := wake_spec he
  obtain ⟨hc, ht, htouch⟩ := ioEffect_calm hio
  have hold := h id o hid
  have hk : Knows st { o with pc := pc, since := sinceWake st o signal } := by
    unfold sinceWake
    by_cases hb : ¬ signal ∧ st.sub.busy = some (.file o.call.file)
    · rw [if_pos hb]
      exact ⟨le_rfl, fun _ _ => hb.2, fun _ hw => hstop hw⟩
    · rw [if_neg hb]
      refine ⟨hold.since_le, fun hs _ => hold.owner hs ?_, fun _ hw => hstop hw⟩
      intro ret hr
      cases hpc.symm.trans hr
  refine ⟨(h.moved hc).put (hk.moved hc), ⟨fun _ _ _ _ hm => absurd hm List.not_mem_nil, ?_, ht⟩⟩
  intro file hf hn
  have hfile : o.call.file = file := by simpa [ContestStep.actor, hid] using hf
  rw [← hfile]
  exact htouch hn

theorem acquire_own {id : Nat} (h : Informed st) (hid : st.calls id = some o)
    (hfit : ContestFits st (.acquire id))
    (he : withMutex st.board st.sub o.direction o.pc = (pc, b, s', made)) :
    Informed ((st.moved b s' made).put id { o with pc := pc }) ∧
      OwnOnly st ((st.moved b s' made).put id { o with pc := pc }) (.acquire id) := by
  have hold := h id o hid
  have hactor : ∀ file, (ContestStep.acquire id).actor st = some file → o.call.file = file := by
    intro file hf
    simpa [ContestStep.actor, hid] using hf
  have hcases := withMutex_cases st.board st.sub o.direction o.pc
  rw [he] at hcases
  rcases hcases with ⟨hsame, hpc⟩ | ⟨hw, hpost, hrel⟩
  · cases hsame
    have hk : Knows st { o with pc := pc } := by
      rcases hpc with ⟨rfl, -⟩ | ⟨ret, rfl⟩
      · exact ⟨hold.since_le, hold.owner, hold.stopped⟩
      · exact ⟨hold.since_le, fun _ hr => absurd rfl (hr ret), nofun⟩
    refine ⟨(h.moved (.of_eq rfl)).put (hk.moved (.of_eq rfl)),
      ⟨fun _ _ _ _ hm => absurd hm List.not_mem_nil, fun _ _ hn => absurd rfl hn, Told.of_busy rfl⟩⟩
  · cases hrel
    have hsince : o.since = st.turns := by
      have hf := hfit o hid
      cases hpc : o.pc with
      | releaseLock =>
        rw [hpc] at hf
        exact hf
      | postLock ret =>
        rw [hpc] at hf
        obtain ⟨a, hs, hz⟩ := hpost ret hpc
        exact hf.resolve_right fun hn => hn a hs hz
      | asleep =>
        rw [hpc] at hw
        cases hw
      | returned ret =>
        rw [hpc] at hw
        cases hw
    have hbusy : st.sub.busy = some (.file o.call.file) :=
      hold.owner hsince fun ret hr => by
        rw [hr] at hw
        cases hw
    have hstop := hold.stopped hsince hw
    have hc : Calm st.sub (released st.sub) := .released (released_running st.sub)
    have hturn : (st.moved b (released st.sub) [.becomeNonbusy st.sub.busy st.sub.runflags]).turns =
        st.turns + 1 := by
      refine if_neg fun hb => ?_
      rw [released_busy, hbusy] at hb
      cases hb
    have hk : Knows (st.moved b (released st.sub) [.becomeNonbusy st.sub.busy st.sub.runflags])
        { o with pc := pc } := by
      have hlt : o.since < (st.moved b (released st.sub)
          [.becomeNonbusy st.sub.busy st.sub.runflags]).turns := by omega
      exact ⟨hlt.le, fun hs => absurd hs hlt.ne, fun hs => absurd hs hlt.ne⟩
    refine ⟨(h.moved hc).put hk, ⟨fun file hf owner flags hm => ?_, fun file hf _ => ?_,
      fun hrun => absurd hstop hrun⟩⟩
    · cases List.mem_singleton.mp hm
      exact ⟨by rw [hbusy, hactor file hf], hstop⟩
    · rw [hbusy, hactor file hf]

theorem contestStep_own (h : Informed st) {x : ContestStep} (hfit : ContestFits st x)
    (hx : contestStep st x = .ok st') : Informed st' ∧ OwnOnly st st' x := by
  cases x with
  | start id d call =>
    simp only [contestStep] at hx
    split at hx
    · cases hx
      exact idle_own h
    obtain ⟨⟨pc, s'⟩, he, hx⟩ := bind_eq_ok hx
    cases hx
    exact enter_own h he
  | resume id signal =>
    simp only [contestStep] at hx
    split at hx
    · cases hx
      exact idle_own h
    next o hid =>
    split at hx
    · next hpc =>
      obtain ⟨⟨pc, s'⟩, he, hx⟩ := bind_eq_ok hx
      cases hx
      exact wake_own h hid hpc he
    · cases hx
      exact idle_own h
  | acquire id =>
    simp only [contestStep] at hx
    split at hx
    · cases hx
      exact idle_own h
    next o hid =>
    cases hx
    exact acquire_own h hid hfit rfl
  | cmd req file =>
    cases hx
    obtain ⟨hc, ht⟩ := cmdEffect_calm (doCmdIoctl_effect st.board st.sub req file)
    exact informed_and_own h rfl rfl hc ht
  | cancel ans file =>
    cases hx
    obtain ⟨hc, ht⟩ := doCancelIoctl_calm (b := st.board) hfit
    exact informed_and_own h rfl rfl hc ht
  | bufinfo bi file copyTo =>
    obtain ⟨⟨ret, out, b, s'⟩, he, hx⟩ := bind_eq_ok hx
    cases hx
    obtain ⟨hc, ht⟩ := bufinfoEffect_calm (doBufinfoIoctl_effect he)
    exact informed_and_own h rfl rfl hc ht
  | driver f =>
    cases hx
    exact informed_and_own h rfl rfl (.of_eq rfl) (.of_busy rfl)
  | event events =>
    cases hx
    refine informed_and_own h rfl rfl (fun _ _ hz => ?_) (.of_busy (comediEvent_busy _ _))
    rw [comediEvent_stopped _ (by exact hz)]
    exact hz

/-- In a run in which every call that gets the mutex still finds what it has seen, and every
running command that is cancelled has a cancel callback, all calls keep to their own command. -/
theorem readers_writers (b : Board) (s : Subdevice) (steps : List ContestStep)
    (hfit : AllFit contestStep ContestFits { board := b, sub := s } steps) :
    AllFit contestStep (fun st x => ∀ st', contestStep st x = .ok st' → OwnOnly st st' x)
      { board := b, sub := s } steps :=
  hfit.of_invariant Informed (fun _ _ _ h hf hx => (contestStep_own h hf hx).1)
    (fun _ _ h hf _ hx => (contestStep_own h hf hx).2) fun _ _ ho => by cases ho

/-- A reader sleeps until the command fails, and releases it. -/
def failedRead : List ContestStep :=
  [.cmd LifeCycle.plainCmd 0, .start 0 .reads ⟨0, 2, false, 0⟩, .event comediCbError, .resume 0 false,
    .acquire 0]

theorem readers_writers_failedRead :
    AllFit contestStep (fun st x => ∀ st', contestStep st x = .ok st' → OwnOnly st st' x)
      { board := {}, sub := LifeCycle.duplex } failedRead := by
  refine readers_writers {} LifeCycle.duplex failedRead ?_
  refine .cons trivial rfl (.cons trivial rfl (.cons trivial rfl (.cons trivial rfl
    (.cons (fun o ho => ?_) rfl trivial))))
  cases ho
  rfl

def contested (steps : List ContestStep) : Contest :=
  match GuardedRuns.run contestStep { sub := LifeCycle.duplex } steps with
  | .ok st => st
  | .error _ => { sub := LifeCycle.duplex }

/-- A read finds the end of the command of file 0 and releases it, and file 1 starts a command
before the read gets the mutex for the second time. -/
def overtaken : List ContestStep :=
  [.cmd LifeCycle.plainCmd 0, .event comediCbEoa, .start 0 .reads ⟨0, 2, false, 0⟩, .acquire 0,
    .cmd LifeCycle.plainCmd 1]

/-- The read of file 0 ends the running command of file 1, and the driver is not told. -/
theorem read_ends_another :
    (contested overtaken).sub.busy = some (.file 1) ∧
      (contested overtaken).sub.runflags &&& srfRunning ≠ 0 ∧
      contestStep (contested overtaken) (.acquire 0) = .ok (contested (overtaken ++ [.acquire 0])) ∧
      (contested (overtaken ++ [.acquire 0])).sub.busy = none ∧
      ¬ OwnOnly (contested overtaken) (contested (overtaken ++ [.acquire 0])) (.acquire 0) := by
  refine ⟨rfl, by decide, rfl, rfl, fun h => ?_⟩
  have hmade : (contested (overtaken ++ [.acquire 0])).made =
      [.becomeNonbusy (some (.file 1)) (contested overtaken).sub.runflags] := rfl
  have hown := (h.releases 0 rfl _ _ (hmade ▸ List.mem_singleton_self _)).1
  exact absurd hown (by decide)

end Comedi.ReadersWriters
