import Comedi.CommandSteps
import Comedi.Poll
import Comedi.WriteSpecs

namespace Comedi.OutputWrites

open AsyncBuffer RingMarks RingCounters MungeBlocks RunState ReadWrite WriteSpecs Poll CommandSteps
open Requests GuardedRuns

/-- A call of `comedi_write` with the bytes of its user that has not returned. -/
structure Pending where
  call : IoCall
  data : List Byte
  turn : Turn

/-- A call that has returned, whether it has released the subdevice, and how it has left it. -/
structure Return where
  call : IoCall
  data : List Byte
  ret : Int
  releases : Bool
  sub : Subdevice

/-- An output command: the calls on its subdevice, those that have returned, and the bytes that
were committed to its buffer. -/
structure Output where
  board : Board := {}
  sub : Subdevice
  calls : Nat → Option Pending := fun _ => none
  returns : List Return := []
  committed : List Byte := []

/-- A call starts, wakes up, copies what it has found space for, or gets the mutex it waits for;
the driver consumes, raises an event or has it handled; somebody polls. -/
inductive OutputStep where
  | write (id : Nat) (nbytes : Count) (nonblock : Bool) (missed : U32) (data : List Byte)
  | wake (id : Nat) (signal : Bool)
  | copy (id : Nat)
  | acquire (id : Nat)
  | readAlloc (n : U32)
  | readFree (n : U32)
  | get
  | poll
  | raise (events : U32)
  | event

/-- A call of `comedi_write` up to its first stop or its copy. -/
def enterHead (s : Subdevice) (call : IoCall) : Turn × Subdevice :=
  match s.async with
  | none => (.returned (-eio), s)
  | some a =>
    if call.nbytes.val = 0 then (.returned 0, s)
    else
      match s.busy with
      | none => (.returned 0, s)
      | some o =>
        if o ≠ .file call.file then (.returned (-eacces), s)
        else
          let (turn, a) := writeHead s a call
          (turn, { s with async := some a })

/-- From `schedule()` to the next stop or the copy. -/
def wakeHead (s : Subdevice) (call : IoCall) (signal : Bool) : Turn × Subdevice :=
  if signal then (.returned (-erestartsys), s)
  else
    match s.busy, s.async with
    | none, _ => (.returned 0, s)
    | some _, none => (.returned (-eio), s)
    | some o, some a =>
      if o ≠ .file call.file then (.returned (-eacces), s)
      else
        let (turn, a) := writeHead s a call
        (turn, { s with async := some a })

/-- The rest of the pass. -/
def finishCall (s : Subdevice) (call : IoCall) (data : List Byte) (turn : Turn) :
    Result (Pc × Subdevice) :=
  match s.async with
  | none => .ok (.returned (-eio), s)
  | some a => do
    let (pc, a) ← finishTurn s a call data turn
    return (pc, { s with async := some a })

/-- The call that releases the subdevice. -/
def finishRelease (b : Board) (s : Subdevice) : Int × Board × Subdevice :=
  match writeRelease b s with
  | (.returned ret, b, s, _) => (ret, b, s)
  | (_, b, s, _) => (0, b, s)

def Output.turned (st : Output) (id : Nat) (call : IoCall) (data : List Byte) (s : Subdevice) :
    Turn → Output
  | .returned ret =>
    { st with
      sub := s
      calls := Function.update st.calls id none
      returns := st.returns ++ [⟨call, data, ret, false, s⟩] }
  | turn => { st with sub := s, calls := Function.update st.calls id (some ⟨call, data, turn⟩) }

def onBuffer (st : Output) (f : Async → Result Async) : Result Output :=
  match st.sub.async with
  | none => .ok st
  | some a => do
    let a ← f a
    return { st with sub := { st.sub with async := some a } }

def outputStep (file : File) (st : Output) : OutputStep → Result Output
  | .write id nbytes nonblock missed data =>
    let call := ⟨file, nbytes, nonblock, missed⟩
    let (turn, s) := enterHead st.sub call
    .ok (st.turned id call data s turn)
  | .wake id signal =>
    match st.calls id with
    | some ⟨call, data, .asleep⟩ =>
      let (turn, s) := wakeHead st.sub call signal
      .ok (st.turned id call data s turn)
    | _ => .ok st
  | .copy id =>
    match st.calls id, st.sub.async with
    | some ⟨call, data, .copying n⟩, some a => do
      let (ret, a') ← writeCopy st.sub a call data n
      let st := { st with
        committed := st.committed ++ committedBytes (copyFromUser a call data n) a' }
      return st.turned id call data { st.sub with async := some a' } (.returned ret)
    | _, _ => .ok st
  | .acquire id =>
    match st.calls id with
    | some ⟨call, data, .releaseLock⟩ =>
      let (ret, b, s) := finishRelease st.board st.sub
      .ok { st with
        board := b
        sub := s
        calls := Function.update st.calls id none
        returns := st.returns ++ [⟨call, data, ret, true, s⟩] }
    | _ => .ok st
  | .readAlloc n => onBuffer st fun a => .ok (comediBufReadAlloc a n).2
  | .readFree n => onBuffer st fun a => (·.2) <$> comediBufReadFree a n
  | .get => onBuffer st fun a => (·.2) <$> comediBufGet a
  | .poll => .ok { st with sub := (pollWriteSubdevice st.sub).2 }
  | .raise events => onBuffer st fun a => .ok (raiseEvents a events)
  | .event => .ok { st with sub := (comediEvent st.board st.sub).1 }

/-- No call is about to copy. -/
def Quiet (st : Output) : Prop := ∀ id p n, st.calls id = some p → p.turn ≠ .copying n

/-- A call comes with as many bytes as it says, and goes through the head of the loop only
while no other call is about to copy; the driver asks for less than half the counter range
beyond what is there. -/
def OutputFits (st : Output) : OutputStep → Prop
  | .write id nbytes _ _ data => st.calls id = none ∧ data.length = nbytes ∧ Quiet st
  | .wake _ _ => Quiet st
  | .readAlloc n => ∀ a, st.sub.async = some a →
      n.toNat < 2 ^ 31 + (a.mungeCount - a.bufReadAllocCount).toNat
  | .readFree n => ∀ a, st.sub.async = some a →
      n.toNat < 2 ^ 31 + (a.bufReadAllocCount - a.bufReadCount).toNat
  | _ => True

/-- The bytes that a call says it has taken. -/
def Return.accepted (r : Return) : List Byte := r.data.take r.ret.toNat

/-- What a return value says about the ring and the command. -/
structure ReturnOk (r : Return) : Prop where
  again : r.ret = -eagain → r.call.nonblock = true ∧ ∃ a, r.sub.async = some a ∧
    a.bufWriteCount - a.bufReadCount = a.preallocBufsz
  ends : 0 < r.call.nbytes.val → r.ret = 0 ∨ r.ret = -epipe →
    r.sub.runflags &&& srfRunning = 0 ∧ r.sub.busy = none
  released : r.releases = true → r.ret = if r.sub.runflags &&& srfError ≠ 0 then -epipe else 0
  broken : r.ret = -epipe → r.releases = true

variable {file : File} {s s' : Subdevice} {a a' : Async} {call : IoCall} {data : List Byte}

theorem finishCall_returned (hs : s.async = some a) (ret : Int) :
    finishCall s call data (.returned ret) = .ok (.returned ret, s) := by
  have he : { s with async := some a } = s := by rw [← hs]
  simp only [finishCall, hs]
  exact congrArg (fun s' => Except.ok (Pc.returned ret, s')) he

/-- A pass of the loop in its two parts, on the subdevice. -/
theorem finishCall_head (s : Subdevice) (a : Async) (call : IoCall) (data : List Byte) :
    (do
      let (pc, a) ← writeLoop s a call data
      return (pc, { s with async := some a })) =
      finishCall { s with async := some (writeHead s a call).2 } call data
        (writeHead s a call).1 := by
  rw [writeLoop_eq]
  cases (writeHead s a call).1 with
  | copying n => rfl
  | _ => rfl

/-- A call of `comedi_write` is its head and the rest of the pass. -/
theorem writeEnter_eq (hs : s.async = some a) (call : IoCall) (data : List Byte) :
    writeEnter s call data = finishCall (enterHead s call).2 call data (enterHead s call).1 := by
  unfold writeEnter enterHead
  simp only [hs]
  split
  · exact (finishCall_returned hs 0).symm
  cases hb : s.busy with
  | none => exact (finishCall_returned hs 0).symm
  | some o =>
    dsimp only
    split
    · exact (finishCall_returned hs _).symm
    · have h := finishCall_head s a call data
      rw [hb] at h
      exact h

theorem writeWake_eq (hs : s.async = some a) (call : IoCall) (data : List Byte) (signal : Bool) :
    writeWake s call data signal =
      finishCall (wakeHead s call signal).2 call data (wakeHead s call signal).1 := by
  unfold writeWake wakeHead
  split
  · exact (finishCall_returned hs _).symm
  cases hb : s.busy with
  | none => exact (finishCall_returned hs _).symm
  | some o =>
    simp only [hs]
    split
    · exact (finishCall_returned hs _).symm
    · have h := finishCall_head s a call data
      rw [hb] at h
      exact h

variable {cap : Nat} {μ μ' : Marks cap} {st st' : Output} {p : Pending} {id : Nat}

/-- What a call that has not returned relies on. -/
structure CallOk (file : File) (s : Subdevice) (a : Async) (μ : Marks cap) (p : Pending) : Prop where
  file_eq : p.call.file = file
  length : p.data.length = p.call.nbytes
  pos : 0 < p.call.nbytes.val
  stays : ∀ ret, p.turn ≠ .returned ret
  stopped : p.turn = .releaseLock → s.runflags &&& srfRunning = 0
  copies : ∀ n, p.turn = .copying n → s.busy = some (.file file) ∧ 0 < n.toNat ∧
    n.toNat ≤ p.call.nbytes ∧ a.bufWritePtr.toNat + n.toNat ≤ cap ∧
    μ.written + n.toNat ≤ μ.writeAlloc

/-- An output command of `file`, or what is left after its end. A call that is about to copy is
the only one that is not asleep. -/
structure Underway (file : File) (st : Output) (a : Async) (μ : Marks cap) : Prop where
  async : st.sub.async = some a
  located : Located st.sub a μ
  owned : st.sub.busy = some (.file file) ∨
    st.sub.busy = none ∧ st.sub.runflags &&& srfRunning = 0
  calls : ∀ id p, st.calls id = some p → CallOk file st.sub a μ p
  alone : ∀ id p n, st.calls id = some p → p.turn = .copying n →
    ∀ id' p', st.calls id' = some p' → id' = id ∨ p'.turn = .asleep
  committed : st.committed = st.returns.flatMap (·.accepted)
  returns : ∀ r ∈ st.returns, ReturnOk r
  count : st.sub.busy ≠ none → μ.written = st.committed.length

/-- A step that commits nothing. The space that is allocated may grow, and the command may stop. -/
theorem Underway.moved (h : Underway file st a μ) (ha : s'.async = some a')
    (hloc : Located s' a' μ') (hbusy : s'.busy = st.sub.busy)
    (hrun : st.sub.runflags &&& srfRunning = 0 → s'.runflags &&& srfRunning = 0)
    (hptr : a'.bufWritePtr = a.bufWritePtr) (hw : μ'.written = μ.written)
    (hwa : μ.writeAlloc ≤ μ'.writeAlloc) (b : Board) :
    Underway file { st with board := b, sub := s' } a' μ' where
  async := ha
  located := hloc
  owned := h.owned.imp (hbusy.trans ·) fun hn => ⟨hbusy.trans hn.1, hrun hn.2⟩
  calls id p hp := by
    have hok := h.calls id p hp
    refine ⟨hok.file_eq, hok.length, hok.pos, hok.stays, fun ht => hrun (hok.stopped ht), ?_⟩
    intro n hn
    obtain ⟨hb, hpos, hle, hend, hheld⟩ := hok.copies n hn
    exact ⟨hbusy.trans hb, hpos, hle, by rw [hptr]; exact hend, by omega⟩
  alone := h.alone
  committed := h.committed
  returns := h.returns
  count hb := by
    rw [hw]
    exact h.count (hbusy ▸ hb)

theorem removed {calls : Nat → Option Pending} {id' : Nat}
    (h : Function.update calls id none id' = some p) : id' ≠ id ∧ calls id' = some p := by
  by_cases hi : id' = id
  · rw [hi, Function.update_self] at h
    cases h
  · rw [Function.update_of_ne hi] at h
    exact ⟨hi, h⟩

theorem inserted {calls : Nat → Option Pending} {id' : Nat} {q : Pending}
    (h : Function.update calls id (some q) id' = some p) :
    id' = id ∧ q = p ∨ id' ≠ id ∧ calls id' = some p := by
  by_cases hi : id' = id
  · rw [hi, Function.update_self] at h
    exact .inl ⟨hi, Option.some.inj h⟩
  · rw [Function.update_of_ne hi] at h
    exact .inr ⟨hi, h⟩

/-- A call returns, with the bytes it has just committed. -/
theorem Underway.returned (h : Underway file st a μ) {r : Return} (hr : ReturnOk r)
    (ha : s'.async = some a') (hloc : Located s' a' μ')
    (howned : s'.busy = some (.file file) ∨ s'.busy = none ∧ s'.runflags &&& srfRunning = 0)
    (hcalls : ∀ id' p, id' ≠ id → st.calls id' = some p → CallOk file s' a' μ' p)
    (hcount : s'.busy ≠ none → μ'.written = st.committed.length + r.accepted.length) (b : Board) :
    Underway file { st with
      board := b
      sub := s'
      calls := Function.update st.calls id none
      returns := st.returns ++ [r]
      committed := st.committed ++ r.accepted } a' μ' where
  async := ha
  located := hloc
  owned := howned
  calls id' p hp := hcalls id' p (removed hp).1 (removed hp).2
  alone id₁ p n hp ht id₂ p' hp' := h.alone id₁ p n (removed hp).2 ht id₂ p' (removed hp').2
  committed := by
    rw [h.committed, List.flatMap_append, List.flatMap_singleton]
  returns r' hm := by
    rcases List.mem_append.mp hm with hm | hm
    · exact h.returns r' hm
    · rw [List.mem_singleton.mp hm]
      exact hr
  count hb := by
    rw [List.length_append]
    exact hcount hb

/-- A call goes to sleep, waits for the mutex, or is about to copy. -/
theorem Underway.waits (h : Underway file st a μ) (hp : CallOk file st.sub a μ p)
    (halone : ∀ n, p.turn = .copying n → ∀ id' p', id' ≠ id → st.calls id' = some p' →
      p'.turn = .asleep)
    (hothers : p.turn = .asleep ∨ Quiet st) :
    Underway file { st with calls := Function.update st.calls id (some p) } a μ where
  async := h.async
  located := h.located
  owned := h.owned
  calls id' p' hp' := by
    rcases inserted hp' with ⟨-, rfl⟩ | ⟨-, hp'⟩
    · exact hp
    · exact h.calls id' p' hp'
  alone id₁ p₁ n hp₁ ht id₂ p₂ hp₂ := by
    rcases inserted hp₁ with ⟨h₁, rfl⟩ | ⟨h₁, hp₁⟩
    · rcases inserted hp₂ with ⟨h₂, -⟩ | ⟨h₂, hp₂⟩
      · exact .inl (h₂.trans h₁.symm)
      · exact .inr (halone n ht id₂ p₂ h₂ hp₂)
    · rcases inserted hp₂ with ⟨-, rfl⟩ | ⟨-, hp₂⟩
      · rcases hothers with hs | hq
        · exact .inr hs
        · exact absurd ht (hq id₁ p₁ n hp₁)
      · exact h.alone id₁ p₁ n hp₁ ht id₂ p₂ hp₂
  committed := h.committed
  returns := h.returns
  count := h.count

theorem Underway.onBuffer (h : Underway file st a μ) (hloc : Located st.sub a' μ')
    (hptr : a'.bufWritePtr = a.bufWritePtr) (hw : μ'.written = μ.written)
    (hwa : μ.writeAlloc ≤ μ'.writeAlloc) :
    Underway file { st with sub := { st.sub with async := some a' } } a' μ' := by
  have ha : { st.sub with async := some a' }.async = some a' := rfl
  exact h.moved ha (hloc.congr rfl) rfl id hptr hw hwa st.board

/-- The driver takes one sample out of the buffer, if there is one. -/
theorem get_spec (h : Located s a μ) :
    ∃ x a' μ', comediBufGet a = .ok (x, a') ∧ Located s a' (μ' : Marks cap) ∧
      a'.bufWritePtr = a.bufWritePtr ∧ μ'.written = μ.written ∧ μ'.writeAlloc = μ.writeAlloc := by
  have hlt := h.cap_lt
  have h2 : (2 : U32).toNat = 2 := rfl
  unfold comediBufGet
  split
  · exact ⟨none, a, μ, rfl, h, rfl, rfl, rfl⟩
  · have h₁ := h.acquire 2
    have halloc := readAlloc_spec hlt h.tracks (n := 2) (by omega)
    have hfree := readFree_spec hlt h₁.tracks h.cap_pos (n := 2) (by omega)
    rw [halloc]
    dsimp only
    rw [h2, hfree]
    exact ⟨_, _, _, rfl, h₁.release 2, rfl, rfl, rfl⟩

theorem event_running (b : Board) (hs : s.async = some a) (hrun : s.runflags &&& srfRunning ≠ 0) :
    ∃ r, (comediEvent b s).1 =
      { s with runflags := r, async := some { a with events := 0 } } := by
  unfold comediEvent
  rw [hs]
  simp only [if_neg hrun]
  exact ⟨_, rfl⟩

/-- What the driver and a poll do. -/
theorem Underway.driver (h : Underway file st a μ) {x : OutputStep} (hfit : OutputFits st x)
    (hx : (∃ n, x = .readAlloc n) ∨ (∃ n, x = .readFree n) ∨ x = .get ∨ x = .poll ∨
      (∃ events, x = .raise events) ∨ x = .event) :
    ∃ st' a' μ', outputStep file st x = .ok st' ∧ Underway file st' a' (μ' : Marks cap) := by
  have hloc := h.located
  have hlt := hloc.cap_lt
  have hc := μ.chain
  have ha := h.async
  have ht := hloc.tracks
  rcases hx with ⟨n, rfl⟩ | ⟨n, rfl⟩ | rfl | rfl | ⟨events, rfl⟩ | rfl
  · have hn := hfit a ha
    rw [BufinfoOrder.tracks_readable hlt ht] at hn
    have hspec := readAlloc_spec hlt ht hn
    refine ⟨_, _, _, ?_, h.onBuffer (hloc.acquire n.toNat) rfl rfl le_rfl⟩
    simp only [outputStep, OutputWrites.onBuffer, ha, hspec]
    rfl
  · have hn := hfit a ha
    rw [ht.readCount, ht.readAllocCount, toNat_ofNat_sub (by omega) (by omega)] at hn
    have hspec := readFree_spec hlt ht hloc.cap_pos hn
    refine ⟨_, _, _, ?_, h.onBuffer (hloc.release n.toNat) rfl rfl le_rfl⟩
    simp only [outputStep, OutputWrites.onBuffer, ha, hspec]
    rfl
  · obtain ⟨y, a', μ', hget, hloc', hptr, hw, hwa⟩ := get_spec hloc
    refine ⟨_, a', μ', ?_, h.onBuffer hloc' hptr hw hwa.ge⟩
    simp only [outputStep, OutputWrites.onBuffer, ha, hget]
    rfl
  · have hspec := writeAlloc_spec hlt ht (n := a.preallocBufsz) (by rw [ht.bufsz]; omega)
    refine ⟨_, _, _, rfl,
      h.moved ?_ ((hloc.reserve a.preallocBufsz.toNat).congr ?_) ?_ ?_ rfl rfl (by simp [Marks.reserve]) st.board⟩
    all_goals simp only [pollWriteSubdevice, ha, hspec]
    exact id
  · refine ⟨_, _, _, ?_, h.onBuffer (hloc.events (a.events ||| events)) rfl rfl le_rfl⟩
    simp only [outputStep, OutputWrites.onBuffer, ha]
    rfl
  · by_cases hrun : st.sub.runflags &&& srfRunning = 0
    · refine ⟨st, a, μ, ?_, h⟩
      simp only [outputStep, comediEvent_stopped st.board hrun]
    · obtain ⟨r, he⟩ := event_running st.board ha hrun
      refine ⟨_, _, _, rfl, h.moved ?_ ((hloc.events 0).congr ?_) ?_ (absurd · hrun) rfl rfl le_rfl
        st.board⟩
      · rw [he]
      · rw [he]
      · rw [he]

theorem accepted_nil {r : Return} (h : r.ret ≤ 0) : r.accepted = [] := by
  rw [Return.accepted, Int.toNat_of_nonpos h, List.take_zero]

/-- A call returns without having copied anything. -/
theorem Underway.refused (h : Underway file st a μ) {ret : Int} (hneg : ret ≤ 0)
    (hr : ReturnOk ⟨call, data, ret, false, st.sub⟩) (id : Nat) :
    Underway file (st.turned id call data st.sub (.returned ret)) a μ := by
  have hacc := @accepted_nil ⟨call, data, ret, false, st.sub⟩ hneg
  have hret := h.returned hr h.async h.located h.owned (fun id' p (_ : id' ≠ id) hp => h.calls id' p hp)
    (fun hb => by rw [h.count hb, hacc]; rfl) st.board
  rwa [hacc, List.append_nil] at hret

/-- A return value that is neither the end nor `-EAGAIN`. -/
theorem returnOk_of_ne {ret : Int} (hz : ret ≠ 0) (hpipe : ret ≠ -epipe) (hagain : ret ≠ -eagain)
    (call : IoCall) (data : List Byte) (s : Subdevice) : ReturnOk ⟨call, data, ret, false, s⟩ :=
  ⟨fun h => absurd h hagain, fun _ h => absurd h (not_or.mpr ⟨hz, hpipe⟩), nofun,
    fun h => absurd h hpipe⟩

theorem returnOk_zero (h : 0 < call.nbytes.val → s.runflags &&& srfRunning = 0 ∧ s.busy = none)
    (data : List Byte) : ReturnOk ⟨call, data, 0, false, s⟩ :=
  ⟨fun h0 => absurd h0 (by decide : (0 : Int) ≠ -eagain), fun hp _ => h hp, nofun,
    fun h0 => absurd h0 (by decide : (0 : Int) ≠ -epipe)⟩

theorem returnOk_again (hnb : call.nonblock = true) (ha : s.async = some a)
    (hfull : a.bufWriteCount - a.bufReadCount = a.preallocBufsz) (data : List Byte) :
    ReturnOk ⟨call, data, -eagain, false, s⟩ :=
  ⟨fun _ => ⟨hnb, a, ha, hfull⟩,
    fun _ h0 => absurd h0 (by decide : ¬ (-eagain = 0 ∨ -eagain = -epipe)), nofun,
    fun h0 => absurd h0 (by decide : -eagain ≠ -epipe)⟩

/-- A call that returns 0 because the subdevice is free. -/
theorem Underway.refused_free (h : Underway file st a μ) (hb : st.sub.busy = none)
    (call : IoCall) (data : List Byte) (id : Nat) :
    Underway file (st.turned id call data st.sub (.returned 0)) a μ := by
  have hrun : st.sub.runflags &&& srfRunning = 0 := by
    rcases h.owned with ho | ho
    · rw [hb] at ho
      cases ho
    · exact ho.2
  exact h.refused le_rfl (returnOk_zero (fun _ => ⟨hrun, hb⟩) data) id

/-- A call of the owner goes through the head of the loop. -/
theorem Underway.headed (h : Underway file st a μ) (hb : st.sub.busy = some (.file file))
    (hquiet : Quiet st) (hf : call.file = file) (hlen : data.length = call.nbytes)
    (hpos : 0 < call.nbytes.val) (id : Nat) :
    ∃ a' μ', Underway file
      (st.turned id call data { st.sub with async := some (writeHead st.sub a call).2 }
        (writeHead st.sub a call).1) a' (μ' : Marks cap) := by
  have hc := μ.chain
  have hsame : { st.sub with async := some a } = st.sub := by rw [← h.async]
  have hspec := writeHead_spec h.located hpos
  generalize (writeHead st.sub a call).1 = turn at hspec
  generalize (writeHead st.sub a call).2 = a' at hspec
  have hreserve : μ.writeAlloc ≤ (μ.reserve cap).writeAlloc := Nat.le_add_right _ _
  have hquiet' : ∀ s', Quiet { st with sub := s' } := fun _ => hquiet
  cases hspec with
  | release hrun =>
    rw [hsame]
    exact ⟨a, μ, h.waits (p := ⟨call, data, .releaseLock⟩)
      ⟨hf, hlen, hpos, nofun, fun _ => hrun, nofun⟩ nofun (.inr hquiet)⟩
  | full _ _ hrun ha hfull ht =>
    have hptr : a'.bufWritePtr = a.bufWritePtr :=
      BitVec.eq_of_toNat_eq (ha.writePtr.trans h.located.writePtr.symm)
    have hm := h.onBuffer ha hptr rfl hreserve
    rcases ht with rfl | ⟨hnb, rfl⟩
    · exact ⟨a', _, hm.waits (p := ⟨call, data, .asleep⟩)
        ⟨hf, hlen, hpos, nofun, nofun, nofun⟩ nofun (.inl rfl)⟩
    · exact ⟨a', _, hm.refused (by decide) (returnOk_again hnb rfl hfull data) id⟩
  | copy _ n hrun ha hn hle hend hheld =>
    have hptr : a'.bufWritePtr = a.bufWritePtr :=
      BitVec.eq_of_toNat_eq (ha.writePtr.trans h.located.writePtr.symm)
    have hm := h.onBuffer ha hptr rfl hreserve
    refine ⟨a', _, hm.waits (p := ⟨call, data, .copying n⟩) ⟨hf, hlen, hpos, nofun, nofun, ?_⟩ ?_
      (.inr hquiet)⟩
    · intro m hmn
      cases hmn
      exact ⟨hb, hn, hle, hend, hheld⟩
    · intro _ _ id' p' _ hp'
      have hok := h.calls id' p' hp'
      cases ht : p'.turn with
      | asleep => rfl
      | copying m => exact absurd ht (hquiet id' p' m hp')
      | releaseLock => exact absurd (hok.stopped ht) hrun
      | returned ret => exact absurd ht (hok.stays ret)

theorem Underway.write (h : Underway file st a μ) {id : Nat} {nbytes : Count} {nonblock : Bool}
    {missed : U32} {data : List Byte} (hfit : OutputFits st (.write id nbytes nonblock missed data)) :
    ∃ st' a' μ', outputStep file st (.write id nbytes nonblock missed data) = .ok st' ∧
      Underway file st' a' (μ' : Marks cap) := by
  obtain ⟨-, hlen, hquiet⟩ := hfit
  simp only [outputStep, enterHead, h.async]
  split
  · next hz =>
    exact ⟨_, a, μ, rfl, h.refused le_rfl
      (returnOk_zero (fun hp => absurd hz (Nat.pos_iff_ne_zero.mp hp)) data) id⟩
  next hz =>
  split
  · next hb => exact ⟨_, a, μ, rfl, h.refused_free hb _ _ _⟩
  next o hb =>
  rcases h.owned with ho | ho
  · cases hb.symm.trans ho
    rw [if_neg (not_not.mpr rfl)]
    have hown : (⟨file, nbytes, nonblock, missed⟩ : IoCall).file = file := rfl
    obtain ⟨a', μ', h'⟩ := h.headed hb hquiet hown hlen
      (Nat.pos_of_ne_zero hz) id
    exact ⟨_, a', μ', rfl, h'⟩
  · cases hb.symm.trans ho.1

theorem Underway.wake (h : Underway file st a μ) {id : Nat} {signal : Bool} (hquiet : Quiet st) :
    ∃ st' a' μ', outputStep file st (.wake id signal) = .ok st' ∧
      Underway file st' a' (μ' : Marks cap) := by
  simp only [outputStep]
  split
  swap
  · exact ⟨st, a, μ, rfl, h⟩
  next call data hp =>
  have hok := h.calls id _ hp
  unfold wakeHead
  split
  · exact ⟨_, a, μ, rfl, h.refused (by decide)
      (returnOk_of_ne (by decide) (by decide) (by decide) call data st.sub) id⟩
  rcases h.owned with hb | hb
  · obtain ⟨a', μ', h'⟩ := h.headed hb hquiet hok.file_eq hok.length hok.pos id
    have hf : call.file = file := hok.file_eq
    simp only [hb, h.async, hf, ne_eq, not_true, if_false]
    rw [← hb]
    exact ⟨_, a', μ', rfl, h'⟩
  · simp only [hb.1]
    exact ⟨_, a, μ, rfl, h.refused_free hb.1 call data id⟩

theorem Underway.copy (h : Underway file st a μ) (id : Nat) :
    ∃ st' a' μ', outputStep file st (.copy id) = .ok st' ∧
      Underway file st' a' (μ' : Marks cap) := by
  simp only [outputStep]
  split
  swap
  · exact ⟨st, a, μ, rfl, h⟩
  next call data n a₀ hp ha =>
  cases h.async.symm.trans ha
  have hok := h.calls id _ hp
  obtain ⟨hb, hpos, hle, hend, hheld⟩ := hok.copies n rfl
  have hlen : n.toNat ≤ data.length := by
    rw [hok.length]
    exact hle
  obtain ⟨ret, a', hw, ⟨ν, hloc, hν⟩, hbytes, hret, hz, hpipe, hagain⟩ :=
    writeCopy_spec call h.located hpos hlen hend hheld
  rw [hw]
  refine ⟨_, a', ν, rfl, ?_⟩
  rw [hbytes]
  have hle' : n.toNat ≤ call.nbytes := hle
  let s' : Subdevice := { st.sub with async := some a' }
  have ha' : s'.async = some a' := rfl
  refine h.returned (returnOk_of_ne hz hpipe hagain call data s') ha' (hloc.congr rfl)
    (.inl hb) ?_ ?_ st.board
  · intro id' p hi hp'
    have hother := h.calls id' p hp'
    rcases h.alone id _ n hp rfl id' p hp' with he | ht
    · exact absurd he hi
    · refine ⟨hother.file_eq, hother.length, hother.pos, hother.stays, ?_, ?_⟩
      · intro hr
        rw [ht] at hr
        cases hr
      · intro m hm
        rw [ht] at hm
        cases hm
  · intro hne
    rw [hν, h.count hne, Return.accepted, List.length_take]
    change _ + _ = _ + min ret.toNat data.length
    omega

theorem Underway.release (h : Underway file st a μ) (id : Nat) :
    ∃ st' a' μ', outputStep file st (.acquire id) = .ok st' ∧
      Underway file st' a' (μ' : Marks cap) := by
  simp only [outputStep]
  split
  swap
  · exact ⟨st, a, μ, rfl, h⟩
  next call data hp =>
  have hrel := doBecomeNonbusy_released st.board st.sub
  have herr := released_error st.sub
  have hrun := released_running st.sub
  refine ⟨_, idleAsync a, Marks.start cap, rfl, ?_⟩
  simp only [finishRelease, writeRelease, hrel]
  have hret : ∀ r : Return, r.releases = true → r.sub = released st.sub →
      r.ret = (if st.sub.runflags &&& srfError ≠ 0 then -epipe else 0) →
      ReturnOk r ∧ r.accepted = [] := by
    intro r h₁ h₂ h₃
    refine ⟨⟨?_, ?_, ?_, fun _ => h₁⟩, accepted_nil ?_⟩
    · intro hag
      rw [hag] at h₃
      split at h₃ <;> cases h₃
    · intro _ _
      rw [h₂]
      exact ⟨hrun, rfl⟩
    · intro _
      rw [h₂, herr, h₃]
    · rw [h₃]
      split <;> decide
  obtain ⟨hr, hacc⟩ := hret ⟨call, data, _, true, released st.sub⟩ rfl rfl rfl
  have hasync : (released st.sub).async = some (idleAsync a) := by
    simp only [released, h.async, Option.map_some]
  have hcalls : ∀ id' p, id' ≠ id → st.calls id' = some p →
      CallOk file (released st.sub) (idleAsync a) (Marks.start cap) p := by
    intro id' p _ hp'
    have hother := h.calls id' p hp'
    refine ⟨hother.file_eq, hother.length, hother.pos, hother.stays, fun _ => hrun, ?_⟩
    intro n hn
    rcases h.alone id' p n hp' hn id _ hp with he | ht
    · rw [he, hp'] at hp
      cases hp
      cases hn
    · cases ht
  have hgo := h.returned hr hasync (h.located.idle.congr rfl) (.inr ⟨rfl, hrun⟩) hcalls
    (fun hb => absurd rfl hb) (doBecomeNonbusy st.board st.sub).1
  rwa [hacc, List.append_nil] at hgo

theorem outputStep_underway {x : OutputStep} (h : Underway file st a μ) (hfit : OutputFits st x) :
    ∃ st' a' μ', outputStep file st x = .ok st' ∧ Underway file st' a' (μ' : Marks cap) := by
  cases x with
  | write id nbytes nonblock missed data => exact h.write hfit
  | wake id signal => exact h.wake hfit
  | copy id => exact h.copy id
  | acquire id => exact h.release id
  | readAlloc n => exact h.driver hfit (.inl ⟨n, rfl⟩)
  | readFree n => exact h.driver hfit (.inr (.inl ⟨n, rfl⟩))
  | get => exact h.driver hfit (.inr (.inr (.inl rfl)))
  | poll => exact h.driver hfit (.inr (.inr (.inr (.inl rfl))))
  | raise events => exact h.driver hfit (.inr (.inr (.inr (.inr (.inl ⟨events, rfl⟩)))))
  | event => exact h.driver hfit (.inr (.inr (.inr (.inr (.inr rfl)))))

/-- The state in which `COMEDI_CMD` leaves a subdevice. -/
def commanded (b : Board) (s : Subdevice) (req : CmdReq) (file : File) : Output :=
  { board := (doCmdIoctl b s req file).2.1, sub := (doCmdIoctl b s req file).2.2.1 }

theorem commanded_underway {b : Board} {req : CmdReq} (hfree : s.busy = none)
    (hsz : ∀ a, s.async = some a → a.preallocBufsz.toNat < 2 ^ 31)
    (hstart : (doCmdIoctl b s req file).2.2.1.busy = some (.file file)) :
    ∃ cap a, ∃ μ : Marks cap, Underway file (commanded b s req file) a μ := by
  obtain ⟨a, a', r, hs, ha, hr, he, hsub⟩ := doCmdIoctl_started hfree hstart
  have hread : a'.bufReadPtr = 0 ∧ a'.bufWritePtr = 0 := by
    rw [← ha.reset]
    exact ⟨rfl, rfl⟩
  have ht := Tracks.start a'
  rw [ha.reset] at ht
  have hloc : Located s a' (Marks.start a'.preallocBufsz.toNat) := by
    refine ⟨ht, ha.mungeOk (hsz a hs), ?_, ?_⟩
    · rw [hread.2]
      exact (Nat.zero_mod _).symm
    · rw [hread.1]
      exact (Nat.zero_mod _).symm
  refine ⟨_, a', Marks.start a'.preallocBufsz.toNat, ?_⟩
  unfold commanded
  rw [hsub]
  generalize (doCmdIoctl b s req file).2.1 = b'
  exact
    { async := rfl
      located := hloc.congr rfl
      owned := .inl rfl
      calls := fun _ _ hp => nomatch hp
      alone := fun _ _ _ hp => nomatch hp
      committed := rfl
      returns := fun _ hr => nomatch hr
      count := fun _ => rfl }

theorem Underway.copyInside (h : Underway file st a μ) {n : U32} (hp : st.calls id = some p)
    (ht : p.turn = .copying n) : CopyInside a n := by
  obtain ⟨-, -, -, hend, hheld⟩ := (h.calls id p hp).copies n ht
  have := μ.writeAlloc_le
  exact h.located.copyInside hend (by omega)

/-- The bytes committed to the ring are those the calls say they have taken, in the order in which
they return. Every copy stays inside the buffer and the free part of the ring, and the return
values tell a full ring, a stopped command and an error as they are. -/
theorem output_writes {b : Board} {req : CmdReq} (hfree : s.busy = none)
    (hsz : ∀ a, s.async = some a → a.preallocBufsz.toNat < 2 ^ 31)
    (hstart : (doCmdIoctl b s req file).2.2.1.busy = some (.file file)) {steps : List OutputStep}
    (hfit : AllFit (outputStep file) OutputFits (commanded b s req file) steps) :
    ∃ st, GuardedRuns.run (outputStep file) (commanded b s req file) steps = .ok st ∧
      st.committed = st.returns.flatMap (·.accepted) ∧
      (st.sub.busy ≠ none → ∃ a, st.sub.async = some a ∧
        a.bufWriteCount = .ofNat 32 st.committed.length) ∧
      (∀ id p n, st.calls id = some p → p.turn = .copying n →
        ∃ a, st.sub.async = some a ∧ CopyInside a n) ∧
      ∀ r ∈ st.returns, ReturnOk r := by
  obtain ⟨cap, a, μ, h⟩ := commanded_underway hfree hsz hstart
  obtain ⟨st, hrun, a', μ', h'⟩ := run_total (fun st => ∃ a, ∃ μ : Marks cap, Underway file st a μ)
    (fun st x ⟨a, μ, h⟩ hx => by
      obtain ⟨st', a', μ', he, h'⟩ := outputStep_underway h hx
      exact ⟨st', he, a', μ', h'⟩) ⟨a, μ, h⟩ hfit
  refine ⟨st, hrun, h'.committed, fun hb => ⟨a', h'.async, ?_⟩, fun id p n hp ht =>
    ⟨a', h'.async, h'.copyInside hp ht⟩, h'.returns⟩
  rw [h'.located.tracks.writeCount, h'.count hb]

/-- An output subdevice with one channel and a page of buffer, and a command that its test
accepts. -/
def player : Subdevice where
  type := .ao
  subdevFlags := sdfCmdWrite
  nChan := 1
  rangeTable := some { length := 1 }
  async := some { preallocBufsz := 4096 }

def playerCmd : CmdReq where
  cmd := { chanlistLen := 1 }
  entries := some fun _ => 0
  test := .accepting

def played (steps : List OutputStep) : Output :=
  match GuardedRuns.run (outputStep 0) (commanded {} player playerCmd 0) steps with
  | .ok st => st
  | .error _ => { sub := player }

/-- Two samples, of which the driver takes one before the command stops. -/
def twoSamples : List OutputStep :=
  [.write 0 4 false 1 [1, 2, 3, 4], .copy 0, .get, .poll, .raise comediCbEoa, .event,
    .write 0 2 false 0 [5, 6], .acquire 0]

theorem output_of_two_samples :
    ∃ st, GuardedRuns.run (outputStep 0) (commanded {} player playerCmd 0) twoSamples = .ok st ∧
      st.committed = st.returns.flatMap (·.accepted) ∧
      (st.sub.busy ≠ none → ∃ a, st.sub.async = some a ∧
        a.bufWriteCount = .ofNat 32 st.committed.length) ∧
      (∀ id p n, st.calls id = some p → p.turn = .copying n →
        ∃ a, st.sub.async = some a ∧ CopyInside a n) ∧
      ∀ r ∈ st.returns, ReturnOk r := by
  refine output_writes rfl ?_ rfl ?_
  · intro a ha
    cases ha
    decide
  · refine .cons ⟨rfl, rfl, nofun⟩ rfl (.cons trivial rfl (.cons trivial rfl (.cons trivial rfl
      (.cons trivial rfl (.cons trivial rfl (.cons ⟨rfl, rfl, ?_⟩ rfl (.cons trivial rfl trivial)))))))
    intro id p n hp
    obtain ⟨hne, hp⟩ := removed hp
    rcases inserted hp with ⟨he, -⟩ | ⟨-, hp⟩
    · exact absurd he hne
    · cases hp

/-- A write after the one that returned `-EPIPE` returns 0 with the error still recorded; a driver
that asks for half the counter range too much makes an empty ring look full; and a call that
releases the subdevice while another copies makes that one's bytes disappear. -/
theorem output_write_failures :
    ((played [.raise comediCbError, .event, .write 0 2 false 0 [1, 2], .acquire 0,
        .write 1 2 false 0 [3, 4]]).returns.map (·.ret) = [-epipe, 0] ∧
      (played [.raise comediCbError, .event, .write 0 2 false 0 [1, 2], .acquire 0,
        .write 1 2 false 0 [3, 4]]).sub.runflags &&& srfError ≠ 0) ∧
    ((played [.readAlloc 0xfffff000, .readFree 0xfffff000, .write 0 2 true 0 [1, 2]]).returns.map
        (·.ret) = [-eagain] ∧
      (played [.readAlloc 0xfffff000, .readFree 0xfffff000,
        .write 0 2 true 0 [1, 2]]).committed = []) ∧
    (played [.write 0 2 false 0 [1, 2], .raise comediCbEoa, .event, .write 1 2 false 0 [3, 4],
        .acquire 1, .copy 0]).returns.map (·.ret) = [0, 2] ∧
      (played [.write 0 2 false 0 [1, 2], .raise comediCbEoa, .event, .write 1 2 false 0 [3, 4],
        .acquire 1, .copy 0]).committed = [] := by
  refine ⟨⟨rfl, ?_⟩, ⟨rfl, rfl⟩, rfl, rfl⟩
  decide

end Comedi.OutputWrites
