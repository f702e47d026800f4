import Comedi.DataModel

namespace Comedi.RtPendTq

def rtPendTqSize : Nat := 16

section Model

variable {F A : Type}

structure Slot (F A : Type) where
  func : Option F
  arg1 : Int
  arg2 : A

/-- `rt_pend_head` and `rt_pend_tail` are indexes of the array. -/
structure Queue (F A : Type) where
  slots : Nat → Slot F A
  head : Nat
  tail : Nat
  irq : Int

def incCircularPtr (p : Nat) : Nat := if rtPendTqSize ≤ p + 1 then 0 else p + 1

def decCircularPtr (p : Nat) : Nat := if p = 0 then rtPendTqSize - 1 else p - 1

/-- `rt_pend_call`, of which nothing is seen by the handler but the whole. -/
def rtPendCall (q : Queue F A) (request : Slot F A) : Int × Queue F A :=
  if request.func.isNone then (-einval, q)
  else if q.irq ≤ 0 then (-enodev, q)
  else
    let head := incCircularPtr q.head
    if head = q.tail then (-eagain, { q with head := decCircularPtr head })
    else (0, { q with head := head, slots := Function.update q.slots head request })

/-- The statements of the loop of `rt_pend_irq_handler`. -/
inductive Pc where
  | returned
  | test
  | advance
  | call
  deriving DecidableEq, Repr

/-- The queue and the handler, with the requests that have been accepted and the calls that have
been made. -/
structure Machine (F A : Type) where
  queue : Queue F A
  pc : Pc := .returned
  pended : Bool := false
  accepted : List (Slot F A) := []
  executed : List (Slot F A) := []

def rtPendTqInit (slots : Nat → Slot F A) (irq : Int) : Machine F A where
  queue := ⟨slots, 0, 0, irq⟩

inductive Event (F A : Type) where
  | request (r : Slot F A)
  | dispatch
  | handler

/-- An accepted request pends the interrupt, and from there the handler is entered. -/
def step (m : Machine F A) : Event F A → Machine F A
  | .request r =>
    let (ret, q) := rtPendCall m.queue r
    if ret = 0 then { m with queue := q, pended := true, accepted := m.accepted ++ [r] }
    else { m with queue := q }
  | .dispatch =>
    if m.pended ∧ m.pc = .returned then { m with pended := false, pc := .test } else m
  | .handler =>
    match m.pc with
    | .returned => m
    | .test => { m with pc := if m.queue.head ≠ m.queue.tail then .advance else .returned }
    | .advance =>
      { m with pc := .call, queue := { m.queue with tail := incCircularPtr m.queue.tail } }
    | .call =>
      { m with pc := .test, executed := m.executed ++ [m.queue.slots m.queue.tail] }

def run (m : Machine F A) (events : List (Event F A)) : Machine F A := events.foldl step m

/-- The request that the handler has advanced to, but not called yet. -/
def inHand (m : Machine F A) : Nat := if m.pc = .call then 1 else 0

def taken (m : Machine F A) : Nat := m.executed.length + inHand m

/-- The requests that the handler has not advanced to. -/
def waiting (m : Machine F A) : List (Slot F A) := m.accepted.drop (taken m)

end Model

variable {F A : Type} {m : Machine F A}

theorem taken_call (hpc : m.pc = .call) : taken m = m.executed.length + 1 := by
  unfold taken inHand
  rw [if_pos hpc]

theorem taken_not_call (hpc : m.pc ≠ .call) : taken m = m.executed.length := by
  unfold taken inHand
  rw [if_neg hpc, Nat.add_zero]

/-- The requests of the stream that are not executed yet are in their slots. -/
structure Inv (m : Machine F A) : Prop where
  head : m.queue.head = m.accepted.length % 16
  tail : m.queue.tail = taken m % 16
  taken_le : taken m ≤ m.accepted.length
  room : m.accepted.length ≤ taken m + 15
  stored : ∀ k r, m.executed.length ≤ k → m.accepted[k]? = some r →
    m.queue.slots ((k + 1) % 16) = r
  executed : m.executed = m.accepted.take m.executed.length
  advance : m.pc = .advance → taken m < m.accepted.length
  pended : taken m < m.accepted.length → m.pended ∨ m.pc ≠ .returned

theorem Inv.init (slots : Nat → Slot F A) (irq : Int) : Inv (rtPendTqInit slots irq) where
  head := rfl
  tail := rfl
  taken_le := Nat.le_refl 0
  room := Nat.zero_le _
  stored _ _ _ h := absurd h (by simp [rtPendTqInit])
  executed := rfl
  advance h := nomatch h
  pended h := absurd h (Nat.lt_irrefl 0)

theorem incCircularPtr_mod (n : Nat) : incCircularPtr (n % 16) = (n + 1) % 16 := by
  unfold incCircularPtr rtPendTqSize
  split
  · omega
  · omega

theorem decCircularPtr_inc {p : Nat} (h : p < 16) : decCircularPtr (incCircularPtr p) = p := by
  unfold decCircularPtr incCircularPtr rtPendTqSize
  split
  · rw [if_pos rfl]
    omega
  · rw [if_neg (Nat.succ_ne_zero p)]
    rfl

theorem Inv.head_lt (h : Inv m) : m.queue.head < 16 := by
  rw [h.head]
  exact Nat.mod_lt _ (by decide)

/-- What `rt_pend_call` can do. -/
theorem rtPendCall_cases (h : Inv m) (r : Slot F A) :
    (rtPendCall m.queue r).1 ≠ 0 ∧ (rtPendCall m.queue r).2 = m.queue ∧
        ((rtPendCall m.queue r).1 = -eagain → m.accepted.length = taken m + 15) ∨
      m.accepted.length < taken m + 15 ∧
        rtPendCall m.queue r = (0, { m.queue with
          head := (m.accepted.length + 1) % 16
          slots := Function.update m.queue.slots ((m.accepted.length + 1) % 16) r }) := by
  have hnext : incCircularPtr m.queue.head = (m.accepted.length + 1) % 16 := by
    rw [h.head, incCircularPtr_mod]
  have hle := h.taken_le
  have hroom := h.room
  unfold rtPendCall
  split
  · exact .inl ⟨show -einval ≠ 0 by decide, rfl, fun h => absurd h (show -einval ≠ _ by decide)⟩
  split
  · exact .inl ⟨show -enodev ≠ 0 by decide, rfl, fun h => absurd h (show -enodev ≠ _ by decide)⟩
  dsimp only
  split
  · next hfull =>
    rw [hnext, h.tail] at hfull
    refine .inl ⟨show -eagain ≠ 0 by decide, ?_, fun _ => by omega⟩
    dsimp only
    rw [decCircularPtr_inc h.head_lt]
  · next hfree =>
    rw [hnext, h.tail] at hfree
    refine .inr ⟨by omega, ?_⟩
    rw [hnext]

theorem Inv.request (h : Inv m) (r : Slot F A) : Inv (step m (.request r)) := by
  unfold step
  dsimp only
  rcases rtPendCall_cases h r with ⟨hret, hq, -⟩ | ⟨hroom, heq⟩
  · rw [if_neg hret, hq]
    exact h
  · rw [heq, if_pos rfl]
    have hle := h.taken_le
    have hlen : (m.accepted ++ [r]).length = m.accepted.length + 1 := by simp
    refine ⟨?_, h.tail, ?_, ?_, ?_, ?_, ?_, fun _ => .inl rfl⟩
    · exact congrArg (· % 16) hlen.symm
    · change taken m ≤ (m.accepted ++ [r]).length
      omega
    · change (m.accepted ++ [r]).length ≤ taken m + 15
      omega
    · intro k r' hk hget
      dsimp only at hk hget ⊢
      have hhand : taken m ≤ m.executed.length + 1 := by
        unfold taken inHand
        split
        · omega
        · omega
      rcases Nat.lt_trichotomy k m.accepted.length with hlt | heq | hgt
      · rw [List.getElem?_append_left hlt] at hget
        rw [Function.update_of_ne (by omega)]
        exact h.stored k r' hk hget
      · subst heq
        rw [List.getElem?_concat_length] at hget
        rw [Function.update_self]
        exact Option.some_inj.mp hget
      · rw [List.getElem?_eq_none (by omega)] at hget
        exact absurd hget (by simp)
    · dsimp only
      have hexec : m.executed.length ≤ m.accepted.length := by
        unfold taken at hle
        omega
      rw [List.take_append_of_le_length hexec]
      exact h.executed
    · intro hpc
      change taken m < (m.accepted ++ [r]).length
      have := h.advance hpc
      omega

theorem Inv.dispatch (h : Inv m) : Inv (step m .dispatch) := by
  unfold step
  dsimp only
  split
  · next hpend =>
    have htaken : taken { m with pended := false, pc := .test } = taken m := by
      unfold taken inHand
      dsimp only
      rw [hpend.2]
      rfl
    refine ⟨h.head, ?_, ?_, ?_, h.stored, h.executed, nofun, fun _ => .inr nofun⟩
    · rw [htaken]
      exact h.tail
    · rw [htaken]
      exact h.taken_le
    · rw [htaken]
      exact h.room
  · exact h

theorem getElem?_waiting (h : Inv m) (hlt : m.executed.length < m.accepted.length) :
    m.accepted[m.executed.length]? =
      some (m.queue.slots ((m.executed.length + 1) % 16)) := by
  obtain ⟨r, hr⟩ : ∃ r, m.accepted[m.executed.length]? = some r :=
    ⟨_, List.getElem?_eq_getElem hlt⟩
  rw [hr, h.stored _ r (Nat.le_refl _) hr]

theorem Inv.handler (h : Inv m) : Inv (step m .handler) := by
  have hle := h.taken_le
  have hroom := h.room
  unfold step
  dsimp only
  split
  · exact h
  · next hpc =>
    have hhand := taken_not_call (m := m) (by rw [hpc]; nofun)
    have htail := h.tail
    rw [hhand] at hle hroom htail
    split
    · next hmore =>
      refine ⟨h.head, htail, hle, hroom, h.stored, h.executed, fun _ => ?_, fun _ => .inr nofun⟩
      change m.executed.length < m.accepted.length
      rw [h.head, htail] at hmore
      omega
    · next hnone =>
      refine ⟨h.head, htail, hle, hroom, h.stored, h.executed, nofun, fun hlt => ?_⟩
      change m.executed.length < m.accepted.length at hlt
      rw [h.head, htail] at hnone
      omega
  · next hpc =>
    have hhand := taken_not_call (m := m) (by rw [hpc]; nofun)
    have hlt := h.advance hpc
    refine ⟨h.head, ?_, ?_, ?_, h.stored, h.executed, nofun, fun _ => .inr nofun⟩
    · change incCircularPtr m.queue.tail = (m.executed.length + 1) % 16
      rw [h.tail, hhand, incCircularPtr_mod]
    · change m.executed.length + 1 ≤ m.accepted.length
      omega
    · change m.accepted.length ≤ m.executed.length + 1 + 15
      omega
  · next hpc =>
    have hhand := taken_call hpc
    have htail := h.tail
    rw [hhand] at hle hroom htail
    have hlen : (m.executed ++ [m.queue.slots m.queue.tail]).length = m.executed.length + 1 := by
      simp
    refine ⟨h.head, ?_, ?_, ?_, fun k r hk hget => ?_, ?_, nofun, fun _ => .inr nofun⟩
    · change _ = (m.executed ++ [m.queue.slots m.queue.tail]).length % 16
      rw [hlen]
      exact htail
    · change (m.executed ++ [m.queue.slots m.queue.tail]).length ≤ m.accepted.length
      omega
    · change m.accepted.length ≤ (m.executed ++ [m.queue.slots m.queue.tail]).length + 15
      omega
    · refine h.stored k r ?_ hget
      change (m.executed ++ [m.queue.slots m.queue.tail]).length ≤ k at hk
      omega
    · change _ = m.accepted.take (m.executed ++ [m.queue.slots m.queue.tail]).length
      rw [hlen, List.take_add_one, ← h.executed, getElem?_waiting h hle, htail]
      rfl

theorem Inv.run (h : Inv m) (events : List (Event F A)) : Inv (run m events) := by
  induction events generalizing m with
  | nil => exact h
  | cons e events ih =>
    refine ih ?_
    cases e with
    | request r => exact h.request r
    | dispatch => exact h.dispatch
    | handler => exact h.handler

section Handler

theorem step_call (hpc : m.pc = .call) : step m .handler =
    { m with pc := .test, executed := m.executed ++ [m.queue.slots m.queue.tail] } := by
  unfold step
  rw [hpc]

theorem step_advance (hpc : m.pc = .advance) : step m .handler =
    { m with pc := .call, queue := { m.queue with tail := incCircularPtr m.queue.tail } } := by
  unfold step
  rw [hpc]

theorem step_test (hpc : m.pc = .test) (hne : m.queue.head ≠ m.queue.tail) :
    step m .handler = { m with pc := .advance } := by
  unfold step
  rw [hpc]
  dsimp only
  rw [if_pos hne]

theorem executed_of_length (h : Inv m) (hlen : m.accepted.length ≤ m.executed.length) :
    m.executed = m.accepted :=
  h.executed.trans (List.take_of_length_le hlen)

/-- While there is something to do, a pass of the loop makes one more call. -/
theorem handler_pass (h : Inv m) (hpc : m.pc ≠ .returned)
    (hlt : m.executed.length < m.accepted.length) :
    ∃ n, let m' := RtPendTq.run m (List.replicate n .handler)
      m'.pc ≠ .returned ∧ m'.accepted = m.accepted ∧
        m'.executed.length = m.executed.length + 1 := by
  match hcase : m.pc with
  | .returned => exact absurd hcase hpc
  | .test =>
    have hne : m.queue.head ≠ m.queue.tail := by
      have hhand := taken_not_call (m := m) (by rw [hcase]; nofun)
      have hroom := h.room
      rw [h.head, h.tail, hhand]
      omega
    refine ⟨3, ?_⟩
    dsimp only [RtPendTq.run, List.replicate, List.foldl]
    rw [step_test hcase hne, step_advance (m := { m with pc := .advance }) rfl, step_call rfl]
    exact ⟨nofun, rfl, List.length_append⟩
  | .advance =>
    refine ⟨2, ?_⟩
    dsimp only [RtPendTq.run, List.replicate, List.foldl]
    rw [step_advance hcase, step_call rfl]
    exact ⟨nofun, rfl, List.length_append⟩
  | .call =>
    refine ⟨1, ?_⟩
    dsimp only [RtPendTq.run, List.replicate, List.foldl]
    rw [step_call hcase]
    exact ⟨nofun, rfl, List.length_append⟩

/-- Left to itself, the handler executes all that has been accepted. -/
theorem handler_settles (left : Nat) (h : Inv m) (hpc : m.pc ≠ .returned)
    (hleft : m.accepted.length ≤ m.executed.length + left) :
    ∃ n, (RtPendTq.run m (List.replicate n .handler)).executed = m.accepted := by
  induction left generalizing m with
  | zero => exact ⟨0, executed_of_length h hleft⟩
  | succ left ih =>
    rcases Nat.lt_or_ge m.executed.length m.accepted.length with hlt | hge
    · obtain ⟨k, hpc', hacc, hlen⟩ := handler_pass h hpc hlt
      obtain ⟨n, hn⟩ := ih (h.run _) hpc' (by rw [hacc]; omega)
      refine ⟨k + n, ?_⟩
      rw [← hacc, ← hn, List.replicate_add]
      exact congrArg Machine.executed List.foldl_append
    · exact ⟨0, executed_of_length h hge⟩

/-- And it is left to itself: what is accepted is executed or the interrupt is pended. -/
theorem settles (h : Inv m) :
    ∃ n, (RtPendTq.run m (.dispatch :: List.replicate n .handler)).executed = m.accepted := by
  have hacc : (step m .dispatch).accepted = m.accepted := by
    unfold step
    dsimp only
    split
    · rfl
    · rfl
  have hexec : (step m .dispatch).executed = m.executed := by
    unfold step
    dsimp only
    split
    · rfl
    · rfl
  by_cases hpc : (step m .dispatch).pc = .returned
  · have hidle : ¬ (m.pended = true ∧ m.pc = .returned) := by
      intro hpend
      unfold step at hpc
      dsimp only at hpc
      rw [if_pos hpend] at hpc
      exact absurd hpc nofun
    have hsame : step m .dispatch = m := if_neg hidle
    rw [hsame] at hpc
    have hall : m.accepted.length ≤ m.executed.length := by
      by_contra hlt
      have hhand := taken_not_call (m := m) (by rw [hpc]; nofun)
      rcases h.pended (by omega) with hpend | hne
      · exact hidle ⟨hpend, hpc⟩
      · exact hne hpc
    refine ⟨0, ?_⟩
    change (step m .dispatch).executed = _
    rw [hexec]
    exact executed_of_length h hall
  · obtain ⟨n, hn⟩ := handler_settles (step m .dispatch).accepted.length h.dispatch hpc (by omega)
    exact ⟨n, hn.trans hacc⟩

end Handler

/-- In every run, the calls that the handler has made are the first of the accepted requests, in
their order; it makes all of them when it is left to itself; a request is refused for want of room
only when 15 are waiting, and then, as for every other refusal, the queue stays as it is. -/
theorem calls_exactly_once (slots : Nat → Slot F A) (irq : Int) (events : List (Event F A)) :
    let m := run (rtPendTqInit slots irq) events
    m.executed <+: m.accepted ∧
      (∃ n, (run m (.dispatch :: List.replicate n .handler)).executed = m.accepted) ∧
      (m.pc = .returned → m.pended = false → m.executed = m.accepted) ∧
      ∀ r, ((rtPendCall m.queue r).1 = -eagain → (waiting m).length = rtPendTqSize - 1) ∧
        ((rtPendCall m.queue r).1 ≠ 0 → (rtPendCall m.queue r).2 = m.queue) := by
  intro m
  have h : Inv m := (Inv.init slots irq).run events
  refine ⟨?_, settles h, fun hpc hpend => ?_, fun r => ⟨fun hfull => ?_, fun hret => ?_⟩⟩
  · rw [h.executed]
    exact List.take_prefix _ _
  · refine executed_of_length h (Nat.le_of_not_lt fun hlt => ?_)
    have hhand := taken_not_call (m := m) (by rw [hpc]; nofun)
    rcases h.pended (by omega) with hpend' | hne
    · exact absurd (hpend.symm.trans hpend') nofun
    · exact hne hpc
  · rcases rtPendCall_cases h r with ⟨-, -, hwait⟩ | ⟨-, heq⟩
    · unfold waiting rtPendTqSize
      rw [List.length_drop, hwait hfull, Nat.add_sub_cancel_left]
    · rw [heq] at hfull
      exact absurd hfull (show (0 : Int) ≠ -eagain by decide)
  · rcases rtPendCall_cases h r with ⟨-, hq, -⟩ | ⟨-, heq⟩
    · exact hq
    · rw [heq] at hret
      exact absurd rfl hret

end Comedi.RtPendTq
