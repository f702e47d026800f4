import Comedi.Jr3Polling

namespace Comedi.Jr3StartUp

open Jr3Polling

def pollsOf (history : List Event) : List Poll :=
  history.filterMap fun e => match e with
    | .poll p => some p
    | .read _ _ => none

/-- A poll or a read that saw that the sensor is not there or another one. -/
def SawError : Event → Prop
  | .poll p => lost p.regs.errors
  | .read none _ => False
  | .read (some errors) _ => lost errors

/-- The commands that a poll has given. -/
def issued (p : Poll) : List U16 :=
  p.writes.filterMap fun x => if x.1 = .commandWord0 then some x.2 else none

/-- A poll in state `s` that gives no command. -/
def Quiet (s : State) (p : Poll) : Prop := p.state = s ∧ issued p = []

def Issues (s : State) (command : U16) (p : Poll) : Prop := p.state = s ∧ issued p = [command]

/-- Ten offset waits, with the transform command at the end. -/
def Waited (l : List Poll) : Prop :=
  ∃ a p, l = a ++ [p] ∧ a.length = 9 ∧ (∀ q ∈ a, Quiet .initWaitForOffset q) ∧
    Issues .initWaitForOffset 0x0500 p

/-- Polls in state `s` up to one that finds the last command complete and gives the next one. -/
def Completed (s : State) (command : U16) (l : List Poll) : Prop :=
  ∃ a p, l = a ++ [p] ∧ (∀ q ∈ a, Quiet s q) ∧ p.regs.commandWord0 = 0 ∧ Issues s command p

/-- The start-up sequence: the offset waits, and the transform, the full scale and the offset
commands. -/
def StartUp (l : List Poll) : Prop :=
  ∃ l₁ l₂ l₃ l₄, l = l₁ ++ l₂ ++ l₃ ++ l₄ ∧ Waited l₁ ∧
    Completed .initTransformComplete 0x0a00 l₂ ∧ Completed .initSetFullScaleComplete 0x0600 l₃ ∧
    Completed .initUseOffsetComplete 0x0700 l₄

/-- At the end of the history, with no error since, are the polls `l`. -/
def Since (history : List Event) (l : List Poll) : Prop :=
  ∃ before since, history = before ++ since ∧ (∀ e ∈ since, ¬ SawError e) ∧ pollsOf since = l

/-- The polls that have brought a channel to its state. -/
def Stage : State → Nat → List Poll → Prop
  | .poll, _, _ => True
  | .initWaitForOffset, n, l =>
    l.length = n ∧ n < 10 ∧ ∀ q ∈ l, Quiet .initWaitForOffset q
  | .initTransformComplete, _, l =>
    ∃ l₁ a, l = l₁ ++ a ∧ Waited l₁ ∧ ∀ q ∈ a, Quiet .initTransformComplete q
  | .initSetFullScaleComplete, _, l =>
    ∃ l₁ l₂ a, l = l₁ ++ l₂ ++ a ∧ Waited l₁ ∧ Completed .initTransformComplete 0x0a00 l₂ ∧
      ∀ q ∈ a, Quiet .initSetFullScaleComplete q
  | .initUseOffsetComplete, _, l =>
    ∃ l₁ l₂ l₃ a, l = l₁ ++ l₂ ++ l₃ ++ a ∧ Waited l₁ ∧
      Completed .initTransformComplete 0x0a00 l₂ ∧
      Completed .initSetFullScaleComplete 0x0600 l₃ ∧
      ∀ q ∈ a, Quiet .initUseOffsetComplete q
  | .done, _, l => ∃ l₁ a, l = l₁ ++ a ∧ StartUp l₁

variable {w n : Nat} {ms : Nat → BitVec w} {c : Channel w} {r : Regs} {t : Tick w}
  {history : List Event} {l a : List Poll} {p : Poll} {s : State}

theorem Since.nil (history : List Event) : Since history [] :=
  ⟨history, [], (List.append_nil _).symm, nofun, rfl⟩

theorem Since.poll (h : Since history l) (hp : ¬ lost p.regs.errors) :
    Since (history ++ [.poll p]) (l ++ [p]) := by
  obtain ⟨before, since, rfl, hclean, rfl⟩ := h
  refine ⟨before, since ++ [.poll p], List.append_assoc .., ?_, ?_⟩
  · intro e he
    rcases List.mem_append.mp he with he | he
    · exact hclean e he
    · rw [List.mem_singleton.mp he]
      exact hp
  · unfold pollsOf
    rw [List.filterMap_append]
    rfl

theorem Since.read {errors : Option U16} {ret : Int} (h : Since history l)
    (hr : ¬ SawError (.read errors ret)) : Since (history ++ [.read errors ret]) l := by
  obtain ⟨before, since, rfl, hclean, rfl⟩ := h
  refine ⟨before, since ++ [.read errors ret], List.append_assoc .., ?_, ?_⟩
  · intro e he
    rcases List.mem_append.mp he with he | he
    · exact hclean e he
    · rw [List.mem_singleton.mp he]
      exact hr
  · unfold pollsOf
    rw [List.filterMap_append]
    exact List.append_nil _

theorem quiet_append (ha : ∀ q ∈ a, Quiet s q) (hp : Quiet s p) : ∀ q ∈ a ++ [p], Quiet s q := by
  intro q hq
  rcases List.mem_append.mp hq with hq | hq
  · exact ha q hq
  · rwa [List.mem_singleton.mp hq]

theorem append_last : l ++ a ++ [p] = l ++ (a ++ [p]) ++ [] := by
  rw [List.append_nil, List.append_assoc]

theorem issued_setFullScales (fullScale : Nat → U16) (p : Poll)
    (h : p.writes = setFullScales fullScale) : issued p = [0x0a00] := by
  unfold issued
  rw [h]
  rfl

/-- What holds of a channel in every run. -/
structure Inv (ms : Nat → BitVec w) (c : Channel w) : Prop where
  next : c.nextTimeMin = c.polledAt + ms c.delayMin
  stage : ∃ l, Since c.history l ∧ Stage c.state c.retries l

/-- A poll without an error brings the channel from one stage to the next. -/
theorem stage_poll (hr : ¬ lost r.errors) (h : Stage c.state c.retries l) :
    (jr3PciPollSubdevice c r).channel.state = .poll ∨
      (jr3PciPollSubdevice c r).channel.state = .initWaitForOffset ∧
        (jr3PciPollSubdevice c r).channel.retries = 0 ∨
      Stage (jr3PciPollSubdevice c r).channel.state (jr3PciPollSubdevice c r).channel.retries
        (l ++ [⟨stateAfterErrors c r, r, (jr3PciPollSubdevice c r).writes⟩]) := by
  have hstate : stateAfterErrors c r = c.state := if_neg hr
  unfold jr3PciPollSubdevice
  rw [hstate]
  dsimp only
  cases hs : c.state with
  | poll =>
    dsimp only
    split
    · exact .inl rfl
    · exact .inr (.inl ⟨rfl, rfl⟩)
  | initWaitForOffset =>
    rw [hs] at h
    obtain ⟨hlen, hlt, hquiet⟩ := h
    dsimp only
    split
    next hmore =>
      refine .inr (.inr ⟨?_, hmore, quiet_append hquiet ⟨rfl, rfl⟩⟩)
      rw [List.length_append, hlen]
      rfl
    next hmore =>
      refine .inr (.inr ⟨_, [], (List.append_nil _).symm, ⟨l, _, rfl, by omega, hquiet, rfl, rfl⟩,
        nofun⟩)
  | initTransformComplete =>
    rw [hs] at h
    obtain ⟨l₁, a, rfl, hwaited, hquiet⟩ := h
    dsimp only
    split
    · refine .inr (.inr ⟨l₁, _, List.append_assoc .., hwaited, quiet_append hquiet ⟨rfl, rfl⟩⟩)
    next hcomplete =>
      exact .inr (.inr ⟨l₁, _, [], append_last, hwaited, ⟨a, _, rfl, hquiet, not_not.mp hcomplete,
        rfl, issued_setFullScales r.maxFullScale _ rfl⟩, nofun⟩)
  | initSetFullScaleComplete =>
    rw [hs] at h
    obtain ⟨l₁, l₂, a, rfl, hwaited, hscaled, hquiet⟩ := h
    dsimp only
    split
    · refine .inr (.inr ⟨l₁, l₂, _, List.append_assoc .., hwaited, hscaled,
        quiet_append hquiet ⟨rfl, rfl⟩⟩)
    next hcomplete =>
      exact .inr (.inr ⟨l₁, l₂, _, [], append_last, hwaited, hscaled,
        ⟨a, _, rfl, hquiet, not_not.mp hcomplete, rfl, rfl⟩, nofun⟩)
  | initUseOffsetComplete =>
    rw [hs] at h
    obtain ⟨l₁, l₂, l₃, a, rfl, hwaited, hscaled, hset, hquiet⟩ := h
    dsimp only
    split
    · refine .inr (.inr ⟨l₁, l₂, l₃, _, List.append_assoc .., hwaited, hscaled, hset,
        quiet_append hquiet ⟨rfl, rfl⟩⟩)
    next hcomplete =>
      refine .inr (.inr ⟨_, [], (List.append_nil _).symm, l₁, l₂, l₃, _, List.append_assoc ..,
        hwaited, hscaled, hset, a, _, rfl, hquiet, not_not.mp hcomplete, rfl, rfl⟩)
  | done =>
    rw [hs] at h
    obtain ⟨l₁, a, rfl, hstarted⟩ := h
    exact .inr (.inr ⟨l₁, _, List.append_assoc .., hstarted⟩)

/-- An error brings a channel back to the beginning, whatever its state is. -/
theorem state_of_lost (hr : lost r.errors) :
    (jr3PciPollSubdevice c r).channel.state = .poll ∨
      (jr3PciPollSubdevice c r).channel.state = .initWaitForOffset ∧
        (jr3PciPollSubdevice c r).channel.retries = 0 := by
  have hstate : stateAfterErrors c r = .poll := if_pos hr
  unfold jr3PciPollSubdevice
  rw [hstate]
  dsimp only
  split
  · exact .inl rfl
  · exact .inr ⟨rfl, rfl⟩

theorem Inv.poll (h : Inv ms c) (t : Tick w) (i : Nat) : Inv ms (pollChannel ms t i c).1 := by
  have hrestart : ∀ s m, s = State.poll ∨ s = .initWaitForOffset ∧ m = 0 → Stage s m [] := by
    rintro s m (rfl | ⟨rfl, rfl⟩)
    · trivial
    · exact ⟨rfl, by omega, nofun⟩
  refine ⟨rfl, ?_⟩
  unfold pollChannel
  dsimp only
  by_cases hr : lost (t.regs i).errors
  · exact ⟨[], Since.nil _, hrestart _ _ (state_of_lost hr)⟩
  · obtain ⟨l, hsince, hstage⟩ := h.stage
    rcases stage_poll hr hstage with hpoll | hwait | hnext
    · exact ⟨[], Since.nil _, hrestart _ _ (.inl hpoll)⟩
    · exact ⟨[], Since.nil _, hrestart _ _ (.inr hwait)⟩
    · exact ⟨_, hsince.poll hr, hnext⟩

theorem Inv.read (h : Inv ms c) (chanspec n : U32) (r : Reading) :
    Inv ms (jr3PciAiInsnRead c chanspec n r).2.2 := by
  obtain ⟨l, hsince, hstage⟩ := h.stage
  unfold jr3PciAiInsnRead
  dsimp only
  split
  · exact h
  · refine ⟨h.next, ?_⟩
    by_cases hdone : c.state = .done
    · by_cases hr : lost r.errors
      · refine ⟨[], Since.nil _, ?_⟩
        dsimp only
        rw [if_pos ⟨.inr hr, hdone⟩]
        trivial
      · have hagain : ¬ (c.state ≠ .done ∨ lost r.errors) := not_or.mpr ⟨not_not.mpr hdone, hr⟩
        refine ⟨l, hsince.read ?_, ?_⟩
        · rw [if_pos hdone]
          exact hr
        · dsimp only
          rw [if_neg fun hboth => hagain hboth.1]
          exact hstage
    · refine ⟨l, hsince.read ?_, ?_⟩
      · rw [if_neg hdone]
        exact id
      · dsimp only
        rw [if_neg fun hboth => hdone hboth.2]
        exact hstage

theorem pollChannels_getElem? (t : Tick w) (cs : List (Channel w)) (i delay k : Nat) :
    (pollChannels ms t i delay cs).2[k]? =
      cs[k]?.map fun c => if c.nextTimeMin < t.now then (pollChannel ms t (i + k) c).1 else c := by
  induction cs generalizing i delay k with
  | nil => rfl
  | cons c cs ih =>
    rw [pollChannels]
    split
    next hdue =>
      dsimp only
      cases k with
      | zero =>
        rw [List.getElem?_cons_zero, List.getElem?_cons_zero, Option.map_some, if_pos hdue]
        rfl
      | succ k =>
        rw [List.getElem?_cons_succ, List.getElem?_cons_succ, ih, Nat.add_right_comm, Nat.add_assoc]
    next hdue =>
      dsimp only
      cases k with
      | zero => rw [List.getElem?_cons_zero, List.getElem?_cons_zero, Option.map_some, if_neg hdue]
      | succ k =>
        rw [List.getElem?_cons_succ, List.getElem?_cons_succ, ih, Nat.add_right_comm, Nat.add_assoc]

theorem tick_getElem? {dev : Jr3PciDev w} (harmed : dev.expires ≠ none) (t : Tick w) (k : Nat) :
    (step ms dev (.tick t)).channels[k]? =
      dev.channels[k]?.map fun c =>
        if c.nextTimeMin < t.now then (pollChannel ms t k c).1 else c := by
  unfold step
  dsimp only
  rw [if_neg harmed]
  unfold jr3PciPollDev
  dsimp only
  rw [pollChannels_getElem?, Nat.zero_add]

/-- What holds of the device in every run. -/
structure Runs (ms : Nat → BitVec w) (dev : Jr3PciDev w) : Prop where
  armed : dev.expires ≠ none
  channels : ∀ (i : Nat) c, dev.channels[i]? = some c → Inv ms c

theorem Runs.step {dev : Jr3PciDev w} (h : Runs ms dev) (s : Step w) : Runs ms (step ms dev s) := by
  cases s with
  | tick t =>
    refine ⟨?_, fun i c hc => ?_⟩
    · unfold Jr3Polling.step
      dsimp only
      rw [if_neg h.armed]
      exact Option.some_ne_none _
    · rw [tick_getElem? h.armed, Option.map_eq_some_iff] at hc
      obtain ⟨c, hc, rfl⟩ := hc
      split
      · exact (h.channels i c hc).poll t i
      · exact h.channels i c hc
  | read k chanspec n r =>
    refine ⟨h.armed, fun i c hc => ?_⟩
    unfold Jr3Polling.step at hc
    dsimp only at hc
    rw [List.getElem?_modify, Option.map_eq_map, Option.map_eq_some_iff] at hc
    obtain ⟨c, hc, rfl⟩ := hc
    split
    · exact (h.channels i c hc).read chanspec n r
    · exact h.channels i c hc

theorem runs_of_reachable {dev : Jr3PciDev w} (h : Reachable ms dev) : Runs ms dev := by
  induction h with
  | attach nChannels jiffiesMin jiffiesMax jiffies =>
    refine ⟨Option.some_ne_none _, fun i c hc => ?_⟩
    unfold jr3PciAttach at hc
    dsimp only at hc
    rw [List.getElem?_map, Option.map_eq_some_iff] at hc
    obtain ⟨k, -, rfl⟩ := hc
    exact ⟨rfl, [], Since.nil _, trivial⟩
  | step h s ih => exact ih.step s

/-- The tick `now` comes more than the delay after the last poll, in elapsed jiffies. -/
def Due (ms : Nat → BitVec w) (c : Channel w) (now : BitVec w) : Prop :=
  ms c.delayMin < now - c.polledAt

/-- Since the last poll the counter has wrapped just if it does so before the next time. -/
def SameSide (c : Channel w) (now : BitVec w) : Prop :=
  now < c.polledAt ↔ c.nextTimeMin < c.polledAt

theorem compare_iff (polledAt min now : BitVec w) :
    (polledAt + min < now ↔ min < now - polledAt) ↔
      (now < polledAt ↔ polledAt + min < polledAt) := by
  have ht := polledAt.isLt
  have hm := min.isLt
  have hn := now.isLt
  simp only [BitVec.lt_def, BitVec.toNat_add, BitVec.toNat_sub]
  have hnext : (polledAt.toNat + min.toNat) % 2 ^ w =
      if polledAt.toNat + min.toNat < 2 ^ w then polledAt.toNat + min.toNat
      else polledAt.toNat + min.toNat - 2 ^ w := by
    split
    next h => exact Nat.mod_eq_of_lt h
    next h => rw [Nat.mod_eq_sub_mod (by omega), Nat.mod_eq_of_lt (by omega)]
  have helapsed : (2 ^ w - polledAt.toNat + now.toNat) % 2 ^ w =
      if now.toNat < polledAt.toNat then 2 ^ w - polledAt.toNat + now.toNat
      else now.toNat - polledAt.toNat := by
    split
    next h => exact Nat.mod_eq_of_lt (by omega)
    next h =>
      rw [Nat.mod_eq_sub_mod (by omega), Nat.mod_eq_of_lt (by omega)]
      omega
  rw [hnext, helapsed]
  split <;> split <;> omega

/-- The history of `c'` is that of `c` and a poll. -/
def WasPolled (c c' : Channel w) : Prop := ∃ p, c'.history = c.history ++ [.poll p]

theorem wasPolled_iff {t : Tick w} {i : Nat} {c' : Channel w}
    (h : c' = if c.nextTimeMin < t.now then (pollChannel ms t i c).1 else c) :
    WasPolled c c' ↔ c.nextTimeMin < t.now := by
  subst h
  split
  next hdue => exact iff_of_true ⟨_, rfl⟩ hdue
  next hdue =>
    refine iff_of_false (fun ⟨p, hp⟩ => ?_) hdue
    have hlen := congrArg List.length hp
    rw [List.length_append, List.length_singleton] at hlen
    omega

/-- Since the last error, the polls begin with a start-up sequence. -/
def Started (history : List Event) : Prop :=
  ∃ before since l, history = before ++ since ∧ (∀ e ∈ since, ¬ SawError e) ∧ StartUp l ∧
    l <+: pollsOf since

theorem Inv.started (h : Inv ms c) (hdone : c.state = .done) : Started c.history := by
  obtain ⟨l, ⟨before, since, hsplit, hclean, rfl⟩, hstage⟩ := h.stage
  rw [hdone] at hstage
  obtain ⟨l₁, a, hpolls, hstarted⟩ := hstage
  exact ⟨before, since, l₁, hsplit, hclean, hstarted, a, hpolls.symm⟩

/-- What comes since the last error comes behind every error. -/
theorem Started.behind {h₁ h₂ : List Event} {e : Event} (h : Started (h₁ ++ e :: h₂))
    (he : SawError e) : Started h₂ := by
  obtain ⟨before, since, l, hsplit, hclean, hstarted, hprefix⟩ := h
  rcases List.append_eq_append_iff.mp hsplit with ⟨m, rfl, hm⟩ | ⟨m, rfl, hm⟩
  · cases m with
    | nil =>
      rw [List.nil_append] at hm
      rw [← hm] at hclean
      exact absurd he (hclean e (List.mem_cons_self ..))
    | cons x m =>
      rw [List.cons_append] at hm
      exact ⟨m, since, l, (List.cons.inj hm).2, hclean, hstarted, hprefix⟩
  · rw [hm] at hclean
    exact absurd he (hclean e (List.mem_append_right _ (List.mem_cons_self ..)))

/-- A read answers only from a channel that has started and whose sensor is there. -/
theorem read_answers {chanspec n : U32} {r : Reading}
    (hchan : ChanlistCheck.crChan chanspec ≤ 57)
    (h : (jr3PciAiInsnRead c chanspec n r).1 ≠ -eagain) :
    c.state = .done ∧ ¬ lost r.errors := by
  unfold jr3PciAiInsnRead at h
  dsimp only at h
  rw [if_neg (BitVec.not_lt.mpr hchan)] at h
  dsimp only at h
  by_contra hnot
  refine h (if_pos ?_)
  tauto

/-- The schedule and the start-up order. The timer is always armed; at a tick a channel is polled
just if more than its delay has elapsed; it is done only after the start-up sequence; and after an
error no read answers before the whole sequence has been run again. -/
structure Kept (ms : Nat → BitVec w) (dev : Jr3PciDev w) : Prop where
  armed : dev.expires ≠ none
  schedule : ∀ (t : Tick w) (i : Nat) (c c' : Channel w), dev.channels[i]? = some c →
    (step ms dev (.tick t)).channels[i]? = some c' →
    ((WasPolled c c' ↔ Due ms c t.now) ↔ SameSide c t.now)
  startUp : ∀ c ∈ dev.channels, c.state = .done → Started c.history
  reads : ∀ c ∈ dev.channels, ∀ (chanspec n : U32) (r : Reading),
    ChanlistCheck.crChan chanspec ≤ 57 → (jr3PciAiInsnRead c chanspec n r).1 ≠ -eagain →
    ∀ h₁ e h₂, c.history = h₁ ++ e :: h₂ → SawError e → Started h₂

/-- All of it holds in every run, where a tick is on schedule just if the counter has wrapped since
the last poll as the next time has. -/
theorem polling_kept {dev : Jr3PciDev w} (h : Reachable ms dev) : Kept ms dev := by
  have hruns := runs_of_reachable h
  have hinv : ∀ c ∈ dev.channels, Inv ms c := by
    intro c hc
    obtain ⟨i, hi⟩ := List.mem_iff_getElem?.mp hc
    exact hruns.channels i c hi
  refine ⟨hruns.armed, ?_, fun c hc hdone => (hinv c hc).started hdone, ?_⟩
  · intro t i c c' hc hc'
    rw [tick_getElem? hruns.armed, hc, Option.map_some] at hc'
    rw [wasPolled_iff (Option.some.inj hc').symm]
    unfold Due SameSide
    rw [(hruns.channels i c hc).next]
    exact compare_iff c.polledAt (ms c.delayMin) t.now
  · intro c hc chanspec n r hchan hanswer h₁ e h₂ hsplit he
    have hstarted := (hinv c hc).started (read_answers hchan hanswer).1
    rw [hsplit] at hstarted
    exact hstarted.behind he

/-- A board with two channels after 2000 jiffies. -/
def twoChannels : Jr3PciDev 64 :=
  step (BitVec.ofNat 64)
    (jr3PciAttach (BitVec.ofNat 64) 2 (fun _ => 1000) (fun _ => 1000) 1000)
    (.tick {
      now := 2000
      regs := fun _ => ⟨0, 1, 1, 0, fun _ => 0, fun _ => 0⟩
      jiffiesMin := fun _ => 2000
      jiffiesMax := fun _ => 2000
      jiffies := 2000 })

theorem polling_kept_twoChannels : Kept (BitVec.ofNat 64) twoChannels :=
  polling_kept (.step (.attach 2 (fun _ => 1000) (fun _ => 1000) 1000) _)

/-- The counter is about to wrap when the board is attached. -/
def wrapping : Jr3PciDev 64 :=
  jr3PciAttach (BitVec.ofNat 64) 1 (fun _ => -100) (fun _ => -100) (-100)

/-- A tick 50 jiffies later. -/
def early : Tick 64 where
  now := -50
  regs := fun _ => ⟨0, 1, 1, 0, fun _ => 0, fun _ => 0⟩
  jiffiesMin := fun _ => -50
  jiffiesMax := fun _ => -50
  jiffies := -50

theorem polled_early :
    Reachable (BitVec.ofNat 64) wrapping ∧
      ∃ c c', wrapping.channels[0]? = some c ∧
        (step (BitVec.ofNat 64) wrapping (.tick early)).channels[0]? = some c' ∧
        WasPolled c c' ∧ ¬ Due (BitVec.ofNat 64) c early.now :=
  ⟨.attach 1 (fun _ => -100) (fun _ => -100) (-100), _, _, rfl, rfl, ⟨_, rfl⟩, by
    unfold Due
    decide⟩

end Comedi.Jr3StartUp
