import Comedi.CommandStarts
import Comedi.LifeCycle

namespace Comedi.Pcidas64Queue

open RunState Requests CommandSteps CommandStarts LifeCycle GuardedRuns ChanlistCheck

def crAref (a : U32) : U32 := (a >>> 24) &&& 0x3

/-- A channel list was read that is not there any more. -/
inductive QueueFault where
  | freedChanlist
  deriving DecidableEq, Repr

def follows (x y : U32) : Bool :=
  crChan y = crChan x + 1 ∧ crRange y = crRange x ∧ crAref y = crAref x

/-- The loop of `use_internal_queue_6xxx` over the entries. -/
def consecutive : List U32 → Bool
  | x :: y :: rest => follows x y && consecutive (y :: rest)
  | _ => true

/-- `use_internal_queue_6xxx`, which looks at no entry of a list with a single one. -/
def useInternalQueue6xxx (cmd : Cmd) : Except QueueFault Bool :=
  if cmd.chanlistLen ≤ 1 then .ok true
  else
    match cmd.chanlist with
    | .kernel entries => .ok (consecutive (entries.take cmd.chanlistLen.toNat))
    | _ => .error .freedChanlist

/-- The boards with an external channel queue are those of the 60xx and of the 64xx layout. -/
structure Board64 where
  board : Board
  ai : Subdevice
  ao : Subdevice

/-- `ai_cmd` as far as it can fail: `setup_channel_queue`. -/
def aiCmd (ao : Subdevice) (cmd : Cmd) : Except QueueFault (Answer × Unit) := do
  if ← useInternalQueue6xxx cmd then return ({}, ())
  else if ao.busy.isSome then return ({ ret := -ebusy }, ())
  else return ({}, ())

def externalAiQueueInUse (ai : Subdevice) : Except QueueFault Bool :=
  if ai.busy.isSome then .ok false
  else
    match ai.async with
    | none => .ok false
    | some a => do
      let internal ← useInternalQueue6xxx a.cmd
      return !internal

/-- The number of `ao_inttrig` among the functions that `async->inttrig` can hold. -/
def aoInttrig : Nat := 1

def aoCmd (ai : Subdevice) (_ : Cmd) : Except QueueFault (Answer × Unit) := do
  if ← externalAiQueueInUse ai then return ({ ret := -ebusy }, ())
  else return ({ inttrig := some aoInttrig }, ())

/-- Requests, and the ends of commands: events of an interrupt, and `do_become_nonbusy` where a
reader, a writer or a close ends a command. -/
inductive QueueStep where
  | aiCmd (req : CmdReq) (file : File)
  | aoCmd (req : CmdReq) (file : File)
  | aiCancel (ans : Answer) (file : File)
  | aoCancel (ans : Answer) (file : File)
  | aiEvent (events : U32)
  | aoEvent (events : U32)
  | aiRelease
  | aoRelease

def aiRequest (st : Board64) (req : CmdReq) (file : File) : Except QueueFault Board64 := do
  let (_, r) ← commandIoctl (aiCmd st.ao) st.board st.ai req file
  return { st with board := r.2.1, ai := r.2.2.1 }

def aoRequest (st : Board64) (req : CmdReq) (file : File) : Except QueueFault Board64 := do
  let (_, r) ← commandIoctl (aoCmd st.ai) st.board st.ao req file
  return { st with board := r.2.1, ao := r.2.2.1 }

def queueStep (st : Board64) : QueueStep → Except QueueFault Board64
  | .aiCmd req file => aiRequest st req file
  | .aoCmd req file => aoRequest st req file
  | .aiCancel ans file =>
    let r := doCancelIoctl st.board st.ai ans file
    .ok { st with board := r.2.1, ai := r.2.2.1 }
  | .aoCancel ans file =>
    let r := doCancelIoctl st.board st.ao ans file
    .ok { st with board := r.2.1, ao := r.2.2.1 }
  | .aiEvent events => .ok { st with ai := (comediEvent st.board (raised st.ai events)).1 }
  | .aoEvent events => .ok { st with ao := (comediEvent st.board (raised st.ao events)).1 }
  | .aiRelease =>
    let r := doBecomeNonbusy st.board st.ai
    .ok { st with board := r.1, ai := r.2 }
  | .aoRelease =>
    let r := doBecomeNonbusy st.board st.ao
    .ok { st with board := r.1, ao := r.2 }

/-- The channels of the command do not follow one another. -/
def External (cmd : Cmd) : Prop := useInternalQueue6xxx cmd = .ok false

def UsesExternal (s : Subdevice) : Prop := ∃ a, s.async = some a ∧ External a.cmd

/-- The command of analog input that uses the external queue and the one of analog output do
not both run. -/
def Excluded (st : Board64) : Prop := ¬ (Running st.ai ∧ UsesExternal st.ai ∧ Running st.ao)

/-- The driver refuses a command only with `-EBUSY`, and only while a command with the external
queue and one of analog output would be under way together. -/
def Justified (st : Board64) : QueueStep → Prop
  | .aiCmd _ _ => ∀ cmd ans, aiCmd st.ao cmd = .ok (ans, ()) → ans.ret ≠ 0 →
      ans.ret = -ebusy ∧ External cmd ∧ st.ao.busy ≠ none
  | .aoCmd _ _ => ∀ cmd ans, aoCmd st.ai cmd = .ok (ans, ()) → ans.ret ≠ 0 →
      ans.ret = -ebusy ∧ UsesExternal st.ai ∧ st.ai.busy ≠ none
  | _ => True

/-- `COMEDI_CMD` gets as far as `do_cmd`. -/
def ReachesStart (b : Board) (s : Subdevice) (req : CmdReq) (file : File) : Prop :=
  startedCmd (doCmdIoctl b s req file).2.2.2 ≠ none

/-- An output command starts only if no input command with the external queue runs, and if, when
no input command is there at all, the last one had a single channel. -/
def Fits (st : Board64) : QueueStep → Prop
  | .aoCmd req file =>
    ReachesStart st.board st.ao req file →
      (st.ai.busy = none → ∀ a, st.ai.async = some a → a.cmd.chanlistLen ≤ 1) ∧
        (Running st.ai → ¬ UsesExternal st.ai)
  | _ => True

/-- Both subdevices are in order, and their commands exclude each other. -/
structure Inv (st : Board64) : Prop where
  ai : ∃ issuer, Orderly st.ai issuer
  ao : ∃ issuer, Orderly st.ao issuer
  excluded : Excluded st

variable {st st' : Board64} {cmd : Cmd} {ans : Answer} {s s' : Subdevice} {b : Board}
  {req : CmdReq} {file : File} {issuer : Option File}

theorem useInternal_listed (h : Listed cmd) : ∃ r, useInternalQueue6xxx cmd = .ok r := by
  obtain ⟨entries, hc, -⟩ := h.chanlist
  unfold useInternalQueue6xxx
  split
  · exact ⟨true, rfl⟩
  · rw [hc]
    exact ⟨_, rfl⟩

theorem aiCmd_cases (hl : Listed cmd) (ao : Subdevice) :
    aiCmd ao cmd = .ok ({}, ()) ∧ (External cmd → ao.busy = none) ∨
      aiCmd ao cmd = .ok ({ ret := -ebusy }, ()) ∧ External cmd ∧ ao.busy ≠ none := by
  obtain ⟨r, hr⟩ := useInternal_listed hl
  unfold aiCmd External
  rw [hr]
  cases r with
  | true => exact .inl ⟨rfl, fun h => nomatch h⟩
  | false =>
    cases hb : ao.busy with
    | none => exact .inl ⟨rfl, fun _ => rfl⟩
    | some o => exact .inr ⟨rfl, rfl, nofun⟩

/-- With no input command there, only a list of a single channel is not missed. -/
theorem externalAiQueueInUse_cases (h : Orderly s issuer) :
    externalAiQueueInUse s = .ok false ∨
      externalAiQueueInUse s = .error .freedChanlist ∧ s.busy = none ∧
        ∃ a, s.async = some a ∧ ¬ a.cmd.chanlistLen ≤ 1 := by
  unfold externalAiQueueInUse
  cases hb : s.busy with
  | some o => exact .inl rfl
  | none =>
    cases ha : s.async with
    | none => exact .inl rfl
    | some a =>
      have hc := ((h.idle hb).2 a ha).1.chanlist
      by_cases hlen : a.cmd.chanlistLen ≤ 1
      · refine .inl ?_
        simp only [Option.isSome_none, Bool.false_eq_true, if_false, useInternalQueue6xxx, hlen,
          if_true]
        rfl
      · refine .inr ⟨?_, rfl, a, rfl, hlen⟩
        simp only [Option.isSome_none, Bool.false_eq_true, if_false, useInternalQueue6xxx, hlen, hc]
        rfl

theorem justified (h : Inv st) (x : QueueStep) : Justified st x := by
  cases x with
  | aiCmd req file =>
    intro cmd ans hs hret
    unfold aiCmd at hs
    obtain ⟨r, hr, hs⟩ := bind_eq_ok hs
    cases r with
    | true =>
      cases hs
      exact absurd rfl hret
    | false =>
      cases hb : st.ao.busy with
      | none =>
        rw [hb] at hs
        cases hs
        exact absurd rfl hret
      | some o =>
        rw [hb] at hs
        cases hs
        exact ⟨rfl, hr, nofun⟩
  | aoCmd req file =>
    intro cmd ans hs hret
    obtain ⟨issuer, hai⟩ := h.ai
    unfold aoCmd at hs
    obtain he | ⟨he, -⟩ := externalAiQueueInUse_cases hai
    · rw [he] at hs
      cases hs
      exact absurd rfl hret
    · rw [he] at hs
      cases hs
  | _ => trivial

theorem running_event {events : U32} (h : Running (comediEvent b (raised s events)).1) :
    Running s ∧ (UsesExternal (comediEvent b (raised s events)).1 → UsesExternal s) := by
  unfold comediEvent raised at *
  cases ha : s.async with
  | none =>
    simp only [ha, Option.map_none] at h ⊢
    exact ⟨h, fun ⟨a, hn, _⟩ => nomatch hn⟩
  | some a =>
    simp only [ha, Option.map_some] at h ⊢
    have hext : ∀ {s₁ : Subdevice} {a₁ : Async}, s₁.async = some a₁ → a₁.cmd = a.cmd →
        UsesExternal s₁ → UsesExternal s := by
      rintro s₁ a₁ hs₁ hcmd ⟨a₂, ha₂, he⟩
      rw [hs₁] at ha₂
      cases ha₂
      exact ⟨a, ha, hcmd ▸ he⟩
    split at h
    · next hz => exact absurd hz h
    · next hnz =>
      rw [if_neg hnz]
      exact ⟨hnz, hext rfl rfl⟩

theorem aiRequest_step (h : Inv st) (req : CmdReq) (file : File) :
    ∃ st', aiRequest st req file = .ok st' ∧ Inv st' := by
  obtain ⟨i, hai⟩ := h.ai
  obtain ⟨j, hao⟩ := h.ao
  have ho := commandIoctl_outcome (aiCmd st.ao) st.board st.ai req file
  unfold aiRequest
  generalize commandIoctl (aiCmd st.ao) st.board st.ai req file = x at ho
  cases ho with
  | short r hq he hidle hrun =>
    refine ⟨{ st with board := r.2.1, ai := r.2.2.1 }, rfl,
      ⟨issuerAfter (.cmd req file) r.2.2.2 i, hai.cmd he⟩, ⟨j, hao⟩, ?_⟩
    rintro ⟨hr, hext, hr'⟩
    have hsame : r.2.2.1 = st.ai := running_short hai he hidle hr
    dsimp only at hr hext
    rw [hsame] at hr hext
    exact h.excluded ⟨hr, hext, hr'⟩
  | fault cmd e hl hs =>
    obtain ⟨hs', -⟩ | ⟨hs', -⟩ := aiCmd_cases hl st.ao <;> rw [hs'] at hs <;> cases hs
  | refused cmd ans left r hl hs hret hr hb hidle hrun he =>
    exact ⟨{ st with board := r.2.1, ai := r.2.2.1 }, rfl,
      ⟨issuerAfter (.cmd req file) r.2.2.2 i, hai.cmd he⟩, ⟨j, hao⟩, fun hx => hx.1 hrun⟩
  | started cmd ans left r a' hl hs hret hr hb hbusy hrun ha hcmd htrig he =>
    refine ⟨{ st with board := r.2.1, ai := r.2.2.1 }, rfl,
      ⟨issuerAfter (.cmd req file) r.2.2.2 i, hai.cmd he⟩, ⟨j, hao⟩, ?_⟩
    rintro ⟨-, ⟨a, ha', hext⟩, hr'⟩
    obtain ⟨-, hfree⟩ | ⟨hs', -⟩ := aiCmd_cases hl st.ao
    · have haa : some a' = some a := ha.symm.trans ha'
      cases haa
      rw [hcmd] at hext
      exact orderly_not_running hao (hfree hext) hr'
    · rw [hs'] at hs
      cases hs
      exact absurd hret (by decide)

theorem aoRequest_step (h : Inv st) (req : CmdReq) (file : File) (hfit : Fits st (.aoCmd req file)) :
    ∃ st', aoRequest st req file = .ok st' ∧ Inv st' := by
  obtain ⟨i, hai⟩ := h.ai
  obtain ⟨j, hao⟩ := h.ao
  have ho := commandIoctl_outcome (aoCmd st.ai) st.board st.ao req file
  have hnone := commandIoctl_none (aoCmd st.ai) st.board st.ao req file
  unfold aoRequest
  generalize commandIoctl (aoCmd st.ai) st.board st.ao req file = x at ho hnone
  have hreach : (∀ r, x ≠ .ok (none, r)) → ReachesStart st.board st.ao req file :=
    fun hx hn => by
      obtain ⟨r, hr⟩ := hnone.mp hn
      exact hx r hr
  cases ho with
  | short r hq he hidle hrun =>
    refine ⟨{ st with board := r.2.1, ao := r.2.2.1 }, rfl, ⟨i, hai⟩,
      ⟨issuerAfter (.cmd req file) r.2.2.2 j, hao.cmd he⟩, ?_⟩
    rintro ⟨hr, hext, hr'⟩
    have hsame : r.2.2.1 = st.ao := running_short hao he hidle hr'
    dsimp only at hr'
    rw [hsame] at hr'
    exact h.excluded ⟨hr, hext, hr'⟩
  | fault cmd e hl hs =>
    obtain ⟨hlen, -⟩ := hfit (hreach fun r hr => nomatch hr)
    unfold aoCmd at hs
    obtain he | ⟨-, hb, a, ha, hlong⟩ := externalAiQueueInUse_cases hai
    · rw [he] at hs
      cases hs
    · exact absurd (hlen hb a ha) hlong
  | refused cmd ans left r hl hs hret hr hb hidle hrun he =>
    exact ⟨{ st with board := r.2.1, ao := r.2.2.1 }, rfl, ⟨i, hai⟩,
      ⟨issuerAfter (.cmd req file) r.2.2.2 j, hao.cmd he⟩, fun hx => hx.2.2 hrun⟩
  | started cmd ans left r a' hl hs hret hr hb hbusy hrun ha hcmd htrig he =>
    obtain ⟨-, hint⟩ := hfit (hreach fun r hr => nomatch hr)
    exact ⟨{ st with board := r.2.1, ao := r.2.2.1 }, rfl, ⟨i, hai⟩,
      ⟨issuerAfter (.cmd req file) r.2.2.2 j, hao.cmd he⟩, fun hx => hint hx.1 hx.2.1⟩

theorem aoRequest_fits (h : Inv st) (hok : aoRequest st req file = .ok st')
    (hx : Excluded st') : Fits st (.aoCmd req file) := by
  intro hreach
  obtain ⟨i, hai⟩ := h.ai
  have ho := commandIoctl_outcome (aoCmd st.ai) st.board st.ao req file
  have hnone := commandIoctl_none (aoCmd st.ai) st.board st.ao req file
  unfold aoRequest at hok
  generalize commandIoctl (aoCmd st.ai) st.board st.ao req file = x at ho hnone hok
  have husable : ∀ cmd ans left, aoCmd st.ai cmd = .ok (ans, left) →
      ans.ret = 0 ∧ (st.ai.busy = none → ∀ a, st.ai.async = some a → a.cmd.chanlistLen ≤ 1) := by
    intro cmd ans left hs
    unfold aoCmd at hs
    obtain he | ⟨he, -⟩ := externalAiQueueInUse_cases hai
    · refine ⟨?_, fun hb a ha => ?_⟩
      · rw [he] at hs
        cases hs
        rfl
      · by_contra hlong
        have hc := ((hai.idle hb).2 a ha).1.chanlist
        unfold externalAiQueueInUse useInternalQueue6xxx at he
        simp only [hb, ha, Option.isSome_none, Bool.false_eq_true, if_false, hlong, hc] at he
        cases he
    · rw [he] at hs
      cases hs
  cases ho with
  | short r hq he hidle hrun => exact absurd (hnone.mpr ⟨r, rfl⟩) hreach
  | fault cmd e hl hs => cases hok
  | refused cmd ans left r hl hs hret hr hb hidle hrun he =>
    exact absurd (husable cmd ans left hs).1 hret
  | started cmd ans left r a' hl hs hret hr hb hbusy hrun ha hcmd htrig he =>
    cases hok
    exact ⟨(husable cmd ans left hs).2, fun hr hext => hx ⟨hr, hext, hrun⟩⟩

/-- The step does not read a freed list, leaves the two commands exclusive, and refuses none
without cause. -/
def Proper (st : Board64) (x : QueueStep) : Prop :=
  ∃ st', queueStep st x = .ok st' ∧ Excluded st' ∧ Justified st x

theorem Inv.ai_quiet (h : Inv st) {ai : Subdevice} {b : Board}
    (ho : ∃ issuer, Orderly ai issuer)
    (hkeep : Running ai → Running st.ai ∧ (UsesExternal ai → UsesExternal st.ai)) :
    Inv { st with board := b, ai := ai } :=
  ⟨ho, h.ao, fun ⟨hr, hext, hr'⟩ => h.excluded ⟨(hkeep hr).1, (hkeep hr).2 hext, hr'⟩⟩

theorem Inv.ao_quiet (h : Inv st) {ao : Subdevice} {b : Board}
    (ho : ∃ issuer, Orderly ao issuer) (hkeep : Running ao → Running st.ao) :
    Inv { st with board := b, ao := ao } :=
  ⟨h.ai, ho, fun ⟨hr, hext, hr'⟩ => h.excluded ⟨hr, hext, hkeep hr'⟩⟩

theorem queueStep_step (h : Inv st) (x : QueueStep) (hfit : Fits st x) :
    ∃ st', queueStep st x = .ok st' ∧ Inv st' := by
  obtain ⟨i, hai⟩ := h.ai
  obtain ⟨j, hao⟩ := h.ao
  cases x with
  | aiCmd req file => exact aiRequest_step h req file
  | aoCmd req file => exact aoRequest_step h req file hfit
  | aiCancel ans file =>
    refine ⟨_, rfl, h.ai_quiet ⟨i, hai.cancel st.board ans file⟩ fun hr => ?_⟩
    have he := running_cancel hr
    rw [he] at hr ⊢
    exact ⟨hr, id⟩
  | aoCancel ans file =>
    refine ⟨_, rfl, h.ao_quiet ⟨j, hao.cancel st.board ans file⟩ fun hr => ?_⟩
    have he := running_cancel hr
    rwa [he] at hr
  | aiEvent events => exact ⟨_, rfl, h.ai_quiet ⟨i, hai.event events⟩ running_event⟩
  | aoEvent events =>
    exact ⟨_, rfl, h.ao_quiet ⟨j, hao.event events⟩ fun hr => (running_event hr).1⟩
  | aiRelease =>
    refine ⟨_, rfl, h.ai_quiet ⟨i, ?_⟩ fun hr => absurd hr not_running_release⟩
    rw [doBecomeNonbusy_released]
    exact hai.released
  | aoRelease =>
    refine ⟨_, rfl, h.ao_quiet ⟨j, ?_⟩ fun hr => absurd hr not_running_release⟩
    rw [doBecomeNonbusy_released]
    exact hao.released

theorem proper_iff (h : Inv st) (x : QueueStep) : Proper st x ↔ Fits st x := by
  constructor
  · rintro ⟨st', hok, hx, -⟩
    cases x with
    | aoCmd req file => exact aoRequest_fits h hok hx
    | _ => trivial
  · intro hfit
    obtain ⟨st', hok, hinv⟩ := queueStep_step h x hfit
    exact ⟨st', hok, hinv.excluded, justified h x⟩

/-- The external queue and analog output exclude each other in a run if and only if no output
command starts while an input command with the external queue runs, or when no input command is
there but the last one had several channels. -/
theorem queue_exclusive (st : Board64) (hai : Untouched st.ai) (hao : Untouched st.ao)
    (xs : List QueueStep) :
    AllFit queueStep Proper st xs ↔ AllFit queueStep Fits st xs := by
  have hinv : Inv st :=
    ⟨⟨none, hai.orderly⟩, ⟨none, hao.orderly⟩, fun h => h.1 hai.running⟩
  have hkeep : ∀ st x st', Inv st → Fits st x → queueStep st x = .ok st' → Inv st' := by
    intro st x st' h hfit hok
    obtain ⟨st₁, hok₁, h₁⟩ := queueStep_step h x hfit
    rw [hok] at hok₁
    cases hok₁
    exact h₁
  constructor
  · exact AllFit.of_invariant Inv
      (fun st x st' h hp hok => hkeep st x st' h ((proper_iff h x).mp hp) hok)
      (fun st x h hp => (proper_iff h x).mp hp) hinv
  · exact AllFit.of_invariant Inv hkeep (fun st x h hf => (proper_iff h x).mpr hf) hinv

def someChannels : Subdevice where
  nChan := 4
  lenChanlist := 4
  rangeTable := some { length := 1 }
  async := some { preallocBufsz := 4096 }

theorem someChannels_untouched : Untouched someChannels where
  busy := rfl
  running := rfl
  async a ha := by
    cases ha
    exact ⟨⟨rfl, rfl, rfl, rfl, rfl, rfl, rfl, rfl, rfl, rfl, rfl⟩, rfl⟩

/-- A command on the given channels that every test lets pass. -/
def onChannels (channels : List U32) : CmdReq where
  cmd := { chanlistLen := .ofNat 32 channels.length }
  entries := some fun i => channels.getD i 0
  test := .accepting

def freshBoard : Board64 := ⟨{}, someChannels, someChannels⟩

theorem queue_exclusive_internal :
    AllFit queueStep Proper freshBoard [.aoCmd (onChannels [0]) 0, .aiCmd (onChannels [0, 2]) 0] := by
  refine (queue_exclusive freshBoard someChannels_untouched someChannels_untouched _).mpr ?_
  refine ⟨fun _ => ⟨fun _ a ha => ?_, fun hr => absurd rfl hr⟩,
    fun _ _ => ⟨trivial, fun _ _ => trivial⟩⟩
  cases ha
  decide

/-- An output command starts beside an input command on channels 0 and 2. When that has been
cancelled, the next output command looks at its freed channel list. -/
theorem output_beside_external_queue :
    (∃ st, run queueStep freshBoard [.aiCmd (onChannels [0, 2]) 0, .aoCmd (onChannels [0]) 0] =
        .ok st ∧ ¬ Excluded st) ∧
      run queueStep freshBoard
        [.aiCmd (onChannels [0, 2]) 0, .aiCancel {} 0, .aoCmd (onChannels [0]) 0] =
          .error .freedChanlist := by
  refine ⟨⟨_, rfl, fun h => h ⟨?_, ⟨_, rfl, rfl⟩, ?_⟩⟩, rfl⟩
  · unfold Running
    decide
  · unfold Running
    decide

end Comedi.Pcidas64Queue
