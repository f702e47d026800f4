import Comedi.CommandSteps
import Comedi.GuardedRuns
import Comedi.Kcomedilib
import Comedi.LifeCycle

namespace Comedi.KernelCommands

open AsyncBuffer RunState Requests Instructions CommandSteps Kcomedilib GuardedRuns

/-- What kernel clients and processes do to one subdevice. All clients of a device have the same
`comedi_t`, which is the device. -/
inductive ClientStep where
  | command (cmd : Cmd) (ans : Answer)
  | cancel (ans : Answer)
  | insn (req : InsnReq) (data : Nat → U32)
  | inttrig (x : U32) (ans : Answer)
  | userCmd (req : CmdReq) (file : File)
  | userCancel (ans : Answer) (file : File)
  | driver (f : Async → Async)
  | event (events : U32)

def clientStep (st : Board × Subdevice) : ClientStep → Result (Board × Subdevice)
  | .command cmd ans =>
    let r := comediCommand st.1 st.2 cmd ans
    .ok (r.2.1, r.2.2.1)
  | .cancel ans =>
    let r := comediCancel st.1 st.2 ans
    .ok (r.2.1, r.2.2.1)
  | .insn req data => .ok (st.1, (clientInsn st.2 req data).2.2.1)
  | .inttrig x ans => .ok (st.1, (inttrigInsn st.2 x ans).2.1)
  | .userCmd req file =>
    let r := doCmdIoctl st.1 st.2 req file
    .ok (r.2.1, r.2.2.1)
  | .userCancel ans file =>
    let r := doCancelIoctl st.1 st.2 ans file
    .ok (r.2.1, r.2.2.1)
  | .driver f => .ok (st.1, { st.2 with async := st.2.async.map f })
  | .event events =>
    let s := { st.2 with async := st.2.async.map fun a => raiseEvents a events }
    .ok (st.1, (comediEvent st.1 s).1)

/-- The step is a cancel by the owner `o`. -/
def ClientStep.cancels : ClientStep → Owner → Prop
  | .cancel _, o => o = .kernel
  | .userCancel _ file, o => o = .file file
  | _, _ => False

/-- `comedi_command` gets as far as `do_cmd`. -/
def Accepts (s : Subdevice) : Prop := s.type ≠ .unused ∧ s.async.isSome = true ∧ s.busy = none

/-- `comedi_cancel` gets as far as the driver. -/
def Admits (s : Subdevice) : Prop :=
  s.lockedOutOfKernel = false ∧ s.cancel = true ∧ s.async.isSome = true

/-- Buffer and channel list are as `do_become_nonbusy` leaves them. -/
def IdleBuffer (s : Subdevice) : Prop :=
  ∀ a, s.async = some a → AtRest { a with inttrig := none }

/-- What `comedi_command` owes when `do_cmd` fails, and `comedi_cancel` when the driver has
been told. -/
def Tidies (s s' : Subdevice) : ClientStep → Prop
  | .command _ ans => Accepts s → ans.ret ≠ 0 →
      s'.busy = none ∧ s'.runflags &&& srfRunning = 0 ∧ s'.runflags &&& srfRt = 0
  | .cancel _ => Admits s → IdleBuffer s'
  | _ => True

/-- Only its owner takes the subdevice from a command, and nothing is left behind. -/
def Respects (s s' : Subdevice) (x : ClientStep) : Prop :=
  (∀ o, s.busy = some o → s'.busy ≠ some o → x.cancels o) ∧ Tidies s s' x

/-- A kernel client starts no command that fails, and cancels no command of a process and none
that has a buffer in use or a channel list. -/
def ClientFits (s : Subdevice) : ClientStep → Prop
  | .command _ ans => Accepts s → ans.ret = 0
  | .cancel ans => Admits s →
      (ans.ret = 0 → s.busy = none ∨ s.busy = some .kernel) ∧ IdleBuffer s
  | _ => True

variable {b : Board} {s s' : Subdevice} {ans : Answer}

theorem Respects.of_busy {x : ClientStep} (hb : s'.busy = s.busy) (ht : Tidies s s' x) :
    Respects s s' x :=
  ⟨fun _ ho hn => absurd (hb.trans ho) hn, ht⟩

theorem comediCommand_accepts (h : Accepts s) (b : Board) (cmd : Cmd) (ans : Answer) :
    (comediCommand b s cmd ans).2.2.1.busy = some .kernel := by
  obtain ⟨ht, ha, hb⟩ := h
  obtain ⟨a, ha⟩ := Option.isSome_iff_exists.mp ha
  simp only [comediCommand, if_neg ht, ha, hb]
  rfl

theorem comediCommand_refuses (h : ¬ Accepts s) (cmd : Cmd) :
    (comediCommand b s cmd ans).2.2.1 = s := by
  unfold comediCommand
  split
  · rfl
  next ht =>
  split
  · rfl
  next a ha =>
  split
  · rfl
  next hb =>
  rw [Option.not_isSome_iff_eq_none] at hb
  exact absurd ⟨ht, by rw [ha]; rfl, hb⟩ h

theorem command_respects_iff (cmd : Cmd) :
    Respects s (comediCommand b s cmd ans).2.2.1 (.command cmd ans) ↔
      ClientFits s (.command cmd ans) := by
  by_cases h : Accepts s
  · have hbusy := comediCommand_accepts h b cmd ans
    constructor
    · rintro ⟨-, ht⟩ -
      by_contra hret
      rw [(ht h hret).1] at hbusy
      cases hbusy
    · intro hfit
      refine ⟨fun o ho => ?_, fun _ hret => absurd (hfit h) hret⟩
      rw [h.2.2] at ho
      cases ho
  · rw [comediCommand_refuses h]
    exact ⟨fun _ ha => absurd ha h, fun _ => .of_busy rfl fun ha => absurd ha h⟩

theorem comediCancel_refuses (h : ¬ Admits s) : (comediCancel b s ans).2.2.1 = s := by
  unfold comediCancel
  split
  · rfl
  next hl =>
  split
  · rfl
  next hc =>
  rw [not_or, not_not, Bool.not_eq_true, Option.isNone_eq_false_iff] at hc
  exact absurd ⟨by simpa using hl, hc.1, hc.2⟩ h

theorem idleBuffer_iff (fn : Option Nat)
    (h : s'.async = s.async.map fun a => { a with inttrig := fn }) :
    IdleBuffer s' ↔ IdleBuffer s := by
  cases hs : s.async with
  | none =>
    rw [hs, Option.map_none] at h
    constructor
    · intro _ a ha
      cases hs.symm.trans ha
    · intro _ a ha
      cases h.symm.trans ha
  | some a =>
    rw [hs, Option.map_some] at h
    constructor
    · intro hi a₁ ha₁
      cases hs.symm.trans ha₁
      have hrest := hi _ h
      exact hrest
    · intro hi a₁ ha₁
      cases h.symm.trans ha₁
      have hrest := hi a hs
      exact hrest

/-- A cancel that the driver carries out frees the subdevice and does nothing to the ring. -/
theorem comediCancel_admits (h : Admits s) (b : Board) (ans : Answer) :
    (comediCancel b s ans).2.2.1.busy = (if ans.ret = 0 then none else s.busy) ∧
      (IdleBuffer (comediCancel b s ans).2.2.1 ↔ IdleBuffer s) := by
  obtain ⟨hl, hc, ha⟩ := h
  obtain ⟨a, ha⟩ := Option.isSome_iff_exists.mp ha
  by_cases hret : ans.ret = 0
  · have he : (comediCancel b s ans).2.2.1 = (clientStopped b (setInttrig s ans.inttrig)).2 := by
      simp [comediCancel, hl, hc, ha, hret]
    rw [he, if_pos hret]
    refine ⟨rfl, idleBuffer_iff none ?_⟩
    change Option.map _ (Option.map _ s.async) = _
    rw [Option.map_map]
    rfl
  · have he : (comediCancel b s ans).2.2.1 = setInttrig s ans.inttrig := by
      simp [comediCancel, hl, hc, ha, hret]
    rw [he, if_neg hret]
    exact ⟨rfl, idleBuffer_iff _ rfl⟩

theorem cancel_respects_iff :
    Respects s (comediCancel b s ans).2.2.1 (.cancel ans) ↔ ClientFits s (.cancel ans) := by
  by_cases h : Admits s
  · obtain ⟨hbusy, hidle⟩ := comediCancel_admits h b ans
    constructor
    · rintro ⟨how, ht⟩ -
      refine ⟨fun hret => ?_, hidle.mp (ht h)⟩
      rw [if_pos hret] at hbusy
      cases hb : s.busy with
      | none => exact .inl rfl
      | some o =>
        have ho := how o hb (by rw [hbusy]; exact nofun)
        exact .inr (congrArg some ho)
    · intro hfit
      obtain ⟨how, hi⟩ := hfit h
      refine ⟨fun o ho hn => ?_, fun _ => hidle.mpr hi⟩
      rw [hbusy] at hn
      by_cases hret : ans.ret = 0
      · rcases how hret with hb | hb <;> rw [hb] at ho <;> cases ho
        rfl
      · rw [if_neg hret] at hn
        exact absurd ho hn
  · rw [comediCancel_refuses h]
    exact ⟨fun _ ha => absurd ha h, fun _ => .of_busy rfl fun ha => absurd ha h⟩

theorem clientInsn_busy (s : Subdevice) (req : InsnReq) (data : Nat → U32) :
    (clientInsn s req data).2.2.1.busy = s.busy := by
  unfold clientInsn
  split
  · rfl
  split
  · rfl
  split
  · rfl
  · next hb =>
    rw [Option.not_isSome_iff_eq_none] at hb
    exact hb.symm

theorem inttrigInsn_busy (s : Subdevice) (x : U32) (ans : Answer) :
    (inttrigInsn s x ans).2.1.busy = s.busy := by
  unfold inttrigInsn
  split
  · rfl
  · split <;> rfl

/-- A step respects the owner and tidies up exactly when it fits. -/
theorem clientStep_respects_iff (st : Board × Subdevice) (x : ClientStep) :
    (∀ st', clientStep st x = .ok st' → Respects st.2 st'.2 x) ↔ ClientFits st.2 x := by
  have hone : ∀ st₁ : Board × Subdevice, clientStep st x = .ok st₁ →
      (Respects st.2 st₁.2 x ↔ ClientFits st.2 x) →
      ((∀ st', clientStep st x = .ok st' → Respects st.2 st'.2 x) ↔ ClientFits st.2 x) := by
    intro st₁ h₁ hiff
    refine ⟨fun h => hiff.mp (h st₁ h₁), fun h st' h' => ?_⟩
    cases h₁.symm.trans h'
    exact hiff.mpr h
  have hfree : ∀ st₁ : Board × Subdevice, Respects st.2 st₁.2 x → ClientFits st.2 x →
      (Respects st.2 st₁.2 x ↔ ClientFits st.2 x) := fun _ hr hf => ⟨fun _ => hf, fun _ => hr⟩
  cases x with
  | command cmd ans => exact hone _ rfl (command_respects_iff cmd)
  | cancel ans => exact hone _ rfl cancel_respects_iff
  | insn req data => exact hone _ rfl (hfree _ (.of_busy (clientInsn_busy _ _ _) trivial) trivial)
  | inttrig x ans => exact hone _ rfl (hfree _ (.of_busy (inttrigInsn_busy _ _ _) trivial) trivial)
  | userCmd req file =>
    refine hone _ rfl (hfree _ ⟨fun o ho hn => ?_, trivial⟩ trivial)
    have he := doCmdIoctl_effect st.1 st.2 req file
    generalize (doCmdIoctl st.1 st.2 req file).2.2.1 = s' at he hn
    generalize (doCmdIoctl st.1 st.2 req file).2.2.2 = calls at he
    cases he with
    | refused => exact absurd ho hn
    | noMemory a a' hs hb ha hc => exact absurd ho hn
    | failed a a' r calls hs hb ha hc =>
      rw [hb] at ho
      cases ho
    | started a a' r s₀ cmd hs hb hl ha hr he hc =>
      rw [hb] at ho
      cases ho
  | userCancel ans file =>
    refine hone _ rfl (hfree _ ⟨fun o ho hn => ?_, trivial⟩ trivial)
    rcases doCancelIoctl_cases st.1 st.2 ans file with he | ⟨hb, -, -⟩
    · exact absurd ((congrArg Subdevice.busy he).trans ho) hn
    · rw [hb] at ho
      cases ho
      rfl
  | driver f => exact hone _ rfl (hfree _ (.of_busy rfl trivial) trivial)
  | event events => exact hone _ rfl (hfree _ (.of_busy (comediEvent_busy _ _) trivial) trivial)

/-- In a run every step respects the owner and tidies up exactly when every step fits. -/
theorem kernel_commands (st : Board × Subdevice) (steps : List ClientStep) :
    AllFit clientStep
        (fun st x => ∀ st', clientStep st x = .ok st' → Respects st.2 st'.2 x) st steps ↔
      AllFit clientStep (fun st x => ClientFits st.2 x) st steps :=
  AllFit.congr clientStep_respects_iff st steps

/-- A free subdevice, and a command of a kernel client. -/
def shared : Subdevice where
  subdevFlags := sdfCmdRead
  nChan := 1
  rangeTable := some { length := 1 }
  async := some { preallocBufsz := 4096 }

def kernelCmd : Cmd := { chanlist := .client [0], chanlistLen := 1 }

/-- A client cancels the command of a process, a command of a client whose `do_cmd` fails leaves
the subdevice busy, and a cancelled command of a client leaves its channel list. -/
theorem client_misuses :
    (∃ st₁ st₂, clientStep ({}, shared) (.userCmd LifeCycle.plainCmd 0) = .ok st₁ ∧
      clientStep st₁ (.cancel {}) = .ok st₂ ∧
      st₁.2.busy = some (.file 0) ∧ st₂.2.busy = none ∧ ¬ Respects st₁.2 st₂.2 (.cancel {})) ∧
    (∃ st₁, clientStep ({}, shared) (.command kernelCmd { ret := -eio }) = .ok st₁ ∧
      st₁.2.busy = some .kernel ∧ st₁.2.runflags &&& srfRunning ≠ 0 ∧
      (doCmdIoctl st₁.1 st₁.2 LifeCycle.plainCmd 0).1 = -ebusy ∧
      ¬ Respects shared st₁.2 (.command kernelCmd { ret := -eio })) ∧
    ∃ st₁ st₂, clientStep ({}, shared) (.command kernelCmd {}) = .ok st₁ ∧
      clientStep st₁ (.cancel {}) = .ok st₂ ∧
      st₂.2.async.map (·.cmd.chanlist) = some (.client [0]) ∧ ¬ Respects st₁.2 st₂.2 (.cancel {}) := by
  refine ⟨⟨_, _, rfl, rfl, rfl, rfl, ?_⟩, ⟨_, rfl, rfl, by decide, rfl, ?_⟩,
    ⟨_, _, rfl, rfl, rfl, ?_⟩⟩
  · exact fun h => nomatch h.1 (.file 0) rfl nofun
  · exact fun h => nomatch (h.2 ⟨by decide, rfl, rfl⟩ (by decide)).1
  · intro h
    exact nomatch (h.2 ⟨rfl, rfl, rfl⟩ _ rfl).chanlist

end Comedi.KernelCommands
