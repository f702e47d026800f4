import Comedi.CommandSteps

namespace Comedi.CommandStarts

open AsyncBuffer RunState Requests CommandSteps

def cmdOf (s : Subdevice) : Option Cmd := s.async.map (·.cmd)

/-- The command that `do_cmd` finds, if it is called. -/
def startedCmd : List Call → Option Cmd
  | [] => none
  | .doCmd s :: _ => cmdOf s
  | _ :: calls => startedCmd calls

abbrev CmdResult := Int × Board × Subdevice × List Call

/-- `do_cmd_ioctl` where the driver's `do_cmd` is `start`: it may fault, it answers, and it
leaves something behind. -/
def commandIoctl {ε ρ : Type} (start : Cmd → Except ε (Answer × ρ)) (b : Board) (s : Subdevice)
    (req : CmdReq) (file : File) : Except ε (Option ρ × CmdResult) :=
  match startedCmd (doCmdIoctl b s req file).2.2.2 with
  | none => .ok (none, doCmdIoctl b s req file)
  | some cmd => do
    let (ans, left) ← start cmd
    return (some left, doCmdIoctl b s { req with start := ans } file)

/-- How far `COMEDI_CMD` gets before it knows the driver's answer. -/
inductive Reach (b : Board) (s : Subdevice) (req : CmdReq) (file : File) : Prop where
  | short (r : CmdResult) (hr : ∀ ans, doCmdIoctl b s { req with start := ans } file = r)
      (hc : startedCmd r.2.2.2 = none)
  | start (a : Async) (calls : List Call) (hc : startedCmd calls = none)
      (hq : ∀ s', Call.doCmd s' ∉ calls) (hs : ∃ a₀, s.async = some a₀) (hb : s.busy = none)
      (hr : ∀ ans, doCmdIoctl b s { req with start := ans } file =
        ((startCmd b { s with async := some a } a file ans).1,
          (startCmd b { s with async := some a } a file ans).2.1,
          (startCmd b { s with async := some a } a file ans).2.2.1,
          calls ++ (startCmd b { s with async := some a } a file ans).2.2.2))

variable {b : Board} {s s' : Subdevice} {req : CmdReq} {file : File} {ans : Answer} {a : Async}

theorem startedCmd_append {calls : List Call} (rest : List Call) (h : ∀ s', Call.doCmd s' ∉ calls) :
    startedCmd (calls ++ rest) = startedCmd rest := by
  induction calls with
  | nil => rfl
  | cons c calls ih =>
    have hrest := ih fun s' hm => h s' (List.mem_cons_of_mem c hm)
    cases c with
    | doCmd s' => exact absurd (List.mem_cons_self ..) (h s')
    | _ => exact hrest

theorem startedCmd_quiet {calls : List Call} (h : ∀ s', Call.doCmd s' ∉ calls) :
    startedCmd calls = none := by
  have h' := startedCmd_append [] h
  rwa [List.append_nil] at h'

theorem testCmd_reach (a : Async) (h₀ : ∃ a₀, s.async = some a₀) (hb : s.busy = none)
    (hr : ∀ ans, doCmdIoctl b s { req with start := ans } file =
      testCmd b { s with async := some a } a { req with start := ans } file) :
    Reach b s req file := by
  let tested := req.test.run a.cmd
  have hquiet : ∀ (cmd cmd' : Cmd) (ret : Int) (owner : Option Owner) (r : U32),
      ∀ s', Call.doCmd s' ∉ [Call.doCmdtest cmd ret cmd'] ++ [Call.becomeNonbusy owner r] := by
    intro cmd cmd' ret owner r s' hm
    simp at hm
  by_cases hbad : tested.2.flags &&& trigBogus ≠ 0 ∨ tested.1 ≠ 0
  · refine .short (cmdCleanup b { s with async := some { a with cmd := tested.2 } }
      (if req.copyBack then -eagain else -efault) [.doCmdtest a.cmd tested.1 tested.2])
      (fun ans => ?_) ?_
    · rw [hr ans]
      unfold testCmd
      exact if_pos hbad
    · rw [cmdCleanup_calls]
      exact startedCmd_quiet (hquiet _ _ _ _ _)
  by_cases hsz : a.preallocBufsz = 0
  · refine .short (cmdCleanup b { s with async := some { a with cmd := tested.2 } } (-enomem)
      [.doCmdtest a.cmd tested.1 tested.2]) (fun ans => ?_) ?_
    · rw [hr ans]
      unfold testCmd
      exact (if_neg hbad).trans (if_pos hsz)
    · rw [cmdCleanup_calls]
      exact startedCmd_quiet (hquiet _ _ _ _ _)
  · refine .start { a with cmd := tested.2 } [.doCmdtest a.cmd tested.1 tested.2] rfl
      (fun s' hm => by simp at hm) h₀ hb fun ans => ?_
    rw [hr ans]
    unfold testCmd
    exact (if_neg hbad).trans (if_neg hsz)

theorem doCmdIoctl_reach (b : Board) (s : Subdevice) (req : CmdReq) (file : File) :
    Reach b s req file := by
  cases href : cmdRefusal s req.cmd file with
  | some e =>
    refine .short (e, b, s, []) (fun ans => ?_) rfl
    unfold doCmdIoctl
    simp only [href]
  | none =>
    cases ha : s.async with
    | none =>
      refine .short (-eio, b, s, []) (fun ans => ?_) rfl
      unfold doCmdIoctl
      simp only [href, ha]
    | some a =>
      by_cases halloc : req.allocOk
      · cases hf : req.entries with
        | none =>
          refine .short (cmdCleanup b { s with async := some (loadCmd a req.cmd []) } (-efault) [])
            (fun ans => ?_) rfl
          unfold doCmdIoctl
          simp only [href, ha, halloc, hf, not_true_eq_false, if_false]
        | some f =>
          let entries := (List.range req.cmd.chanlistLen.toNat).map f
          let s₁ := { s with async := some (loadCmd a req.cmd entries) }
          by_cases hchk : ChanlistCheck.checkChanlist s₁ entries < 0
          · refine .short (cmdCleanup b s₁ (ChanlistCheck.checkChanlist s₁ entries) [])
              (fun ans => ?_) rfl
            unfold doCmdIoctl
            simp only [href, ha, halloc, hf, not_true_eq_false, if_false]
            exact if_pos hchk
          · refine testCmd_reach (loadCmd a req.cmd entries) ⟨a, ha⟩ (cmdRefusal_none href).2.1
              fun ans => ?_
            unfold doCmdIoctl
            simp only [href, ha, halloc, hf, not_true_eq_false, if_false]
            exact if_neg hchk
      · refine .short (-enomem, b,
          { s with async := some { a with cmd := { req.cmd with data := 0, chanlist := .null } } },
          []) (fun ans => ?_) rfl
        unfold doCmdIoctl
        simp only [href, ha]
        rw [if_pos halloc]

/-- `do_cmd` finds a command with its channel list. -/
structure Listed (cmd : Cmd) : Prop where
  chanlistLen : 1 ≤ cmd.chanlistLen
  chanlist : ∃ entries, cmd.chanlist = .kernel entries ∧ entries.length = cmd.chanlistLen.toNat

/-- What `COMEDI_CMD` does with a driver behind it. -/
inductive Outcome {ε ρ : Type} (start : Cmd → Except ε (Answer × ρ)) (s : Subdevice) (file : File) :
    Except ε (Option ρ × CmdResult) → Prop where
  | short (r : CmdResult) (hq : startedCmd r.2.2.2 = none) (he : CmdEffect s file r.2.2.2 r.2.2.1)
      (hidle : r.2.2.1.busy = s.busy)
      (hrun : r.2.2.1.runflags &&& srfRunning = s.runflags &&& srfRunning ∨
        r.2.2.1.runflags &&& srfRunning = 0) :
      Outcome start s file (.ok (none, r))
  | fault (cmd : Cmd) (e : ε) (hl : Listed cmd) (hs : start cmd = .error e) : Outcome start s file (.error e)
  | refused (cmd : Cmd) (ans : Answer) (left : ρ) (r : CmdResult) (hl : Listed cmd)
      (hs : start cmd = .ok (ans, left)) (hret : ans.ret ≠ 0) (hr : r.1 = ans.ret)
      (hb : s.busy = none) (hidle : r.2.2.1.busy = none)
      (hrun : r.2.2.1.runflags &&& srfRunning = 0) (he : CmdEffect s file r.2.2.2 r.2.2.1) :
      Outcome start s file (.ok (some left, r))
  | started (cmd : Cmd) (ans : Answer) (left : ρ) (r : CmdResult) (a' : Async) (hl : Listed cmd)
      (hs : start cmd = .ok (ans, left)) (hret : ans.ret = 0) (hr : r.1 = 0)
      (hb : s.busy = none) (hbusy : r.2.2.1.busy = some (.file file))
      (hrun : r.2.2.1.runflags &&& srfRunning ≠ 0) (ha : r.2.2.1.async = some a')
      (hcmd : a'.cmd = cmd) (htrig : a'.inttrig = ans.inttrig)
      (he : CmdEffect s file r.2.2.2 r.2.2.1) : Outcome start s file (.ok (some left, r))

theorem startedSubdevice_cmd (b : Board) (s : Subdevice) (a : Async) (owner : Owner) :
    cmdOf (startedSubdevice b s a owner).2 = some a.cmd := by
  obtain ⟨r, hr, -⟩ := startedSubdevice_snd b s a owner
  rw [hr]
  rfl

theorem startCmd_calls (b : Board) (s : Subdevice) (a : Async) (ans : Answer) (file : File) :
    startedCmd (startCmd b s a file ans).2.2.2 = some a.cmd := by
  rw [← startedSubdevice_cmd b s a (.file file)]
  unfold startCmd
  dsimp only
  split <;> rfl

theorem startCmd_refused (b : Board) (s : Subdevice) (a : Async) (file : File)
    (h : ans.ret ≠ 0) :
    (startCmd b s a file ans).1 = ans.ret ∧
      ∃ s₁, (startCmd b s a file ans).2.2.1 = released s₁ := by
  unfold startCmd
  dsimp only
  rw [if_neg h]
  exact ⟨rfl, _, cmdCleanup_released _ _ _ _⟩

theorem startCmd_started (b : Board) (s : Subdevice) (a : Async) (file : File)
    (h : ans.ret = 0) :
    (startCmd b s a file ans).1 = 0 ∧
      (startCmd b s a file ans).2.2.1.busy = some (.file file) ∧
      (startCmd b s a file ans).2.2.1.runflags &&& srfRunning ≠ 0 ∧
      ∃ a', (startCmd b s a file ans).2.2.1.async = some a' ∧ a'.cmd = a.cmd ∧
        a'.inttrig = ans.inttrig := by
  obtain ⟨r, hr, hrun, -⟩ := startedSubdevice_snd b s a (.file file)
  unfold startCmd
  dsimp only
  rw [if_pos h, hr]
  exact ⟨rfl, rfl, hrun, _, rfl, rfl, rfl⟩

theorem effect_idle {calls : List Call} (he : CmdEffect s file calls s')
    (hq : startedCmd calls = none) :
    s'.busy = s.busy ∧
      (s'.runflags &&& srfRunning = s.runflags &&& srfRunning ∨ s'.runflags &&& srfRunning = 0) := by
  cases he with
  | refused => exact ⟨rfl, .inl rfl⟩
  | noMemory => exact ⟨rfl, .inl rfl⟩
  | failed a a' r calls hs hb ha hc => exact ⟨hb.symm, .inr (BitFlags.cleared (by decide))⟩
  | started a a' r s₀ cmd hs hb hl ha hr he hc =>
    obtain hn | ⟨cmd', s₁, a₁, rest, heq, -, hs₁, -⟩ := hc
    · exact absurd (by simp) (hn s₀)
    · simp only [List.cons.injEq, Call.doCmd.injEq] at heq
      obtain ⟨-, rfl, -⟩ := heq
      simp [startedCmd, cmdOf, hs₁] at hq

theorem effect_listed {calls : List Call} {cmd : Cmd} (he : CmdEffect s file calls s')
    (hq : startedCmd calls = some cmd) : Listed cmd := by
  have htested : Tested calls := by
    cases he with
    | refused => exact .inl fun s' hm => nomatch hm
    | noMemory => exact .inl fun s' hm => nomatch hm
    | failed a a' r calls hs hb ha hc => exact hc
    | started a a' r s₀ cmd hs hb hl ha hr he hc => exact hc
  obtain hn | ⟨cmd', s₁, a₁, rest, rfl, -, hs₁, hready⟩ := htested
  · rw [startedCmd_quiet hn] at hq
    cases hq
  · have hcmd : some a₁.cmd = some cmd := by
      rw [← hq]
      simp [startedCmd, cmdOf, hs₁]
    cases hcmd
    obtain ⟨entries, hc, hlen, -⟩ := hready.chanlist
    exact ⟨hready.chanlistLen.1, entries, hc, hlen⟩

/-- The cases of `COMEDI_CMD` with a driver behind it. -/
theorem commandIoctl_outcome {ε ρ : Type} (start : Cmd → Except ε (Answer × ρ)) (b : Board)
    (s : Subdevice) (req : CmdReq) (file : File) :
    Outcome start s file (commandIoctl start b s req file) := by
  unfold commandIoctl
  have heff := fun ans => doCmdIoctl_effect b s { req with start := ans } file
  cases doCmdIoctl_reach b s req file with
  | short r hr hc =>
    have hreq : doCmdIoctl b s req file = r := hr req.start
    have he : CmdEffect s file r.2.2.2 r.2.2.1 := hreq ▸ heff req.start
    rw [hreq, hc]
    obtain ⟨hbusy, hrun⟩ := effect_idle he hc
    exact .short r hc he hbusy hrun
  | start a calls hc hq hs hb hr =>
    have hreq : startedCmd (doCmdIoctl b s req file).2.2.2 = some a.cmd := by
      have h : doCmdIoctl b s req file = _ := hr req.start
      rw [h]
      dsimp only
      rw [startedCmd_append _ hq]
      exact startCmd_calls _ _ _ _ _
    have hl : Listed a.cmd := effect_listed (doCmdIoctl_effect b s req file) hreq
    rw [hreq]
    dsimp only
    cases hst : start a.cmd with
    | error e => exact .fault a.cmd e hl hst
    | ok p =>
      obtain ⟨ans, left⟩ := p
      have he := heff ans
      change Outcome start s file (.ok (some left, doCmdIoctl b s { req with start := ans } file))
      rw [hr ans] at he ⊢
      by_cases hret : ans.ret = 0
      · obtain ⟨hval, hbusy, hrun, a', ha', hcmd, htrig⟩ :=
          startCmd_started b { s with async := some a } a file hret
        exact .started a.cmd ans left _ a' hl hst hret hval hb hbusy hrun ha' hcmd htrig he
      · obtain ⟨hval, s₁, hrel⟩ := startCmd_refused b { s with async := some a } a file hret
        refine .refused a.cmd ans left _ hl hst hret hval hb ?_ ?_ he
        · rw [hrel]
          rfl
        · rw [hrel]
          exact released_running s₁

/-- The driver is asked exactly when `COMEDI_CMD` gets as far as `do_cmd`. -/
theorem commandIoctl_none {ε ρ : Type} (start : Cmd → Except ε (Answer × ρ)) (b : Board)
    (s : Subdevice) (req : CmdReq) (file : File) :
    startedCmd (doCmdIoctl b s req file).2.2.2 = none ↔
      ∃ r, commandIoctl start b s req file = .ok (none, r) := by
  unfold commandIoctl
  cases startedCmd (doCmdIoctl b s req file).2.2.2 with
  | none => exact ⟨fun _ => ⟨_, rfl⟩, fun _ => rfl⟩
  | some cmd =>
    refine ⟨(fun h => nomatch h), ?_⟩
    rintro ⟨r, hr⟩
    dsimp only at hr
    cases hst : start cmd with
    | error e =>
      rw [hst] at hr
      cases hr
    | ok p =>
      rw [hst] at hr
      cases hr

/-- The command that the driver is asked about has passed its test. -/
theorem startedCmd_tested {cmd : Cmd}
    (h : startedCmd (doCmdIoctl b s req file).2.2.2 = some cmd) :
    ∃ cmd₀, req.test.run cmd₀ = (0, cmd) := by
  have htest : ∀ (s : Subdevice) (a : Async), startedCmd (testCmd b s a req file).2.2.2 = some cmd →
      ∃ cmd₀, req.test.run cmd₀ = (0, cmd) := by
    intro s a h
    unfold testCmd at h
    dsimp only at h
    split at h
    · rw [cmdCleanup_calls] at h
      cases h
    next hbad =>
    split at h
    · rw [cmdCleanup_calls] at h
      cases h
    · rw [startedCmd_append _ (by simp), startCmd_calls] at h
      refine ⟨a.cmd, Prod.ext ?_ (Option.some.inj h)⟩
      exact not_not.mp fun hne => hbad (.inr hne)
  unfold doCmdIoctl at h
  split at h
  · cases h
  · cases h
  · split at h
    · cases h
    split at h
    · cases h
    · dsimp only at h
      split at h
      · cases h
      · exact htest _ _ h

/-- It is asked only where no command is under way. -/
theorem startedCmd_idle {cmd : Cmd}
    (h : startedCmd (doCmdIoctl b s req file).2.2.2 = some cmd) : s.busy = none := by
  cases doCmdIoctl_reach b s req file with
  | short r hr hc =>
    rw [show doCmdIoctl b s req file = r from hr req.start, hc] at h
    cases h
  | start a calls hc hq hs hb hr => exact hb

/-- On a subdevice with a command under way `COMEDI_CMD` does nothing. -/
theorem effect_busy {calls : List Call} (he : CmdEffect s file calls s') (hb : s.busy ≠ none) :
    s' = s := by
  cases he with
  | refused => rfl
  | noMemory a a' hs hn => exact absurd hn hb
  | failed a a' r calls hs hn => exact absurd hn hb
  | started a a' r s₀ cmd hs hn => exact absurd hn hb

end Comedi.CommandStarts
