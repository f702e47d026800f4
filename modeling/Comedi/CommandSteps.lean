import Comedi.BitFlags
import Comedi.MungeBlocks
import Comedi.Requests

namespace Comedi.CommandSteps

open AsyncBuffer ChanlistCheck RunState Requests

/-- The state of a buffer that no command uses. -/
structure AtRest (a : Async) : Prop where
  writeCount : a.bufWriteCount = 0
  writeAllocCount : a.bufWriteAllocCount = 0
  readCount : a.bufReadCount = 0
  readAllocCount : a.bufReadAllocCount = 0
  mungeCount : a.mungeCount = 0
  writePtr : a.bufWritePtr = 0
  readPtr : a.bufReadPtr = 0
  mungePtr : a.mungePtr = 0
  mungeChan : a.mungeChan = 0
  inttrig : a.inttrig = none
  chanlist : a.cmd.chanlist = .null

theorem idleAsync_atRest (a : Async) : AtRest (idleAsync a) :=
  ⟨rfl, rfl, rfl, rfl, rfl, rfl, rfl, rfl, rfl, rfl, rfl⟩

theorem idleAsync_chanlistAllocs {a : Async} {entries : List U32}
    (h : a.cmd.chanlist = .kernel entries) : (idleAsync a).chanlistAllocs = a.chanlistAllocs - 1 := by
  simp only [idleAsync, freeChanlist, comediResetAsyncBuf, h]

variable {b : Board} {s : Subdevice} {a : Async} {ans : Answer}

/-- `do_become_nonbusy` of a subdevice in the midst of anything. -/
def released (s : Subdevice) : Subdevice :=
  { s with
    runflags := s.runflags &&& ~~~(srfRunning ||| srfRt)
    async := s.async.map idleAsync
    busy := none }

@[simp] theorem released_busy (s : Subdevice) : (released s).busy = none := rfl

theorem released_running (s : Subdevice) : (released s).runflags &&& srfRunning = 0 :=
  BitFlags.cleared (by decide)

theorem released_rt (s : Subdevice) : (released s).runflags &&& srfRt = 0 :=
  BitFlags.cleared (by decide)

theorem released_error (s : Subdevice) :
    (released s).runflags &&& srfError = s.runflags &&& srfError :=
  BitFlags.clear_keeps (by decide)

theorem doBecomeNonbusy_released (b : Board) (s : Subdevice) :
    (doBecomeNonbusy b s).2 = released s := doBecomeNonbusy_snd b s

theorem released_setInttrig (s : Subdevice) (fn : Option Nat) :
    released (setInttrig s fn) = released s := by
  cases hs : s.async with
  | none => simp only [released, setInttrig, hs, Option.map_none]
  | some a =>
    simp only [released, setInttrig, hs, Option.map_some]
    rfl

/-- `do_cancel` releases the subdevice whatever the driver answers. -/
theorem doCancel_released (b : Board) (s : Subdevice) (ans : Answer) :
    (doCancel b s ans).2.2.1 = released s := by
  unfold doCancel
  split
  · exact (doBecomeNonbusy_released b _).trans (released_setInttrig s _)
  · exact doBecomeNonbusy_released b s

theorem doCancelIoctl_cases (b : Board) (s : Subdevice) (ans : Answer) (file : File) :
    (doCancelIoctl b s ans file).2.2.1 = s ∨
      s.busy = some (.file file) ∧ s.lockedOut file = false ∧
        (doCancelIoctl b s ans file).2.2.1 = released s := by
  unfold doCancelIoctl
  split
  · exact .inl rfl
  split
  · exact .inl rfl
  next hl =>
  split
  · exact .inl rfl
  next o hb =>
  split
  · exact .inl rfl
  next ho =>
  rw [not_not] at ho
  exact .inr ⟨by rw [hb, ho], by simpa using hl, doCancel_released b s ans⟩

/-- What is left of a command that did not start. -/
structure Dropped (a a' : Async) : Prop where
  atRest : AtRest a'
  bufsz : a'.preallocBufsz = a.preallocBufsz
  chanlistAllocs : a'.chanlistAllocs = a.chanlistAllocs

/-- What is checked of a command before the driver gets it. -/
structure Ready (s : Subdevice) (a : Async) : Prop where
  bufsz_ne : a.preallocBufsz ≠ 0
  chanlistLen : 1 ≤ a.cmd.chanlistLen ∧ a.cmd.chanlistLen.toNat ≤ s.lenChanlist
  chanlist : ∃ entries, a.cmd.chanlist = .kernel entries ∧
    entries.length = a.cmd.chanlistLen.toNat ∧ ∀ x ∈ entries, chanspecOk s x

/-- The buffer of a command that has just started. -/
structure Launched (s : Subdevice) (a a' : Async) : Prop where
  reset : comediResetAsyncBuf a' = a'
  bufsz : a'.preallocBufsz = a.preallocBufsz
  ready : Ready s a'
  chanlistAllocs : a'.chanlistAllocs = a.chanlistAllocs + 1

/-- `do_cmd` is called for no command, or for one that was checked and that the driver has just
accepted. -/
def Tested (calls : List Call) : Prop :=
  (∀ s, .doCmd s ∉ calls) ∨
    ∃ cmd s a rest, calls = .doCmdtest cmd 0 a.cmd :: .doCmd s :: rest ∧
      (∀ s', .doCmd s' ∉ rest) ∧ s.async = some a ∧ Ready s a

/-- Everything that `COMEDI_CMD` can call and can do to its subdevice. -/
inductive CmdEffect (s : Subdevice) (file : File) : List Call → Subdevice → Prop where
  | refused : CmdEffect s file [] s
  | noMemory (a a' : Async) (hs : s.async = some a) (hb : s.busy = none)
      (ha : a' = { a with cmd := a'.cmd }) (hc : a'.cmd.chanlist = .null) :
      CmdEffect s file [] { s with async := some a' }
  | failed (a a' : Async) (r : U32) (calls : List Call) (hs : s.async = some a)
      (hb : s.busy = none) (ha : Dropped a a') (hc : Tested calls) :
      CmdEffect s file calls
        { s with
          async := some a'
          runflags := r &&& ~~~(srfRunning ||| srfRt)
          busy := none }
  | started (a a' : Async) (r : U32) (s₀ : Subdevice) (cmd : Cmd) (hs : s.async = some a)
      (hb : s.busy = none) (hl : s.lockedOut file = false) (ha : Launched s a a')
      (hr : r &&& srfRunning ≠ 0) (he : r &&& srfError = 0)
      (hc : Tested [.doCmdtest cmd 0 a'.cmd, .doCmd s₀]) :
      CmdEffect s file [.doCmdtest cmd 0 a'.cmd, .doCmd s₀]
        { s with async := some a', runflags := r, busy := some (.file file) }

theorem CmdEffect.same_or_free {s' : Subdevice} {file : File} {calls : List Call}
    (he : CmdEffect s file calls s') : s' = s ∨ s.busy = none := by
  cases he with
  | refused => exact .inl rfl
  | noMemory a a' hs hb => exact .inr hb
  | failed a a' r calls hs hb => exact .inr hb
  | started a a' r s₀ cmd hs hb => exact .inr hb

theorem idleAsync_dropped (a : Async) {entries : List U32} {a' : Async}
    (hc : a'.cmd.chanlist = .kernel entries)
    (ha : a'.chanlistAllocs = a.chanlistAllocs + 1) (hz : a'.preallocBufsz = a.preallocBufsz) :
    Dropped a (idleAsync a') where
  atRest := idleAsync_atRest a'
  bufsz := hz
  chanlistAllocs := by rw [idleAsync_chanlistAllocs hc, ha, Nat.add_sub_cancel]

theorem cmdCleanup_released (b : Board) (s : Subdevice) (ret : Int) (calls : List Call) :
    (cmdCleanup b s ret calls).2.2.1 = released s := doBecomeNonbusy_released b s

theorem cmdRefusal_none {cmd : Cmd} {file : File} (h : cmdRefusal s cmd file = none) :
    s.lockedOut file = false ∧ s.busy = none ∧ cmd.chanlistLen.toNat ≤ s.lenChanlist ∧
      1 ≤ cmd.chanlistLen := by
  unfold cmdRefusal at h
  split at h
  · cases h
  split at h
  · cases h
  split at h
  · cases h
  next hl =>
  split at h
  · cases h
  next hb =>
  split at h
  · cases h
  next hmax =>
  split at h
  · cases h
  next hmin =>
  refine ⟨by simpa using hl, by simpa using hb, by omega, ?_⟩
  rwa [BitVec.not_lt] at hmin

/-- The flags of the subdevice that `do_cmd` finds. -/
theorem switchForCmd_snd (b : Board) (s : Subdevice) (cmd : Cmd) :
    ∃ r, (switchForCmd b s cmd).2 = { s with runflags := r } ∧
      r &&& srfRunning = s.runflags &&& srfRunning ∧ r &&& srfError = s.runflags &&& srfError := by
  unfold switchForCmd
  split
  · dsimp only
    split
    · exact ⟨_, rfl, BitFlags.set_keeps (by decide), BitFlags.set_keeps (by decide)⟩
    · exact ⟨_, rfl, rfl, rfl⟩
  · exact ⟨_, rfl, rfl, rfl⟩

theorem startedSubdevice_snd (b : Board) (s : Subdevice) (a : Async) (owner : Owner) :
    ∃ r, (startedSubdevice b s a owner).2 =
        { s with
          async := some { comediResetAsyncBuf a with cbMask := wakeMask a.cmd }
          runflags := r
          busy := some owner } ∧
      r &&& srfRunning ≠ 0 ∧ r &&& srfError = 0 := by
  let s₁ := comediSetSubdeviceRunflags
    { s with async := some { comediResetAsyncBuf a with cbMask := wakeMask a.cmd } }
    (~~~0) (srfUser ||| srfRunning)
  obtain ⟨r, hr, hrun, herr⟩ := switchForCmd_snd b s₁ a.cmd
  have hflags : s₁.runflags = srfUser ||| srfRunning := by
    change s.runflags &&& ~~~(~~~0) ||| (srfUser ||| srfRunning) &&& ~~~0 = _
    rw [show (~~~(~~~0) : U32) = 0 from rfl]
    have hz : s.runflags &&& 0 = 0 := BitVec.and_zero
    rw [hz]
    rfl
  refine ⟨r, ?_, ?_, ?_⟩
  · change { (switchForCmd b s₁ a.cmd).2 with busy := some owner } = _
    rw [hr]
    rfl
  · rw [hrun, hflags]
    decide
  · rw [herr, hflags]
    decide

theorem cmdCleanup_calls (b : Board) (s : Subdevice) (ret : Int) (calls : List Call) :
    (cmdCleanup b s ret calls).2.2.2 = calls ++ [.becomeNonbusy s.busy s.runflags] := rfl

theorem Ready.tested {a : Async} {s : Subdevice} (hs : s.async = some a) (h : Ready s a)
    (cmd : Cmd) {rest : List Call} (hr : ∀ s', .doCmd s' ∉ rest) :
    Tested (.doCmdtest cmd 0 a.cmd :: .doCmd s :: rest) :=
  .inr ⟨cmd, s, a, rest, rfl, hr, hs, h⟩

theorem becomeNonbusy_quiet (owner : Option Owner) (r : U32) :
    ∀ s' : Subdevice, Call.doCmd s' ∉ [Call.becomeNonbusy owner r] := by
  intro s' hm
  cases List.mem_singleton.mp hm

/-- `do_cmd_ioctl` from the point where it has the user's channel list. -/
theorem testCmd_effect {req : CmdReq} {file : File} {a₀ : Async} {entries : List U32}
    (hs : s.async = some a₀) (hb : s.busy = none) (hl : s.lockedOut file = false)
    (hc : a.cmd.chanlist = .kernel entries) (hlen : entries.length = a.cmd.chanlistLen.toNat)
    (hok : ∀ x ∈ entries, chanspecOk s x)
    (hbound : 1 ≤ a.cmd.chanlistLen ∧ a.cmd.chanlistLen.toNat ≤ s.lenChanlist)
    (ha : a.chanlistAllocs = a₀.chanlistAllocs + 1) (hz : a.preallocBufsz = a₀.preallocBufsz) :
    CmdEffect s file (testCmd b { s with async := some a } a req file).2.2.2
      (testCmd b { s with async := some a } a req file).2.2.1 := by
  have hchan : (req.test.run a.cmd).2.chanlist = .kernel entries :=
    (req.test.chanlist_eq a.cmd).trans hc
  have hfail : ∀ (s' : Subdevice) (a' : Async) (calls : List Call),
      s' = { s with async := some a', runflags := s'.runflags, busy := s'.busy } →
      a'.cmd.chanlist = .kernel entries → a'.chanlistAllocs = a₀.chanlistAllocs + 1 →
      a'.preallocBufsz = a₀.preallocBufsz → Tested calls → CmdEffect s file calls (released s') := by
    intro s' a' calls hs' hc' ha' hz' hcalls
    rw [hs']
    exact .failed a₀ (idleAsync a') s'.runflags calls hs hb (idleAsync_dropped a₀ hc' ha' hz') hcalls
  have huncalled : ∀ (cmd cmd' : Cmd) (ret : Int) (owner : Option Owner) (r : U32),
      Tested ([.doCmdtest cmd ret cmd'] ++ [.becomeNonbusy owner r]) := by
    intro cmd cmd' ret owner r
    exact .inl fun s' hm => by simp at hm
  unfold testCmd
  dsimp only
  split
  · rw [cmdCleanup_released, cmdCleanup_calls]
    exact hfail _ _ _ rfl hchan ha hz (huncalled _ _ _ _ _)
  next htest =>
  split
  · rw [cmdCleanup_released, cmdCleanup_calls]
    exact hfail _ _ _ rfl hchan ha hz (huncalled _ _ _ _ _)
  next hsz =>
  simp only [not_or, not_not] at htest
  let a₁ : Async := { a with cmd := (req.test.run a.cmd).2 }
  let started := startedSubdevice b { s with async := some a₁ } a₁ (.file file)
  obtain ⟨r, hr, hrun, herr⟩ := startedSubdevice_snd b { s with async := some a₁ } a₁ (.file file)
  have hlen' : a₁.cmd.chanlistLen = a.cmd.chanlistLen := req.test.chanlistLen_eq a.cmd htest.2
  have hready : ∀ a', a'.cmd = a₁.cmd → a'.preallocBufsz = a.preallocBufsz → Ready s a' := by
    intro a' hcmd hz'
    rw [hcmd.symm] at hlen'
    refine ⟨hz' ▸ hsz, hlen' ▸ hbound, entries, by rw [hcmd]; exact hchan, ?_, hok⟩
    rw [hlen', hlen]
  have htested : ∀ rest, (∀ s', Call.doCmd s' ∉ rest) →
      Tested (.doCmdtest a.cmd (req.test.run a.cmd).1 a₁.cmd :: .doCmd started.2 :: rest) := by
    intro rest hrest
    rw [htest.2, show started.2 = _ from hr]
    have h₀ := hready { comediResetAsyncBuf a₁ with cbMask := wakeMask a₁.cmd } rfl rfl
    refine Ready.tested (a := { comediResetAsyncBuf a₁ with cbMask := wakeMask a₁.cmd }) ?_ ?_
      a.cmd hrest
    · rfl
    · exact ⟨h₀.bufsz_ne, h₀.chanlistLen, h₀.chanlist⟩
  change CmdEffect s file
    (.doCmdtest a.cmd (req.test.run a.cmd).1 a₁.cmd ::
      (startCmd b { s with async := some a₁ } a₁ file req.start).2.2.2)
    (startCmd b { s with async := some a₁ } a₁ file req.start).2.2.1
  unfold startCmd
  dsimp only
  split
  · have hstart : setInttrig started.2 req.start.inttrig =
        { s with
          async := some { comediResetAsyncBuf a₁ with
            cbMask := wakeMask a₁.cmd, inttrig := req.start.inttrig }
          runflags := r
          busy := some (.file file) } := by
      rw [show started.2 = _ from hr]
      rfl
    have ht := htested [] (by simp)
    change CmdEffect s file [.doCmdtest a.cmd (req.test.run a.cmd).1 a₁.cmd, .doCmd started.2]
      (setInttrig started.2 req.start.inttrig)
    rw [htest.2] at ht ⊢
    rw [hstart]
    exact .started a₀ { comediResetAsyncBuf a₁ with
        cbMask := wakeMask a₁.cmd, inttrig := req.start.inttrig } r _ a.cmd hs hb hl
      { reset := rfl
        bufsz := hz
        ready := hready _ rfl rfl
        chanlistAllocs := ha } hrun herr ht
  · rw [cmdCleanup_released, cmdCleanup_calls]
    change CmdEffect s file _ (released (setInttrig started.2 req.start.inttrig))
    rw [released_setInttrig]
    refine hfail _ { comediResetAsyncBuf a₁ with cbMask := wakeMask a₁.cmd } _ ?_ hchan ha hz
      (htested _ (becomeNonbusy_quiet _ _))
    rw [show started.2 = _ from hr]

theorem doCmdIoctl_effect (b : Board) (s : Subdevice) (req : CmdReq) (file : File) :
    CmdEffect s file (doCmdIoctl b s req file).2.2.2 (doCmdIoctl b s req file).2.2.1 := by
  unfold doCmdIoctl
  split
  · exact .refused
  · exact .refused
  next a hr hs =>
  obtain ⟨hl, hb, hmax, hmin⟩ := cmdRefusal_none hr
  split
  · exact .noMemory a _ hs hb rfl rfl
  split
  · rw [cmdCleanup_released, cmdCleanup_calls]
    exact .failed a (idleAsync (loadCmd a req.cmd [])) s.runflags _ hs hb
      (idleAsync_dropped a rfl rfl rfl) (.inl (becomeNonbusy_quiet _ _))
  next f _ =>
  dsimp only
  split
  · rw [cmdCleanup_released, cmdCleanup_calls]
    exact .failed a (idleAsync (loadCmd a req.cmd _)) s.runflags _ hs hb
      (idleAsync_dropped a rfl rfl rfl) (.inl (becomeNonbusy_quiet _ _))
  next hcheck =>
  exact testCmd_effect hs hb hl rfl (by simp [loadCmd])
    (checkChanlist_nonneg.mp hcheck) ⟨hmin, hmax⟩ rfl rfl

/-- A subdevice that `COMEDI_CMD` has made the busy subdevice of the file. -/
theorem doCmdIoctl_started {req : CmdReq} {file : File} (hfree : s.busy = none)
    (hstart : (doCmdIoctl b s req file).2.2.1.busy = some (.file file)) :
    ∃ a a' r, s.async = some a ∧ Launched s a a' ∧ r &&& srfRunning ≠ 0 ∧ r &&& srfError = 0 ∧
      (doCmdIoctl b s req file).2.2.1 =
        { s with async := some a', runflags := r, busy := some (.file file) } := by
  have he := doCmdIoctl_effect b s req file
  generalize (doCmdIoctl b s req file).2.2.1 = s' at he hstart
  generalize (doCmdIoctl b s req file).2.2.2 = calls at he
  cases he with
  | refused =>
    rw [hfree] at hstart
    cases hstart
  | noMemory a a' hs hb =>
    rw [hb] at hstart
    cases hstart
  | failed => cases hstart
  | started a a' r s₀ cmd hs hb hl ha hr he hc => exact ⟨a, a', r, hs, ha, hr, he, rfl⟩

theorem Launched.mungeOk {a' : Async} (h : Launched s a a')
    (hsz : a.preallocBufsz.toNat < 2 ^ 31) : MungeBlocks.MungeOk s a' := by
  refine ⟨?_, by rw [h.bufsz]; exact hsz, fun _ hz => ?_⟩
  · rw [← h.reset, BitVec.lt_def]
    exact Nat.pos_of_ne_zero fun h0 => h.ready.bufsz_ne (BitVec.eq_of_toNat_eq h0)
  · have hlen := h.ready.chanlistLen.1
    rw [hz] at hlen
    exact absurd hlen (by decide)

end Comedi.CommandSteps
