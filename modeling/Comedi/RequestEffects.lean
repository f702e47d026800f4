import Comedi.Bufinfo
import Comedi.CommandSteps
import Comedi.ReadSpecs
import Comedi.WriteSpecs

namespace Comedi.RequestEffects

open AsyncBuffer RunState Requests ReadWrite Bufinfo CommandSteps ReadSpecs WriteSpecs GuardedRuns

/-- What no call on the buffer changes: the command, its trigger and the size of the buffer. -/
structure Stirs (a a' : Async) : Prop where
  cmd : a'.cmd = a.cmd
  inttrig : a'.inttrig = a.inttrig
  chanlistAllocs : a'.chanlistAllocs = a.chanlistAllocs
  bufsz : a'.preallocBufsz = a.preallocBufsz

variable {a a₁ a₂ a₃ a' : Async} {s s' : Subdevice} {n m r : U32} {b b' : Board}

theorem Stirs.refl (a : Async) : Stirs a a := ⟨rfl, rfl, rfl, rfl⟩

theorem Stirs.trans (h : Stirs a₁ a₂) (h' : Stirs a₂ a₃) : Stirs a₁ a₃ :=
  ⟨h'.cmd.trans h.cmd, h'.inttrig.trans h.inttrig, h'.chanlistAllocs.trans h.chanlistAllocs,
    h'.bufsz.trans h.bufsz⟩

theorem bugIfAhead_ok {x : U32 × Async} (h : bugIfAhead a r = .ok x) : x = (r, a) := by
  unfold bugIfAhead at h
  split at h
  · cases h
  · cases h
    rfl

theorem mungeLoop_stirs {munge : MungeFn} {size total : U32} {fuel : Nat} {count : U32}
    (h : mungeLoop munge size total fuel a count = .ok (r, a')) : Stirs a a' := by
  induction fuel generalizing a count with
  | zero => cases h
  | succ fuel ih =>
    unfold mungeLoop at h
    split at h
    · dsimp only at h
      split at h
      · cases h
        exact .refl _
      · obtain ⟨chan, -, h⟩ := bind_eq_ok h
        obtain ⟨ptr, -, h⟩ := bind_eq_ok h
        refine .trans ?_ (ih h)
        exact ⟨rfl, rfl, rfl, rfl⟩
    · cases h
      exact .refl _

theorem comediBufMunge_stirs (h : comediBufMunge s a n = .ok (r, a')) : Stirs a a' := by
  unfold comediBufMunge at h
  split at h
  · cases bugIfAhead_ok h
    exact ⟨rfl, rfl, rfl, rfl⟩
  · split at h
    · cases bugIfAhead_ok h
      exact ⟨rfl, rfl, rfl, rfl⟩
    · obtain ⟨⟨count, a₁⟩, hl, h⟩ := bind_eq_ok h
      cases bugIfAhead_ok h
      exact mungeLoop_stirs hl

theorem writeFree_stirs (h : comediBufWriteFree s a n = .ok (r, a')) : Stirs a a' := by
  obtain ⟨⟨count, a₁⟩, hm, h⟩ := bind_eq_ok h
  have h₁ : Stirs a a₁ := by
    refine .trans ?_ (comediBufMunge_stirs hm)
    exact ⟨rfl, rfl, rfl, rfl⟩
  dsimp only at h
  split at h
  · obtain ⟨ptr, -, h⟩ := bind_eq_ok h
    cases h
    exact ⟨h₁.cmd, h₁.inttrig, h₁.chanlistAllocs, h₁.bufsz⟩
  · cases h
    exact h₁

theorem readFree_stirs (h : comediBufReadFree a n = .ok (r, a')) : Stirs a a' := by
  obtain ⟨ptr, -, h⟩ := bind_eq_ok h
  cases h
  exact ⟨rfl, rfl, rfl, rfl⟩

theorem readAlloc_stirs (a : Async) (n : U32) : Stirs a (comediBufReadAlloc a n).2 :=
  ⟨rfl, rfl, rfl, rfl⟩

theorem writeAlloc_stirs (a : Async) (n : U32) : Stirs a (comediBufWriteAlloc a n).2 :=
  ⟨rfl, rfl, rfl, rfl⟩

theorem readRequest_stirs (h : readRequest a n = .ok (m, a')) : Stirs a a' := by
  unfold readRequest at h
  split at h
  · cases h
    exact .refl a
  · obtain ⟨⟨k, a₁⟩, hf, h⟩ := bind_eq_ok h
    cases h
    exact (readAlloc_stirs a n).trans (readFree_stirs hf)

theorem writeRequest_stirs (h : writeRequest s a n = .ok (m, a')) : Stirs a a' := by
  unfold writeRequest at h
  split at h
  · cases h
    exact .refl a
  · obtain ⟨⟨k, a₁⟩, hf, h⟩ := bind_eq_ok h
    cases h
    exact (writeAlloc_stirs a n).trans (writeFree_stirs hf)

theorem readLoop_stirs {call : IoCall} {pc : Pc} {bytes : List Byte}
    (h : readLoop s a call = .ok (pc, bytes, a')) : Stirs a a' := by
  unfold readLoop at h
  dsimp only at h
  split at h
  · split at h
    · cases h
      exact .refl a
    · split at h <;> cases h <;> exact .refl a
  · obtain ⟨⟨bytes', a₁⟩, ht, h⟩ := bind_eq_ok h
    cases h
    obtain ⟨⟨k, a₂⟩, hf, ht⟩ := bind_eq_ok ht
    cases ht
    exact (readAlloc_stirs a _).trans (readFree_stirs hf)

theorem writeContiguous_stirs (a : Async) (n : U32) : Stirs a (writeContiguous a n).2 :=
  ⟨rfl, rfl, rfl, rfl⟩

theorem writeLoop_stirs {call : IoCall} {pc : Pc} {data : List Byte}
    (h : writeLoop s a call data = .ok (pc, a')) : Stirs a a' := by
  unfold writeLoop at h
  split at h
  · cases h
    exact .refl a
  · dsimp only at h
    split at h
    · cases h
      exact writeContiguous_stirs a _
    · obtain ⟨⟨k, a₁⟩, hf, h⟩ := bind_eq_ok h
      cases h
      refine .trans ?_ (writeFree_stirs hf)
      exact ⟨rfl, rfl, rfl, rfl⟩

/-- The buffer of the subdevice has been used, and nothing else has happened. -/
inductive Stirred (s : Subdevice) : Subdevice → Prop where
  | mk (a a' : Async) (hs : s.async = some a) (h : Stirs a a') :
      Stirred s { s with async := some a' }

/-- What one stretch of a read or write call does: nothing, unless its file owns the command. -/
inductive IoEffect (s : Subdevice) (file : File) : Subdevice → Prop where
  | nothing : IoEffect s file s
  | used (s' : Subdevice) (hb : s.busy = some (.file file)) (h : Stirred s s') : IoEffect s file s'

section Io

variable {call : IoCall} {pc : Pc} {bytes data : List Byte}

theorem readEnter_effect (h : readEnter s call = .ok (pc, bytes, s')) :
    IoEffect s call.file s' := by
  cases hs : s.async with
  | none =>
    simp only [readEnter, hs] at h
    cases h
    exact .nothing
  | some a =>
    rcases readEnter_cases hs h with ⟨rfl, -⟩ | ⟨-, hb, a', hl, rfl⟩
    · exact .nothing
    · exact .used _ hb ⟨a, a', hs, readLoop_stirs hl⟩

theorem readWake_effect {signal : Bool} (h : readWake s call signal = .ok (pc, bytes, s')) :
    IoEffect s call.file s' := by
  cases hs : s.async with
  | none =>
    simp only [readWake, hs] at h
    split at h
    · cases h
      exact .nothing
    · split at h
      · cases h
        exact .nothing
      · cases h
        exact .nothing
      · next heq => cases heq
  | some a =>
    rcases readWake_cases hs h with ⟨rfl, -⟩ | ⟨hb, a', hl, rfl⟩
    · exact .nothing
    · exact .used _ hb ⟨a, a', hs, readLoop_stirs hl⟩

theorem writeEnter_effect (h : writeEnter s call data = .ok (pc, s')) :
    IoEffect s call.file s' := by
  cases hs : s.async with
  | none =>
    simp only [writeEnter, hs] at h
    cases h
    exact .nothing
  | some a =>
    rcases writeEnter_cases hs h with ⟨rfl, -⟩ | ⟨-, hb, a', hl, rfl⟩
    · exact .nothing
    · exact .used _ hb ⟨a, a', hs, writeLoop_stirs hl⟩

theorem writeWake_effect {signal : Bool} (h : writeWake s call data signal = .ok (pc, s')) :
    IoEffect s call.file s' := by
  cases hs : s.async with
  | none =>
    simp only [writeWake, hs] at h
    split at h
    · cases h
      exact .nothing
    · split at h
      · cases h
        exact .nothing
      · cases h
        exact .nothing
      · next heq => cases heq
  | some a =>
    rcases writeWake_cases hs h with ⟨rfl, -⟩ | ⟨hb, a', hl, rfl⟩
    · exact .nothing
    · exact .used _ hb ⟨a, a', hs, writeLoop_stirs hl⟩

theorem readRelease_released (b : Board) (s : Subdevice) :
    (readRelease b s).2.2.1 = released s := doBecomeNonbusy_released b s

theorem writeRelease_released (b : Board) (s : Subdevice) :
    (writeRelease b s).2.2.1 = released s := doBecomeNonbusy_released b s

theorem readPost_effect (b : Board) (s : Subdevice) (ret : Int) :
    (readPost b s ret).2.2.1 = s ∨ (readPost b s ret).2.2.1 = released s := by
  unfold readPost
  split
  · exact .inl rfl
  · split
    · exact .inr (doBecomeNonbusy_released b s)
    · exact .inl rfl

end Io

/-- The reading part of the request gives the subdevice back. -/
def FreesOnRead (s : Subdevice) (bi : Info) : Prop :=
  s.subdevFlags &&& sdfCmdRead ≠ 0 ∧ s.runflags &&& (srfRunning ||| srfError) = 0 ∧
    ∃ a n a', s.async = some a ∧ readRequest a bi.bytesRead = .ok (n, a') ∧
      a'.bufWriteCount = a'.bufReadCount

/-- The writing part of the request uses the buffer that the reading part has given back. -/
def WritesFreed (s : Subdevice) (bi : Info) : Prop :=
  FreesOnRead s bi ∧ s.subdevFlags &&& sdfCmdWrite ≠ 0 ∧ bi.bytesWritten ≠ 0

/-- What `COMEDI_BUFINFO` does: nothing, unless the file owns the command and is not locked
out. The reading part uses the buffer and may release the subdevice, and the writing part uses
what it finds then. -/
inductive BufinfoEffect (s : Subdevice) (bi : Info) (file : File) : Subdevice → Prop where
  | nothing : BufinfoEffect s bi file s
  | used (s' : Subdevice) (hb : s.busy = some (.file file)) (hl : s.lockedOut file = false)
      (h : Stirred s s') : BufinfoEffect s bi file s'
  | freed (s' : Subdevice) (hb : s.busy = some (.file file)) (hl : s.lockedOut file = false)
      (hf : FreesOnRead s bi) (h : Stirred s s') : BufinfoEffect s bi file (released s')
  | usedFreed (s' : Subdevice) (hb : s.busy = some (.file file)) (hl : s.lockedOut file = false)
      (hw : WritesFreed s bi) (h : ∃ s₁, Stirred s s₁ ∧ Stirred (released s₁) s') :
      BufinfoEffect s bi file s'

theorem Stirred.self (hs : s.async = some a) : Stirred s s := by
  have h := Stirred.mk a a hs (.refl a)
  rwa [← hs] at h

theorem Stirred.trans {s₁ s₂ s₃ : Subdevice} (h : Stirred s₁ s₂) (h' : Stirred s₂ s₃) :
    Stirred s₁ s₃ := by
  obtain ⟨a, a', hs, h⟩ := h
  obtain ⟨a₁, a₂, hs', h'⟩ := h'
  cases hs'
  exact ⟨a, a₂, hs, h.trans h'⟩

theorem readPart_effect {bi bi' : Info} {ret : Int} (hs : s.async = some a)
    (h : readPart b s a bi = .ok (ret, bi', b', s')) :
    bi'.bytesWritten = bi.bytesWritten ∧
      (Stirred s s' ∨ FreesOnRead s bi ∧ ∃ s₁, Stirred s s₁ ∧ s' = released s₁) := by
  unfold readPart at h
  split at h
  · cases h
    exact ⟨rfl, .inl (.self hs)⟩
  next hflag =>
  obtain ⟨⟨n, a₁⟩, hreq, h⟩ := bind_eq_ok h
  injection h with h
  have hst : Stirred s { s with async := some a₁ } := ⟨a, a₁, hs, readRequest_stirs hreq⟩
  refine ⟨(congrArg (·.2.1.bytesWritten) h).symm, ?_⟩
  rw [show s' = (afterRead b s a₁ n).2.2 from (congrArg (·.2.2.2) h).symm]
  dsimp only [afterRead]
  split
  · next heq =>
    by_cases hrun : s.runflags &&& (srfRunning ||| srfError) = 0
    · simp only [if_pos hrun]
      exact .inr ⟨⟨hflag, hrun, a, n, a₁, hs, hreq, heq⟩, _, hst, doBecomeNonbusy_released b _⟩
    · simp only [if_neg hrun]
      exact .inl hst
  · exact .inl hst

theorem writePart_effect {bi bi' : Info} {ret : Int} (hs : s.async = some a)
    (h : writePart s a bi = .ok (ret, bi', s')) :
    Stirred s s' ∧ (s' = s ∨ s.subdevFlags &&& sdfCmdWrite ≠ 0 ∧ bi.bytesWritten ≠ 0) := by
  unfold writePart at h
  split at h
  · cases h
    exact ⟨.self hs, .inl rfl⟩
  next hflag =>
  obtain ⟨⟨n, a₁⟩, hreq, h⟩ := bind_eq_ok h
  cases h
  refine ⟨⟨a, a₁, hs, writeRequest_stirs hreq⟩, ?_⟩
  by_cases hz : bi.bytesWritten = 0
  · simp only [writeRequest, if_pos hz] at hreq
    cases hreq
    rw [← hs]
    exact .inl rfl
  · exact .inr ⟨hflag, hz⟩

theorem copyback_subdevice (b : Board) (s : Subdevice) (bi : Info) (copyTo : Bool) :
    (copyback b s bi copyTo).2.2.2 = s := by
  unfold copyback
  split <;> rfl

theorem Stirred.async_isSome (h : Stirred s s') : ∃ a, s'.async = some a := by
  obtain ⟨a, a', -, -⟩ := h
  exact ⟨a', rfl⟩

theorem Stirred.subdevFlags (h : Stirred s s') : s'.subdevFlags = s.subdevFlags := by
  obtain ⟨a, a', -, -⟩ := h
  rfl

theorem doBufinfoIoctl_effect {bi : Info} {file : File} {copyTo : Bool} {ret : Int}
    {out : Option Info} (h : doBufinfoIoctl b s bi file copyTo = .ok (ret, out, b', s')) :
    BufinfoEffect s bi file s' := by
  unfold doBufinfoIoctl at h
  split at h
  · cases h
    exact .nothing
  next hl =>
  split at h
  · injection h with h
    rw [show s' = s from (congrArg (·.2.2.2) h).symm.trans (copyback_subdevice _ _ _ _)]
    exact .nothing
  next a hs =>
  split at h
  · injection h with h
    rw [show s' = s from (congrArg (·.2.2.2) h).symm.trans (copyback_subdevice _ _ _ _)]
    exact .nothing
  next o hb =>
  split at h
  · cases h
    exact .nothing
  next ho =>
  rw [not_not] at ho
  rw [ho] at hb
  rw [Bool.not_eq_true] at hl
  obtain ⟨⟨r₁, bi₁, b₁, s₁⟩, hread, h⟩ := bind_eq_ok h
  obtain ⟨⟨r₂, bi₂, s₂⟩, hwrite, h⟩ := bind_eq_ok h
  have hend : s' = s₂ := by
    dsimp only at h
    split at h
    · cases h
      rfl
    · injection h with h
      exact (congrArg (·.2.2.2) h).symm.trans (copyback_subdevice _ _ _ _)
  subst hend
  obtain ⟨hbi, hst | ⟨hfree, s₀, hst, rfl⟩⟩ := readPart_effect hs hread
  · obtain ⟨a₁, hs₁⟩ := hst.async_isSome
    rw [hs₁] at hwrite
    obtain ⟨hst', -⟩ := writePart_effect hs₁ hwrite
    exact .used _ hb hl (hst.trans hst')
  · obtain ⟨a₀, hs₀⟩ := hst.async_isSome
    have hs₁ : (released s₀).async = some (idleAsync a₀) := by
      simp only [released, hs₀, Option.map_some]
    rw [hs₁] at hwrite
    obtain ⟨hst', he | ⟨hflag, hz⟩⟩ := writePart_effect hs₁ hwrite
    · rw [he]
      exact .freed _ hb hl hfree hst
    · rw [hbi] at hz
      have hflag' : s.subdevFlags &&& sdfCmdWrite ≠ 0 := by
        rw [← hst.subdevFlags]
        exact hflag
      exact .usedFreed _ hb hl ⟨hfree, hflag', hz⟩ ⟨s₀, hst, hst'⟩

end Comedi.RequestEffects
