import Comedi.CfcWrites
import Comedi.CommandSteps
import Comedi.ReadSpecs
import Comedi.RingCopies

namespace Comedi.EndOfAcquisition

open AsyncBuffer RingMarks RingCounters MungeBlocks SerialCounter RunState BufinfoOrder Fc CfcWrites
open ReadWrite ReadSpecs RingCopies CommandSteps GuardedRuns Requests

/-- The munged bytes in the buffer that have not been read. -/
def unreadBytes (a : Async) : List Byte :=
  window a.preallocBuf a.preallocBufsz.toNat a.bufReadPtr.toNat (comediBufReadNAvailable a).toNat

/-- An acquisition with its reader: the call that sleeps, the bytes all calls have returned, the
bytes that were returned and that were unread when `SRF_RUNNING` was cleared, whether an error
or an overflow was seen, and the result of the first call that returned 0 or `-EPIPE`. -/
structure Acquisition where
  board : Board := {}
  sub : Subdevice
  sleeping : Option IoCall := none
  returned : List Byte := []
  stop : Option (List Byte × List Byte) := none
  failed : Bool := false
  ended : Option Int := none

inductive AcquisitionStep where
  | write (data : List Byte)
  | put (x : BitVec 16)
  | raise (events : U32)
  | event
  | read (nbytes : Count) (nonblock : Bool) (missed : U32)
  | wake (signal : Bool)

/-- The end of a call that does not sleep, with `dev->mutex` free. -/
def finishRead (b : Board) (s : Subdevice) : Pc → Option Int × Board × Subdevice
  | .asleep => (none, b, s)
  | .returned ret => (some ret, b, s)
  | .postLock ret =>
    let (_, b, s, _) := readPost b s ret
    (some ret, b, s)
  | .releaseLock =>
    let (pc, b, s, _) := readRelease b s
    match pc with
    | .postLock ret =>
      let (_, b, s, _) := readPost b s ret
      (some ret, b, s)
    | .returned ret => (some ret, b, s)
    | _ => (none, b, s)

def isLast (ret : Option Int) : Bool := ret = some 0 ∨ ret = some (-epipe)

/-- What the reader knows after a stretch of the call. -/
def Acquisition.settle (st : Acquisition) (call : IoCall) (pc : Pc) (bytes : List Byte)
    (s : Subdevice) : Acquisition :=
  let (ret, b, s) := finishRead st.board s pc
  { st with
    board := b
    sub := s
    sleeping := if ret.isNone then some call else none
    returned := st.returned ++ bytes
    ended := if isLast ret then ret else none }

def onBuffer (st : Acquisition) (f : Async → Result Async) : Result Acquisition :=
  match st.sub.async with
  | none => .ok st
  | some a => do
    let a ← f a
    return { st with sub := { st.sub with async := some a } }

def failing (a : Async) : Bool := a.events &&& (comediCbError ||| comediCbOverflow) ≠ 0

/-- `comedi_event`, and what is seen of it. -/
def Acquisition.event (st : Acquisition) : Acquisition :=
  let s := (comediEvent st.board st.sub).1
  match st.sub.async with
  | none => { st with sub := s }
  | some a =>
    if st.sub.runflags &&& srfRunning = 0 then { st with sub := s }
    else
      { st with
        sub := s
        stop := if s.runflags &&& srfRunning = 0 then some (st.returned, unreadBytes a) else st.stop
        failed := st.failed || failing a }

def acquisitionStep (file : File) (st : Acquisition) : AcquisitionStep → Result Acquisition
  | .write data => onBuffer st fun a => (·.2) <$> cfcWriteArrayToBuffer st.sub a data
  | .put x => onBuffer st fun a => (·.2) <$> comediBufPut st.sub a x
  | .raise events => onBuffer st fun a => .ok (raiseEvents a events)
  | .event => .ok st.event
  | .read nbytes nonblock missed =>
    if st.sleeping.isSome then .ok st
    else do
      let call := ⟨file, nbytes, nonblock, missed⟩
      let (pc, bytes, s) ← readEnter st.sub call
      return st.settle call pc bytes s
  | .wake signal =>
    match st.sleeping with
    | none => .ok st
    | some call => do
      let (pc, bytes, s) ← readWake st.sub call signal
      return st.settle call pc bytes s

/-- Until the end, the driver writes only while the command runs, and the reader asks for
something. -/
def AcquisitionFits (st : Acquisition) (x : AcquisitionStep) : Prop :=
  st.ended = none ∧
    match x with
    | .write data => st.sub.runflags &&& srfRunning ≠ 0 ∧ data.length < 2 ^ 31
    | .put _ => st.sub.runflags &&& srfRunning ≠ 0
    | .read nbytes _ _ => 0 < nbytes.val
    | _ => True

/-- The buffer of a command that `file` owns and reads. -/
structure Live (file : File) (s : Subdevice) (a : Async) : Prop where
  busy : s.busy = some (.file file)
  async : s.async = some a
  ringed : InRing s a
  readPtr_lt : a.bufReadPtr < a.preallocBufsz
  readAlloc : a.bufReadAllocCount = a.bufReadCount

theorem window_mod {β : Type} (ring : Nat → β) (cap pos n : Nat) :
    window ring cap (pos % cap) n = window ring cap pos n := by
  simp only [window, Nat.mod_add_mod]

variable {file : File} {s s' : Subdevice} {a a' : Async} {n : U32} {bytes : List Byte} {b : Board}

theorem Live.unread_eq (h : Live file s a) {cap : Nat} {μ : Marks cap} (hμ : Tracks a μ) :
    unreadBytes a = window a.preallocBuf cap a.bufReadPtr.toNat (μ.ready - μ.read) := by
  have hcap : cap < 2 ^ 31 := hμ.bufsz ▸ h.ringed.munge.bufsz_lt
  rw [unreadBytes, tracks_unread hcap hμ, hμ.bufsz]

theorem Live.idle (h : Live file s a) {cap : Nat} {μ : Marks cap} (hμ : Tracks a μ) :
    μ.readAlloc = μ.read := by
  have hc := μ.chain
  have hcap : cap < 2 ^ 31 := hμ.bufsz ▸ h.ringed.munge.bufsz_lt
  have hz : μ.readAlloc - μ.read = 0 := by
    rw [← toNat_ofNat_sub (m := μ.readAlloc) (n := μ.read) (by omega) (by omega),
      ← hμ.readCount, ← hμ.readAllocCount, h.readAlloc, BitVec.sub_self]
    rfl
  omega

/-- A transfer takes the first of the unread bytes. -/
theorem readTransfer_unread (h : Live file s a) {cap : Nat} {μ : Marks cap} (hμ : Tracks a μ)
    (hn : n.toNat ≤ μ.ready - μ.read) (hfit : a.bufReadPtr.toNat + n.toNat ≤ cap) :
    ∃ bytes a', readTransfer a n = .ok (bytes, a') ∧ Live file { s with async := some a' } a' ∧
      bytes ++ unreadBytes a' = unreadBytes a := by
  have hc := μ.chain
  have hcap : cap < 2 ^ 31 := hμ.bufsz ▸ h.ringed.munge.bufsz_lt
  have hptr : a.bufReadPtr.toNat < cap := hμ.bufsz ▸ BitVec.lt_def.mp h.readPtr_lt
  obtain ⟨he, htr, hrel⟩ := readTransfer_spec hcap (by omega) hμ (h.idle hμ) hn
  obtain ⟨hring, hptr', -⟩ := readTransfer_order h.ringed (by omega) he
  have hlive : Live file { s with async := some (taken a μ n) } (taken a μ n) :=
    ⟨h.busy, rfl, hring.congr rfl rfl, hptr', rfl⟩
  refine ⟨_, _, he, hlive, ?_⟩
  have hsum : (a.bufReadPtr + n).toNat = a.bufReadPtr.toNat + n.toNat := by
    rw [BitVec.toNat_add, Nat.mod_eq_of_lt (by omega)]
  have hp : (taken a μ n).bufReadPtr.toNat = (a.bufReadPtr.toNat + n.toNat) % cap := by
    change ((a.bufReadPtr + n) % a.preallocBufsz).toNat = _
    rw [BitVec.toNat_umod, hsum, hμ.bufsz]
  have hleft : μ.ready - μ.read = n.toNat + (μ.ready - (μ.read + n.toNat)) := by omega
  have hblock : readBlock a.preallocBuf a.bufReadPtr.toNat n.toNat =
      window a.preallocBuf cap a.bufReadPtr.toNat n.toNat := by
    have hm : a.bufReadPtr.toNat % cap = a.bufReadPtr.toNat := Nat.mod_eq_of_lt hptr
    have hw : readBlock a.preallocBuf (a.bufReadPtr.toNat % cap) n.toNat =
        window a.preallocBuf cap a.bufReadPtr.toNat n.toNat :=
      readBlock_eq_window (by rw [hm]; exact hfit)
    rwa [hm] at hw
  have hready : ((μ.acquire n.toNat).release n.toNat).ready = μ.ready := rfl
  rw [h.unread_eq hμ, hleft, window_add, ← hblock, hlive.unread_eq htr, hp, window_mod, hrel, hready]
  rfl

theorem unreadBytes_eq_nil (h : (comediBufReadNAvailable a).toNat = 0) : unreadBytes a = [] := by
  rw [unreadBytes, h]
  rfl

/-- A ring in which all that was written is read has nothing unread. -/
theorem Live.drained (h : Live file s a) (he : a.bufReadCount - a.bufWriteCount = 0) :
    unreadBytes a = [] := by
  apply unreadBytes_eq_nil
  have hw : a.bufWriteCount = a.bufReadCount := (sub_eq_zero.mp he).symm
  have hm := h.ringed.order.munge_le
  rw [hw, BitVec.sub_self] at hm
  exact Nat.le_zero.mp hm

theorem result_zero (retval : Int) : result 0 retval = retval := if_neg (by decide)

variable {call : IoCall} {pc : Pc}

/-- One pass of the loop: nothing is there, or some of the unread bytes are taken and the call
returns something else than the end. -/
theorem readLoop_cases (h : Live file s a) (hpos : 0 < call.nbytes.val) :
    ∃ pc bytes a', readLoop s a call = .ok (pc, bytes, a') ∧
      ((a' = a ∧ bytes = [] ∧ unreadBytes a = [] ∧
          (s.runflags &&& srfRunning = 0 ∧ pc = .releaseLock ∨
            s.runflags &&& srfRunning ≠ 0 ∧ (pc = readTail s 0 (-eagain) ∨ pc = .asleep))) ∨
        (Live file { s with async := some a' } a' ∧ bytes ++ unreadBytes a' = unreadBytes a ∧
          ∃ k retval, pc = readTail s k retval ∧ isLast (some (result k retval)) = false)) := by
  have hcap := h.ringed.munge.bufsz_lt
  obtain ⟨μ, hμ⟩ := h.ringed.order.exists_tracks
  have hptr := BitVec.lt_def.mp h.readPtr_lt
  have hn := readContiguous_toNat hcap hμ hptr (n := .ofNat 32 call.nbytes) (by
    rw [nbytes_toNat]
    exact call.nbytes.isLt)
  rw [nbytes_toNat] at hn
  unfold readLoop
  dsimp only
  split
  · next hz =>
    rw [hz] at hn
    have h0 : (0 : U32).toNat = 0 := rfl
    have hnone : unreadBytes a = [] :=
      unreadBytes_eq_nil (by rw [tracks_unread hcap hμ]; omega)
    split
    · next hr => exact ⟨_, _, _, rfl, .inl ⟨rfl, rfl, hnone, .inl ⟨hr, rfl⟩⟩⟩
    · next hr =>
      split
      · exact ⟨_, _, _, rfl, .inl ⟨rfl, rfl, hnone, .inr ⟨hr, .inl rfl⟩⟩⟩
      · exact ⟨_, _, _, rfl, .inl ⟨rfl, rfl, hnone, .inr ⟨hr, .inr rfl⟩⟩⟩
  · next hz =>
    generalize hm : (if call.missed ≤ readContiguous a (.ofNat 32 call.nbytes) then call.missed
      else readContiguous a (.ofNat 32 call.nbytes)) = m
    have hle : m ≤ readContiguous a (.ofNat 32 call.nbytes) := hm ▸ clipped_le _ _
    generalize readContiguous a (.ofNat 32 call.nbytes) = n at *
    have hk : (n - m).toNat = n.toNat - m.toNat := BitVec.toNat_sub_of_le hle
    obtain ⟨bytes, a', ht, hlive, hbytes⟩ :=
      readTransfer_unread (n := n - m) h hμ (by omega) (by omega)
    refine ⟨_, bytes, a', bind_ok ht _, .inr ⟨hlive, hbytes, n - m, _, rfl, ?_⟩⟩
    have hmn := call.nbytes.isLt
    by_cases hkz : n - m = 0
    · have hmz : m ≠ 0 := by
        rintro rfl
        exact hz ((sub_zero n).symm.trans hkz)
      rw [hkz, result_zero, if_pos hmz]
      rfl
    · have hpos : 0 < (n - m).toInt := by
        rw [toInt_pos_iff]
        refine ⟨Nat.pos_of_ne_zero fun h0 => hkz (BitVec.eq_of_toNat_eq h0), by omega⟩
      rw [result, if_pos hkz]
      have he : epipe = 32 := rfl
      simp only [isLast, Option.some.injEq, decide_eq_false_iff_not, not_or]
      omega

theorem flags_stopped (h : s.runflags &&& srfRunning = 0) :
    s.runflags &&& (srfError ||| srfRunning) = 0 ↔ s.runflags &&& srfError = 0 := by
  rw [BitVec.and_or_distrib_left, h]
  exact ⟨fun hz => (BitVec.or_eq_zero_iff.mp hz).1, fun hz => by rw [hz]; rfl⟩

theorem readTail_running (h : s.runflags &&& srfRunning ≠ 0) (k : U32) (retval : Int) :
    readTail s k retval = .returned (result k retval) := if_neg (flags_running h)

/-- The call that finds the end of the acquisition. -/
theorem finishRead_release (ha : s.async = some a) :
    (finishRead b s .releaseLock).1 = some (if s.runflags &&& srfError ≠ 0 then -epipe else 0) ∧
      (finishRead b s .releaseLock).2.2.busy = none := by
  have hrel := doBecomeNonbusy_released b s
  have herr := released_error s
  have hflags := flags_stopped (released_running s)
  unfold finishRead
  simp only [readRelease, hrel, readTail, result_zero]
  by_cases he : s.runflags &&& srfError = 0
  · rw [herr] at hflags
    have hasync : (released s).async = some (idleAsync a) := by
      simp only [released, ha, Option.map_some]
    have hz : (idleAsync a).bufReadCount - (idleAsync a).bufWriteCount = 0 := sub_self (0 : U32)
    simp only [if_pos (hflags.mpr he), readPost, hasync, if_pos hz, doBecomeNonbusy_released]
    exact ⟨by simp, rfl⟩
  · rw [herr] at hflags
    simp only [if_neg (mt hflags.mp he)]
    exact ⟨trivial, rfl⟩

/-- How far an acquisition has come. -/
inductive Phase (file : File) (st : Acquisition) : Prop where
  | running (a : Async) (live : Live file st.sub a) (hrun : st.sub.runflags &&& srfRunning ≠ 0)
      (herr : st.sub.runflags &&& srfError = 0) (hstop : st.stop = none)
      (hfail : st.failed = false) (hend : st.ended = none)
      (hcall : ∀ call, st.sleeping = some call → call.file = file ∧ 0 < call.nbytes.val)
  | draining (a : Async) (before left : List Byte) (live : Live file st.sub a)
      (hrun : st.sub.runflags &&& srfRunning = 0)
      (herr : st.sub.runflags &&& srfError ≠ 0 ↔ st.failed = true)
      (hstop : st.stop = some (before, left))
      (hbytes : st.returned ++ unreadBytes a = before ++ left) (hend : st.ended = none)
      (hcall : ∀ call, st.sleeping = some call → call.file = file ∧ 0 < call.nbytes.val)
  | free (a : Async) (before left : List Byte) (hbusy : st.sub.busy = none)
      (hasync : st.sub.async = some a) (hrun : st.sub.runflags &&& srfRunning = 0)
      (hfail : st.failed = false) (hstop : st.stop = some (before, left))
      (hbytes : st.returned = before ++ left) (hend : st.ended = none) (hcall : st.sleeping = none)
  | done (before left : List Byte) (ret : Int) (hbusy : st.sub.busy = none)
      (hstop : st.stop = some (before, left)) (hbytes : st.returned = before ++ left)
      (hend : st.ended = some ret) (hret : ret = 0 ∨ ret = -epipe)
      (hpipe : ret = -epipe ↔ st.failed = true) (hcall : st.sleeping = none)

variable {st st' : Acquisition}

/-- A call that neither sleeps nor ends the acquisition, while the command runs. -/
theorem Phase.running_goes_on (live : Live file s a) (hrun : s.runflags &&& srfRunning ≠ 0)
    (herr : s.runflags &&& srfError = 0) (hstop : st.stop = none) (hfail : st.failed = false)
    (bytes : List Byte) {k : U32} {retval : Int} (hlast : isLast (some (result k retval)) = false) :
    Phase file (st.settle call (readTail s k retval) bytes s) := by
  rw [readTail_running hrun]
  have hs : st.settle call (.returned (result k retval)) bytes s =
      { st with
        sub := s, sleeping := none, returned := st.returned ++ bytes, ended := none } := by
    simp only [Acquisition.settle, finishRead, hlast]
    rfl
  rw [hs]
  exact .running a live hrun herr hstop hfail rfl fun _ hc => by cases hc

/-- A call that returns something else than the end, after the command has stopped. -/
theorem Phase.draining_goes_on (live : Live file s a) (hrun : s.runflags &&& srfRunning = 0)
    (herr : s.runflags &&& srfError ≠ 0 ↔ st.failed = true) {before left : List Byte}
    (hstop : st.stop = some (before, left)) (bytes : List Byte)
    (hbytes : st.returned ++ bytes ++ unreadBytes a = before ++ left) {k : U32} {retval : Int}
    (hlast : isLast (some (result k retval)) = false) :
    Phase file (st.settle call (readTail s k retval) bytes s) := by
  unfold readTail
  split
  · next hf =>
    have he := (flags_stopped hrun).mp hf
    have hfail : st.failed = false := by
      by_contra hn
      exact herr.mpr (by simpa using hn) he
    have hrel := doBecomeNonbusy_released st.board s
    by_cases hz : a.bufReadCount - a.bufWriteCount = 0
    · have hs : st.settle call (.postLock (result k retval)) bytes s =
          { st with
            board := (doBecomeNonbusy st.board s).1, sub := released s, sleeping := none
            returned := st.returned ++ bytes, ended := none } := by
        simp only [Acquisition.settle, finishRead, readPost, live.async, if_pos hz, hlast, hrel]
        rfl
      rw [hs]
      rw [live.drained hz, List.append_nil] at hbytes
      exact .free (idleAsync a) before left rfl (by simp only [released, live.async, Option.map_some])
        (released_running s) hfail hstop hbytes rfl rfl
    · have hs : st.settle call (.postLock (result k retval)) bytes s =
          { st with
            sub := s, sleeping := none, returned := st.returned ++ bytes, ended := none } := by
        simp only [Acquisition.settle, finishRead, readPost, live.async, if_neg hz, hlast]
        rfl
      rw [hs]
      exact .draining a before left live hrun herr hstop hbytes rfl fun _ hc => by cases hc
  · have hs : st.settle call (.returned (result k retval)) bytes s =
        { st with
          sub := s, sleeping := none, returned := st.returned ++ bytes, ended := none } := by
      simp only [Acquisition.settle, finishRead, hlast]
      rfl
    rw [hs]
    exact .draining a before left live hrun herr hstop hbytes rfl fun _ hc => by cases hc

/-- The call that finds the buffer empty after the command has stopped ends the acquisition. -/
theorem Phase.ends (live : Live file s a) (herr : s.runflags &&& srfError ≠ 0 ↔ st.failed = true)
    {before left : List Byte} (hstop : st.stop = some (before, left))
    (hbytes : st.returned = before ++ left) :
    Phase file (st.settle call .releaseLock [] s) := by
  obtain ⟨hret, hbusy⟩ := finishRead_release (b := st.board) live.async
  generalize hf : finishRead st.board s .releaseLock = r at hret hbusy
  obtain ⟨ret, b', s'⟩ := r
  dsimp only at hret hbusy
  subst hret
  have hlast : isLast (some (if s.runflags &&& srfError ≠ 0 then -epipe else 0)) = true := by
    split <;> rfl
  have hs : st.settle call .releaseLock [] s =
      { st with
        board := b', sub := s', sleeping := none, returned := st.returned
        ended := some (if s.runflags &&& srfError ≠ 0 then -epipe else 0) } := by
    simp only [Acquisition.settle, hf, hlast, List.append_nil]
    rfl
  rw [hs]
  refine .done before left _ hbusy hstop hbytes rfl ?_ ?_ rfl
  · split
    · exact .inr rfl
    · exact .inl rfl
  · rw [← herr]
    split
    · next he => exact ⟨fun _ => he, fun _ => rfl⟩
    · next he => exact ⟨fun h => absurd h (by decide), fun h => absurd h he⟩

/-- A call that finds nothing while the command runs. -/
theorem Phase.sleeps (live : Live file s a) (hrun : s.runflags &&& srfRunning ≠ 0)
    (herr : s.runflags &&& srfError = 0) (hstop : st.stop = none) (hfail : st.failed = false)
    (hcall : call.file = file ∧ 0 < call.nbytes.val) (bytes : List Byte) :
    Phase file (st.settle call .asleep bytes s) := by
  have hs : st.settle call .asleep bytes s =
      { st with
        sub := s, sleeping := some call, returned := st.returned ++ bytes, ended := none } := rfl
  rw [hs]
  refine .running a live hrun herr hstop hfail rfl fun c hc => ?_
  cases hc
  exact hcall

/-- One pass of the loop, whether the command runs or has stopped. -/
theorem Phase.pass (h : Phase file st) (hb : st.sub.busy = some (.file file))
    (hs : st.sub.async = some a) (hcall : call.file = file ∧ 0 < call.nbytes.val) :
    ∃ pc bytes a', readLoop st.sub a call = .ok (pc, bytes, a') ∧
      Phase file (st.settle call pc bytes { st.sub with async := some a' }) := by
  have hsame : { st.sub with async := some a } = st.sub := by rw [← hs]
  cases h with
  | running a₀ live hrun herr hstop hfail hend _ =>
    cases hs.symm.trans live.async
    obtain ⟨pc, bytes, a', hl, hcases⟩ := readLoop_cases live hcall.2
    refine ⟨pc, bytes, a', hl, ?_⟩
    rcases hcases with ⟨rfl, rfl, -, ⟨hz, -⟩ | ⟨-, rfl | rfl⟩⟩ | ⟨live', -, k, retval, rfl, hlast⟩
    · exact absurd hz hrun
    · rw [hsame]
      exact .running_goes_on live hrun herr hstop hfail [] rfl
    · rw [hsame]
      exact .sleeps live hrun herr hstop hfail hcall []
    · exact .running_goes_on live' hrun herr hstop hfail bytes hlast
  | draining a₀ before left live hrun herr hstop hbytes hend _ =>
    cases hs.symm.trans live.async
    obtain ⟨pc, bytes, a', hl, hcases⟩ := readLoop_cases live hcall.2
    refine ⟨pc, bytes, a', hl, ?_⟩
    rcases hcases with ⟨rfl, rfl, hnone, ⟨-, rfl⟩ | ⟨hz, -⟩⟩ | ⟨live', htaken, k, retval, rfl, hlast⟩
    · rw [hsame]
      rw [hnone, List.append_nil] at hbytes
      exact .ends live herr hstop hbytes
    · exact absurd hrun hz
    · refine .draining_goes_on live' hrun herr hstop bytes ?_ hlast
      rw [List.append_assoc, htaken, hbytes]
  | free a₀ before left hbusy =>
    rw [hbusy] at hb
    cases hb
  | done before left ret hbusy =>
    rw [hbusy] at hb
    cases hb

theorem readEnter_owner (hs : s.async = some a) (hn : 0 < call.nbytes.val)
    (hb : s.busy = some (.file call.file)) (hl : readLoop s a call = .ok (pc, bytes, a')) :
    readEnter s call = .ok (pc, bytes, { s with async := some a' }) := by
  simp only [readEnter, hs, hb, if_neg hn.ne', if_neg (not_not.mpr rfl), hl]
  rfl

theorem readWake_owner (hs : s.async = some a) (hb : s.busy = some (.file call.file))
    (hl : readLoop s a call = .ok (pc, bytes, a')) :
    readWake s call false = .ok (pc, bytes, { s with async := some a' }) := by
  simp only [readWake, hs, hb, if_neg (not_not.mpr rfl), hl]
  rfl

/-- A call that a signal wakes up. -/
theorem Phase.interrupted (h : Phase file st) (hcall : st.sleeping = some call) :
    Phase file (st.settle call (readTail st.sub 0 (-erestartsys)) [] st.sub) := by
  cases h with
  | running a live hrun herr hstop hfail hend _ =>
    exact .running_goes_on live hrun herr hstop hfail [] rfl
  | draining a before left live hrun herr hstop hbytes hend _ =>
    refine .draining_goes_on live hrun herr hstop [] ?_ rfl
    rw [List.append_nil, hbytes]
  | free a before left hbusy hasync hrun hfail hstop hbytes hend hidle =>
    rw [hidle] at hcall
    cases hcall
  | done before left ret hbusy hstop hbytes hend hret hpipe hidle =>
    rw [hidle] at hcall
    cases hcall

theorem Phase.read (h : Phase file st) (hend : st.ended = none) {nbytes : Count} {nonblock : Bool}
    {missed : U32} (hpos : 0 < nbytes.val) :
    ∃ st', acquisitionStep file st (.read nbytes nonblock missed) = .ok st' ∧ Phase file st' := by
  by_cases hidle : st.sleeping.isSome
  · exact ⟨st, by simp only [acquisitionStep, if_pos hidle], h⟩
  have hgo : acquisitionStep file st (.read nbytes nonblock missed) = (do
      let (pc, bytes, s) ← readEnter st.sub ⟨file, nbytes, nonblock, missed⟩
      return st.settle ⟨file, nbytes, nonblock, missed⟩ pc bytes s) := by
    simp only [acquisitionStep, if_neg hidle]
  rw [hgo]
  have howner : ∀ a, Live file st.sub a → ∃ st', (do
      let (pc, bytes, s) ← readEnter st.sub ⟨file, nbytes, nonblock, missed⟩
      return st.settle ⟨file, nbytes, nonblock, missed⟩ pc bytes s : Result Acquisition) = .ok st' ∧
        Phase file st' := by
    intro a live
    let call : IoCall := ⟨file, nbytes, nonblock, missed⟩
    have hcall : call.file = file ∧ 0 < call.nbytes.val := ⟨rfl, hpos⟩
    obtain ⟨pc, bytes, a', hl, h'⟩ := h.pass live.busy live.async hcall
    exact ⟨_, bind_ok (readEnter_owner live.async hpos live.busy hl) _, h'⟩
  cases h with
  | running a live => exact howner a live
  | draining a before left live => exact howner a live
  | free a before left hbusy hasync hrun hfail hstop hbytes _ hcall =>
    have he : readEnter st.sub ⟨file, nbytes, nonblock, missed⟩ = .ok (.returned 0, [], st.sub) := by
      simp only [readEnter, hasync, hbusy, if_neg hpos.ne']
    refine ⟨_, bind_ok he _, .done before left 0 hbusy hstop ?_ rfl (.inl rfl) ?_ rfl⟩
    · change st.returned ++ [] = before ++ left
      rw [List.append_nil, hbytes]
    · change _ ↔ st.failed = true
      rw [hfail]
      decide
  | done before left ret hbusy hstop hbytes he =>
    rw [he] at hend
    cases hend

theorem Phase.wake (h : Phase file st) (signal : Bool) :
    ∃ st', acquisitionStep file st (.wake signal) = .ok st' ∧ Phase file st' := by
  cases hc : st.sleeping with
  | none => exact ⟨st, by simp only [acquisitionStep, hc], h⟩
  | some call =>
    have hgo : acquisitionStep file st (.wake signal) = (do
        let (pc, bytes, s) ← readWake st.sub call signal
        return st.settle call pc bytes s) := by
      simp only [acquisitionStep, hc]
    rw [hgo]
    cases signal with
    | true => exact ⟨_, rfl, h.interrupted hc⟩
    | false =>
      have howner : ∀ a, Live file st.sub a → call.file = file ∧ 0 < call.nbytes.val → ∃ st', (do
          let (pc, bytes, s) ← readWake st.sub call false
          return st.settle call pc bytes s : Result Acquisition) = .ok st' ∧ Phase file st' := by
        intro a live hcall
        obtain ⟨pc, bytes, a', hl, h'⟩ := h.pass live.busy live.async hcall
        exact ⟨_, bind_ok (readWake_owner live.async (hcall.1 ▸ live.busy) hl) _, h'⟩
      cases h with
      | running a live _ _ _ _ _ hcall => exact howner a live (hcall call hc)
      | draining a before left live _ _ _ _ _ hcall => exact howner a live (hcall call hc)
      | free a before left _ _ _ _ _ _ _ hidle =>
        rw [hidle] at hc
        cases hc
      | done before left ret _ _ _ _ _ _ hidle =>
        rw [hidle] at hc
        cases hc

/-- What `comedi_event` does to a running command: it goes on, or it stops, and the error flag
says whether the acquisition failed. -/
theorem comediEvent_cases (b : Board) (ha : s.async = some a) (hrun : s.runflags &&& srfRunning ≠ 0)
    (herr : s.runflags &&& srfError = 0) :
    ∃ r, (comediEvent b s).1 = { s with runflags := r, async := some { a with events := 0 } } ∧
      (r &&& srfRunning ≠ 0 ∧ r &&& srfError = 0 ∧ failing a = false ∨
        r &&& srfRunning = 0 ∧ (r &&& srfError ≠ 0 ↔ failing a = true)) := by
  unfold comediEvent
  simp only [ha, if_neg hrun]
  refine ⟨_, rfl, ?_⟩
  by_cases hfails : a.events &&& (comediCbError ||| comediCbOverflow) = 0
  · have hok : failing a = false := by simp only [failing, hfails, ne_eq, not_true, decide_false]
    by_cases hstops : a.events &&& (comediCbEoa ||| comediCbError ||| comediCbOverflow) = 0
    · left
      simp only [hstops, hfails, ne_eq, not_true, if_false]
      refine ⟨?_, ?_, hok⟩
      · exact fun h => hrun ((BitFlags.set_keeps (by decide)).symm.trans h)
      · exact (BitFlags.set_keeps (by decide)).trans herr
    · right
      simp only [hstops, hfails, ne_eq, not_false_iff, if_true, not_true, if_false, hok]
      refine ⟨?_, fun h => absurd ((BitFlags.set_keeps (by decide)).trans herr) h, nofun⟩
      exact (BitFlags.and_or_of_disjoint (by decide)).trans (BitFlags.cleared (by decide))
  · have hbad : failing a = true := by simp only [failing, hfails, ne_eq, not_false_iff, decide_true]
    have hstops : a.events &&& (comediCbEoa ||| comediCbError ||| comediCbOverflow) ≠ 0 := by
      intro hz
      rw [BitVec.or_assoc, BitVec.and_or_distrib_left] at hz
      exact hfails (BitVec.or_eq_zero_iff.mp hz).2
    right
    simp only [hstops, hfails, ne_eq, not_false_iff, if_true, hbad, iff_true]
    refine ⟨(BitFlags.and_or_of_disjoint (by decide)).trans (BitFlags.cleared (by decide)), ?_⟩
    intro hz
    rw [BitVec.and_comm] at hz
    change srfError &&& (_ ||| srfError &&& (srfRunning ||| srfError)) = 0 at hz
    rw [BitVec.and_or_distrib_left] at hz
    exact absurd (BitVec.or_eq_zero_iff.mp hz).2 (by decide)

theorem Live.event (h : Live file s a) (r : U32) :
    Live file { s with runflags := r, async := some { a with events := 0 } } { a with events := 0 } :=
  ⟨h.busy, rfl, (h.ringed.events 0).congr rfl rfl, h.readPtr_lt, h.readAlloc⟩

theorem event_stopped (h : st.sub.runflags &&& srfRunning = 0) : st.event = st := by
  unfold Acquisition.event
  rw [comediEvent_stopped st.board h]
  split
  · rfl
  · rw [if_pos h]

theorem Phase.event (h : Phase file st) (hend : st.ended = none) : Phase file st.event := by
  have hquiet : st.sub.runflags &&& srfRunning = 0 → Phase file st.event := fun hz => by
    rwa [event_stopped hz]
  cases h with
  | running a live hrun herr hstop hfail _ hcall =>
    obtain ⟨r, hev, hcases⟩ := comediEvent_cases st.board live.async hrun herr
    unfold Acquisition.event
    rw [hev]
    simp only [live.async, if_neg hrun, hfail, Bool.false_or]
    rcases hcases with ⟨hr, he, hok⟩ | ⟨hr, he⟩
    · rw [if_neg hr]
      exact .running _ (live.event r) hr he hstop hok hend hcall
    · rw [if_pos hr]
      exact .draining _ st.returned (unreadBytes a) (live.event r) hr he rfl rfl hend hcall
  | draining a before left live hrun => exact hquiet hrun
  | free a before left hbusy hasync hrun => exact hquiet hrun
  | done before left ret hbusy hstop hbytes he =>
    rw [he] at hend
    cases hend

/-- A write of the driver to a running command. -/
theorem Live.append (h : Live file s a) (hr : InRing s a') (ha : Appended a a') :
    Live file { s with async := some a' } a' := by
  refine ⟨h.busy, rfl, hr.congr rfl rfl, ha.readPtr_lt h.readPtr_lt, ?_⟩
  rw [ha.readAllocCount, ha.readCount, h.readAlloc]

theorem Phase.append (h : Phase file st) (hend : st.ended = none)
    (hrun : st.sub.runflags &&& srfRunning ≠ 0) {f : Async → Result Async}
    (hf : ∀ a a', InRing st.sub a → f a = .ok a' → InRing st.sub a' ∧ Appended a a')
    (hx : onBuffer st f = .ok st') : Phase file st' := by
  cases h with
  | running a live _ herr hstop hfail _ hcall =>
    simp only [onBuffer, live.async] at hx
    obtain ⟨a', he, hx⟩ := bind_eq_ok hx
    cases hx
    obtain ⟨hr, happ⟩ := hf a a' live.ringed he
    exact .running a' (live.append hr happ) hrun herr hstop hfail hend hcall
  | draining a before left live hz => exact absurd hz hrun
  | free a before left hbusy hasync hz => exact absurd hz hrun
  | done before left ret hbusy hstop hbytes he =>
    rw [he] at hend
    cases hend

theorem map_snd_eq_ok {α β : Type} {x : Result (α × β)} {y : β} (h : (·.2) <$> x = .ok y) :
    ∃ r, x = .ok (r, y) := by
  cases x with
  | error e => cases h
  | ok p =>
    cases h
    exact ⟨p.1, rfl⟩

theorem write_appended (h : InRing s a) {data : List Byte} (hlen : data.length < 2 ^ 31)
    (hw : (·.2) <$> cfcWriteArrayToBuffer s a data = .ok a') : InRing s a' ∧ Appended a a' := by
  obtain ⟨r, hw⟩ := map_snd_eq_ok hw
  rcases cfcWrite_cases h hlen hw with rfl | ⟨-, hr, happ, -⟩ | ⟨-, hr, hl⟩
  · exact ⟨h, rfl, rfl, rfl, rfl⟩
  · exact ⟨hr, happ⟩
  · exact ⟨hr, hl.toAppended⟩

theorem put_appended (h : InRing s a) {x : BitVec 16}
    (hp : (·.2) <$> comediBufPut s a x = .ok a') : InRing s a' ∧ Appended a a' := by
  obtain ⟨ret, hp⟩ := map_snd_eq_ok hp
  exact bufPut_appended h hp

theorem Phase.raise (h : Phase file st) (events : U32) :
    ∃ st', acquisitionStep file st (.raise events) = .ok st' ∧ Phase file st' := by
  have hgo : ∀ a, st.sub.async = some a → acquisitionStep file st (.raise events) =
      .ok { st with sub := { st.sub with async := some (raiseEvents a events) } } := by
    intro a ha
    simp only [acquisitionStep, onBuffer, ha]
    rfl
  have hlive : ∀ a, Live file st.sub a →
      Live file { st.sub with async := some (raiseEvents a events) } (raiseEvents a events) :=
    fun a live => live.append (live.ringed.events _) ⟨rfl, rfl, rfl, rfl⟩
  cases h with
  | running a live hrun herr hstop hfail hend hcall =>
    exact ⟨_, hgo a live.async, .running _ (hlive a live) hrun herr hstop hfail hend hcall⟩
  | draining a before left live hrun herr hstop hbytes hend hcall =>
    exact ⟨_, hgo a live.async,
      .draining _ before left (hlive a live) hrun herr hstop hbytes hend hcall⟩
  | free a before left hbusy hasync hrun hfail hstop hbytes hend hcall =>
    exact ⟨_, hgo a hasync, .free _ before left hbusy rfl hrun hfail hstop hbytes hend hcall⟩
  | done before left ret hbusy hstop hbytes hend hret hpipe hcall =>
    have hover : ∀ s', s'.busy = st.sub.busy → Phase file { st with sub := s' } := fun s' hs' =>
      .done before left ret (hs'.trans hbusy) hstop hbytes hend hret hpipe hcall
    cases ha : st.sub.async with
    | none => exact ⟨_, by simp only [acquisitionStep, onBuffer, ha], hover _ rfl⟩
    | some a => exact ⟨_, hgo a ha, hover _ rfl⟩

theorem acquisitionStep_phase (st : Acquisition) (x : AcquisitionStep) (st' : Acquisition)
    (h : Phase file st) (hfit : AcquisitionFits st x) (hx : acquisitionStep file st x = .ok st') :
    Phase file st' := by
  obtain ⟨hend, hwhen⟩ := hfit
  have htotal : (∃ st₁, acquisitionStep file st x = .ok st₁ ∧ Phase file st₁) → Phase file st' := by
    rintro ⟨st₁, h₁, hphase⟩
    cases hx.symm.trans h₁
    exact hphase
  cases x with
  | write data => exact h.append hend hwhen.1 (fun _ _ hr he => write_appended hr hwhen.2 he) hx
  | put x => exact h.append hend hwhen (fun _ _ hr he => put_appended hr he) hx
  | raise events => exact htotal (h.raise events)
  | event => exact htotal ⟨_, rfl, h.event hend⟩
  | read nbytes nonblock missed => exact htotal (h.read hend hwhen)
  | wake signal => exact htotal (h.wake signal)

/-- The state in which `COMEDI_CMD` leaves a subdevice. -/
def commanded (b : Board) (s : Subdevice) (req : CmdReq) (file : File) : Acquisition :=
  { board := (doCmdIoctl b s req file).2.1, sub := (doCmdIoctl b s req file).2.2.1 }

theorem commanded_phase {req : CmdReq} (hfree : s.busy = none)
    (hsz : ∀ a, s.async = some a → a.preallocBufsz.toNat < 2 ^ 31)
    (hstart : (doCmdIoctl b s req file).2.2.1.busy = some (.file file)) :
    Phase file (commanded b s req file) := by
  obtain ⟨a, a', r, hs, ha, hr, he, hsub⟩ := doCmdIoctl_started hfree hstart
  have hring : InRing s (comediResetAsyncBuf a') :=
    .of_tracks (ha.reset ▸ ha.mungeOk (hsz a hs)) (Tracks.start a')
  have hread : a'.bufReadPtr = 0 ∧ a'.bufReadAllocCount = 0 ∧ a'.bufReadCount = 0 := by
    rw [← ha.reset]
    exact ⟨rfl, rfl, rfl⟩
  rw [ha.reset] at hring
  unfold commanded
  rw [hsub]
  refine .running a' ⟨rfl, rfl, hring.congr rfl rfl, ?_, ?_⟩ hr he rfl rfl rfl nofun
  · rw [hread.1, BitVec.lt_def]
    exact hring.bufsz_pos
  · rw [hread.2.1, hread.2.2]

/-- When the first call returns 0 or `-EPIPE`, all calls have returned what was returned and what was
unread when the command stopped, in that order, and nothing else; the subdevice is free. -/
theorem end_of_acquisition {req : CmdReq} (hfree : s.busy = none)
    (hsz : ∀ a, s.async = some a → a.preallocBufsz.toNat < 2 ^ 31)
    (hstart : (doCmdIoctl b s req file).2.2.1.busy = some (.file file)) {steps : List AcquisitionStep}
    (hfit : AllFit (acquisitionStep file) AcquisitionFits (commanded b s req file) steps)
    (hrun : GuardedRuns.run (acquisitionStep file) (commanded b s req file) steps = .ok st)
    {ret : Int} (hend : st.ended = some ret) :
    ∃ before left, st.stop = some (before, left) ∧ st.returned = before ++ left ∧
      (ret = 0 ∨ ret = -epipe) ∧ (ret = -epipe ↔ st.failed = true) ∧ st.sub.busy = none := by
  have h := run_keeps (Phase file) acquisitionStep_phase (commanded_phase hfree hsz hstart) hfit hrun
  cases h with
  | running a live _ _ _ _ hnone =>
    rw [hnone] at hend
    cases hend
  | draining a before left live _ _ _ _ hnone =>
    rw [hnone] at hend
    cases hend
  | free a before left _ _ _ _ _ _ hnone =>
    rw [hnone] at hend
    cases hend
  | done before left ret' hbusy hstop hbytes hsome hret hpipe =>
    cases hsome.symm.trans hend
    exact ⟨before, left, hstop, hbytes, hret, hpipe, hbusy⟩

/-- A subdevice with one channel and a page of buffer, and a command that its test accepts. -/
def sampler : Subdevice where
  subdevFlags := sdfCmdRead
  nChan := 1
  rangeTable := some { length := 1 }
  async := some { preallocBufsz := 4096 }

def samplerCmd : CmdReq where
  cmd := { chanlistLen := 1 }
  entries := some fun _ => 0
  test := .accepting

def sampled (steps : List AcquisitionStep) : Acquisition :=
  match GuardedRuns.run (acquisitionStep 0) (commanded {} sampler samplerCmd 0) steps with
  | .ok st => st
  | .error _ => { sub := sampler }

/-- Two samples, of which one is read before the end. -/
def twoSamples : List AcquisitionStep :=
  [.write [1, 2, 3, 4], .read 2 false 0, .raise comediCbEoa, .event, .read 10 false 0,
    .read 10 false 0]

theorem end_of_two_samples :
    ∃ before left, (sampled twoSamples).stop = some (before, left) ∧
      (sampled twoSamples).returned = before ++ left ∧ ((0 : Int) = 0 ∨ (0 : Int) = -epipe) ∧
      ((0 : Int) = -epipe ↔ (sampled twoSamples).failed = true) ∧
      (sampled twoSamples).sub.busy = none := by
  refine @end_of_acquisition 0 sampler {} (sampled twoSamples) samplerCmd rfl ?_ rfl twoSamples ?_
    rfl 0 rfl
  · intro a ha
    cases ha
    decide
  · refine .cons ⟨rfl, by decide, by decide⟩ rfl (.cons ⟨rfl, by decide⟩ rfl
      (.cons ⟨rfl, trivial⟩ rfl (.cons ⟨rfl, trivial⟩ rfl (.cons ⟨rfl, by decide⟩ rfl
        (.cons ⟨rfl, by decide⟩ rfl trivial)))))

/-- The driver goes on writing after the end. -/
def lateSample : List AcquisitionStep :=
  [.write [1, 2], .raise comediCbEoa, .event, .write [3, 4], .read 10 false 0, .read 10 false 0]

/-- A read of no bytes returns 0 while the command runs, and what a driver writes after the end
is returned too. -/
theorem read_past_the_end :
    ((sampled [.write [1, 2], .read 0 false 0]).ended = some 0 ∧
      (sampled [.write [1, 2], .read 0 false 0]).returned = [] ∧
      (sampled [.write [1, 2], .read 0 false 0]).stop = none ∧
      (sampled [.write [1, 2], .read 0 false 0]).sub.busy = some (.file 0)) ∧
    (sampled lateSample).ended = some 0 ∧ (sampled lateSample).stop = some ([], [1, 2]) ∧
      (sampled lateSample).returned = [1, 2, 3, 4] :=
  ⟨⟨rfl, rfl, rfl, rfl⟩, rfl, rfl, rfl⟩

end Comedi.EndOfAcquisition
