import Comedi.AsyncBuffer
import Comedi.BitFlags

namespace Comedi.RunState

open AsyncBuffer

/-- What a request or an event makes the core call: the callbacks of the driver, the wake-ups,
and the calls of `do_become_nonbusy` with the owner and flags it finds. -/
inductive Call where
  | insnRead
  | insnWrite
  | insnBits
  | insnConfig
  | doCmdtest (cmd : Cmd) (ret : Int) (result : Cmd)
  | doCmd (s : Subdevice)
  | inttrig (fn : Nat) (x : U32)
  | poll
  | cancel
  | wakeUp
  | killFasyncIn
  | killFasyncOut
  | cbFunc (fn : Nat) (events : U32)
  | becomeNonbusy (busy : Option Owner) (runflags : U32)

/-- The callbacks `insn_*`, `do_cmd`, `inttrig`, `cancel` and `poll` of a subdevice. -/
def Call.isDriver : Call → Bool
  | .insnRead | .insnWrite | .insnBits | .insnConfig | .doCmd _ | .inttrig _ _ | .poll | .cancel => true
  | _ => false

def Call.isDoCmd : Call → Bool
  | .doCmd _ => true
  | _ => false

def comediSwitchToRt (b : Board) : Int × Board :=
  match b.irq with
  | none => (-1, b)
  | some it =>
    (0, { b with rt := b.rt + 1, irq := some { rt := true, held := if b.rt = 0 then true else it.held } })

def comediSwitchToNonRt (b : Board) : Board :=
  match b.irq with
  | none => b
  | some it =>
    { b with rt := b.rt - 1, irq := some { rt := false, held := if b.rt - 1 = 0 then false else it.held } }

def comediSetSubdeviceRunflags (s : Subdevice) (mask bits : U32) : Subdevice :=
  { s with runflags := s.runflags &&& ~~~mask ||| bits &&& mask }

/-- `kfree` of the channel list of the command, and its pointer set to NULL. -/
def freeChanlist (a : Async) : Async :=
  { a with
    cmd := { a.cmd with chanlist := .null }
    chanlistAllocs := match a.cmd.chanlist with
      | .kernel _ => a.chanlistAllocs - 1
      | _ => a.chanlistAllocs }

def idleAsync (a : Async) : Async :=
  freeChanlist { comediResetAsyncBuf a with inttrig := none }

def doBecomeNonbusy (b : Board) (s : Subdevice) : Board × Subdevice :=
  let s := comediSetSubdeviceRunflags s srfRunning 0
  let (b, s) :=
    if s.runflags &&& srfRt ≠ 0
    then (comediSwitchToNonRt b, comediSetSubdeviceRunflags s srfRt 0) else (b, s)
  (b, { s with async := s.async.map idleAsync, busy := none })

/-- Everything `do_become_nonbusy` does to the subdevice. -/
theorem doBecomeNonbusy_snd (b : Board) (s : Subdevice) :
    (doBecomeNonbusy b s).2 =
      { s with
        runflags := s.runflags &&& ~~~(srfRunning ||| srfRt)
        async := s.async.map idleAsync
        busy := none } := by
  have hbits : ∀ x y : U32, x &&& ~~~y ||| 0 &&& y = x &&& ~~~y := fun x y => by simp
  simp only [doBecomeNonbusy, comediSetSubdeviceRunflags, hbits]
  split
  · have hand : s.runflags &&& ~~~srfRunning &&& ~~~srfRt =
        s.runflags &&& ~~~(srfRunning ||| srfRt) := by
      rw [BitVec.and_assoc, ← BitVec.not_or]
    rw [← hand]
  · next h => rw [← BitFlags.clear_clear_of_clear (not_not.mp h)]

/-- What a driver callback leaves behind in the core: its return value and `async->inttrig`. -/
structure Answer where
  ret : Int := 0
  inttrig : Option Nat := none
  deriving DecidableEq, Repr

def setInttrig (s : Subdevice) (fn : Option Nat) : Subdevice :=
  { s with async := s.async.map fun a => { a with inttrig := fn } }

def doCancel (b : Board) (s : Subdevice) (ans : Answer) : Int × Board × Subdevice × List Call :=
  if s.runflags &&& srfRunning ≠ 0 ∧ s.cancel then
    let (b, s') := doBecomeNonbusy b (setInttrig s ans.inttrig)
    (ans.ret, b, s', [.cancel, .becomeNonbusy s.busy s.runflags])
  else
    let (b, s') := doBecomeNonbusy b s
    (0, b, s', [.becomeNonbusy s.busy s.runflags])

def wakeCalls (s : Subdevice) (b : Board) : List Call :=
  if b.rt ≠ 0 then [.wakeUp]
  else
    [.wakeUp] ++ (if s.subdevFlags &&& sdfCmdRead ≠ 0 then [.killFasyncIn] else []) ++
      (if s.subdevFlags &&& sdfCmdWrite ≠ 0 then [.killFasyncOut] else [])

/-- What a driver does to `async->events` before it calls `comedi_event`. -/
def raiseEvents (a : Async) (events : U32) : Async := { a with events := a.events ||| events }

/-- `comedi_event` for the events that are pending in `async`. -/
def comediEvent (b : Board) (s : Subdevice) : Subdevice × List Call :=
  match s.async with
  | none => (s, [])
  | some a =>
    if s.runflags &&& srfRunning = 0 then (s, [])
    else
      let stops := a.events &&& (comediCbEoa ||| comediCbError ||| comediCbOverflow) ≠ 0
      let fails := a.events &&& (comediCbError ||| comediCbOverflow) ≠ 0
      let mask := (if stops then srfRunning else 0) ||| (if fails then srfError else 0)
      let s' := comediSetSubdeviceRunflags s mask (if fails then srfError else 0)
      let calls :=
        if a.cbMask &&& a.events = 0 then []
        else if s'.runflags &&& srfUser ≠ 0 then wakeCalls s' b
        else match a.cbFunc with
          | none => []
          | some fn => [.cbFunc fn a.events]
      ({ s' with async := some { a with events := 0 } }, calls)

theorem comediEvent_busy (b : Board) (s : Subdevice) : (comediEvent b s).1.busy = s.busy := by
  unfold comediEvent
  split
  · rfl
  · split <;> rfl

theorem comediEvent_stopped (b : Board) {s : Subdevice} (h : s.runflags &&& srfRunning = 0) :
    (comediEvent b s).1 = s := by
  unfold comediEvent
  split
  · rfl
  · rw [if_pos h]

/-- The events that end a command. -/
def endMask : U32 := comediCbEoa ||| comediCbError ||| comediCbOverflow

theorem comediEvent_running (b : Board) {s : Subdevice} {a : Async} (hs : s.async = some a)
    (hrun : s.runflags &&& srfRunning ≠ 0) :
    ∃ r, (comediEvent b s).1 = { s with async := some { a with events := 0 }, runflags := r } ∧
      r &&& srfRunning = if a.events &&& endMask ≠ 0 then 0 else s.runflags &&& srfRunning := by
  unfold comediEvent
  rw [hs]
  dsimp only
  rw [if_neg hrun]
  refine ⟨_, rfl, ?_⟩
  unfold comediSetSubdeviceRunflags
  change (s.runflags &&& ~~~((if a.events &&& endMask ≠ 0 then srfRunning else 0) ||| _) |||
    _ &&& ((if a.events &&& endMask ≠ 0 then srfRunning else 0) ||| _)) &&& srfRunning = _
  by_cases hends : a.events &&& endMask ≠ 0
  · rw [if_pos hends, if_pos hends]
    by_cases hfails : a.events &&& (comediCbError ||| comediCbOverflow) ≠ 0
    · rw [if_pos hfails]
      exact (BitFlags.set_reads (by decide)).trans (by decide)
    · rw [if_neg hfails]
      exact (BitFlags.set_reads (by decide)).trans (by decide)
  · have hfails : ¬ a.events &&& (comediCbError ||| comediCbOverflow) ≠ 0 := by
      rw [not_not]
      have hsub : comediCbError ||| comediCbOverflow =
          endMask &&& (comediCbError ||| comediCbOverflow) := by decide
      rw [hsub, ← BitVec.and_assoc, not_not.mp hends]
      exact BitVec.zero_and
    rw [if_neg hends, if_neg hends, if_neg hfails]
    exact BitFlags.set_keeps (by decide)

end Comedi.RunState
