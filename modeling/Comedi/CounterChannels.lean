import Comedi.CommandEnds
import Comedi.NiTioCmd
import Comedi.RtTimer

namespace Comedi.CounterChannels

open RunState Requests Instructions CommandStarts CommandEnds LifeCycle NiTio NiTioInsn NiTioCmd
open RtTimer (cmdtestHelper trigNone trigFollow trigCount)
open Function (update)

def startSources (variant : NiGpctVariant) : U32 :=
  if niTioCountingModeRegistersPresent variant then trigNow ||| trigInt ||| trigOther ||| trigExt
  else trigNow ||| trigInt ||| trigOther

/-- Step 2 of `ni_tio_cmdtest` finds an error. -/
def badSources (cmd : Cmd) : Prop :=
  cmd.startSrc ∉ [trigNow, trigInt, trigExt, trigOther] ∨
    cmd.scanBeginSrc ∉ [trigFollow, trigExt, trigOther] ∨
    cmd.convertSrc ∉ [trigOther, trigExt, trigNow] ∨
    cmd.stopSrc ≠ trigNone ∨
    cmd.convertSrc ≠ trigNow ∧ cmd.scanBeginSrc ≠ trigFollow

instance (cmd : Cmd) : Decidable (badSources cmd) := by unfold badSources; infer_instance

/-- The arguments as step 3 wants them. -/
def fixArgs (cmd : Cmd) : Cmd :=
  { cmd with
    startArg := if cmd.startSrc ≠ trigExt then 0 else cmd.startArg
    scanBeginArg := if cmd.scanBeginSrc ≠ trigExt then 0 else cmd.scanBeginArg
    convertArg := if cmd.convertSrc ≠ trigExt then 0 else cmd.convertArg
    scanEndArg := cmd.chanlistLen
    stopArg := if cmd.stopSrc = trigNone then 0 else cmd.stopArg }

def niTioCmdtest (variant : NiGpctVariant) (cmd : Cmd) : Int × Cmd :=
  let masked := cmdtestHelper cmd (startSources variant) (trigFollow ||| trigExt ||| trigOther)
    (trigNow ||| trigExt ||| trigOther) trigCount trigNone
  if masked.1 then (1, masked.2)
  else if badSources masked.2 then (2, masked.2)
  else if fixArgs masked.2 ≠ masked.2 then (3, fixArgs masked.2)
  else (0, masked.2)

theorem niTioCmdtest_kept (variant : NiGpctVariant) (cmd : Cmd) :
    (niTioCmdtest variant cmd).2.chanlist = cmd.chanlist ∧
      (niTioCmdtest variant cmd).2.chanlistLen = cmd.chanlistLen := by
  unfold niTioCmdtest
  dsimp only
  split
  · exact ⟨rfl, rfl⟩
  split
  · exact ⟨rfl, rfl⟩
  split
  · exact ⟨rfl, rfl⟩
  · exact ⟨rfl, rfl⟩

def cmdtest (variant : NiGpctVariant) : CmdTest where
  run := niTioCmdtest variant
  chanlist_eq cmd := (niTioCmdtest_kept variant cmd).1
  chanlistLen_eq cmd _ := (niTioCmdtest_kept variant cmd).2

/-- The counters of a board and the channels of its MITE: `held` is `counter->mite_chan`,
`allocated` is `mite->channel_allocated`. -/
structure Gpct where
  dev : NiGpctDevice
  numChannels : Nat
  held : Nat → Option Nat := fun _ => none
  allocated : Nat → Bool := fun _ => false

def miteRequestChannel (g : Gpct) : Option Nat :=
  (List.range g.numChannels).find? fun ch => !g.allocated ch

def setAllocated (g : Gpct) (ch : Nat) (value : Bool) : Gpct :=
  { g with allocated := update g.allocated ch value }

def setMiteChannel (g : Gpct) (c : Nat) (ch : Option Nat) : Gpct :=
  { g with dev := niTioSetMiteChannel g.dev c ch.isSome, held := update g.held c ch }

def ni660xRequestMiteChannel (g : Gpct) (c : Nat) : Result (Int × Gpct) :=
  if (g.held c).isSome then .error .bug
  else
    match miteRequestChannel g with
    | none => .ok (-ebusy, g)
    | some ch => .ok (0, setMiteChannel (setAllocated g ch true) c (some ch))

def numGpct : Nat := 2

def niRequestGpctMiteChannel (g : Gpct) (c : Nat) : Result (Int × Gpct) :=
  if numGpct ≤ (g.dev.counters c).counterIndex then .error .bug else ni660xRequestMiteChannel g c

/-- `ni_660x_release_mite_channel`, and `ni_release_gpct_mite_channel`. -/
def releaseMiteChannel (g : Gpct) (c : Nat) : Gpct :=
  match g.held c with
  | none => g
  | some ch => setAllocated (setMiteChannel g c none) ch false

def inputInttrig : Nat := 0

/-- `ni_660x_cmd` and `ni_gpct_cmd`, with the function that requests the channel. -/
def gpctCmd (request : Gpct → Nat → Result (Int × Gpct)) (g : Gpct) (c : Nat) (cmd : Cmd) :
    Result (Answer × Gpct) := do
  let (ret, g) ← request g c
  if ret ≠ 0 then return ({ ret := ret }, g)
  else
    let (ret, dev) ← niTioCmd g.dev c cmd
    let inttrig := if ret = 0 ∧ cmd.startSrc = trigInt then some inputInttrig else none
    return ({ ret := ret, inttrig := inttrig }, { g with dev := dev })

def ni660xCmd := gpctCmd ni660xRequestMiteChannel
def niGpctCmd := gpctCmd niRequestGpctMiteChannel

def counterCmd (g : Gpct) : Nat → Cmd → Result (Answer × Gpct) :=
  match g.dev.variant with
  | .ni660x => ni660xCmd g
  | .eSeries | .mSeries => niGpctCmd g

/-- `ni_660x_cancel` and `ni_gpct_cancel`. -/
def counterCancel (g : Gpct) (c : Nat) : Result Gpct := do
  let dev ← niTioCancel g.dev c
  return releaseMiteChannel { g with dev := dev } c

/-- What `ni_tio_input_inttrig` leaves in `async->inttrig`. -/
def inttrigLeft (d : NiGpctDevice) (c : Nat) (trignum : U32) : Option Nat :=
  if trignum ≠ 0 ∨ (d.counters c).miteChan = false then some inputInttrig else none

/-- A board, with the subdevices of its counters, and the channels that its other subdevices have
requested. -/
structure CounterBoard where
  board : Board := {}
  subs : Nat → Subdevice
  gpct : Gpct
  others : Nat → Bool := fun _ => false

inductive CounterStep where
  | cmd (c : Nat) (req : CmdReq) (file : File)
  | inttrig (c : Nat) (trignum : U32)
  | cancel (c : Nat) (file : File)
  | interrupt (c : Nat) (events : U32)
  | otherRequest
  | otherRelease (ch : Nat)

def setSub (st : CounterBoard) (c : Nat) (b : Board) (s : Subdevice) (g : Gpct) : CounterBoard :=
  { st with board := b, subs := update st.subs c s, gpct := g }

def withTest (st : CounterBoard) (req : CmdReq) : CmdReq :=
  { req with test := cmdtest st.gpct.dev.variant }

/-- `COMEDI_CMD`, with what the driver has answered if it was asked. -/
def cmdRequest (st : CounterBoard) (c : Nat) (req : CmdReq) (file : File) :
    Result (Option Int × CounterBoard) := do
  let (left, r) ← commandIoctl (counterCmd st.gpct c) st.board (st.subs c) (withTest st req) file
  return match left with
    | none => (none, setSub st c r.2.1 r.2.2.1 st.gpct)
    | some g => (some r.1, setSub st c r.2.1 r.2.2.1 g)

def inttrigRequest (st : CounterBoard) (c : Nat) (trignum : U32) : Result CounterBoard :=
  match (st.subs c).async.bind (·.inttrig) with
  | none => .ok st
  | some _ => do
    let (ret, dev) ← niTioInputInttrig st.gpct.dev c trignum
    let r := inttrigInsn (st.subs c) trignum
      { ret := ret, inttrig := inttrigLeft st.gpct.dev c trignum }
    return setSub st c st.board r.2.1 { st.gpct with dev := dev }

def cancelRequest (st : CounterBoard) (c : Nat) (file : File) : Result CounterBoard := do
  let r := doCancelIoctl st.board (st.subs c) {} file
  let g ← if callsCancel r.2.2.2 then counterCancel st.gpct c else .ok st.gpct
  return setSub st c r.2.1 r.2.2.1 g

/-- `ni_660x_handle_gpct_interrupt`, and `handle_gpct_interrupt` with `ni_event`, where
`ni_tio_handle_interrupt` raises `events`. -/
def handleGpctInterrupt (st : CounterBoard) (c : Nat) (events : U32) : Result CounterBoard := do
  let s := raised (st.subs c) events
  if pending s = 0 then return setSub st c st.board s st.gpct
  else
    let g ← if pending s &&& endMask ≠ 0 then counterCancel st.gpct c else .ok st.gpct
    return setSub st c st.board (comediEvent st.board s).1 g

/-- Another subdevice of the board takes a channel. -/
def otherRequest (st : CounterBoard) : CounterBoard :=
  match miteRequestChannel st.gpct with
  | none => st
  | some ch => { st with gpct := setAllocated st.gpct ch true, others := update st.others ch true }

def otherRelease (st : CounterBoard) (ch : Nat) : CounterBoard :=
  if st.others ch then
    { st with gpct := setAllocated st.gpct ch false, others := update st.others ch false }
  else st

def counterStep (st : CounterBoard) : CounterStep → Result CounterBoard
  | .cmd c req file => (·.2) <$> cmdRequest st c req file
  | .inttrig c trignum => inttrigRequest st c trignum
  | .cancel c file => cancelRequest st c file
  | .interrupt c events => handleGpctInterrupt st c events
  | .otherRequest => .ok (otherRequest st)
  | .otherRelease ch => .ok (otherRelease st ch)

end Comedi.CounterChannels
