import Comedi.MiteSync
import Comedi.Ni660xRegisters

namespace Comedi.Ni660xInterrupts

open MiteSync NiTio Ni660xRegisters GuardedRuns

def nitioGiDmaStatusReg := giReg .dmaStatus 4
def nitioGiInterruptAcknowledgeReg := giReg .interruptAcknowledge 4
def nitioGiStatusReg := giReg .status 4

def giLoadingOnGateBit : U32 := 0x4000
def giDrqErrorBit : U32 := 0x4000
def giTcInterruptAckBit : U32 := 0x4000
def giGateInterruptAckBit : U32 := 0x8000
def giGateInterruptBit : U32 := 0x4
def giTcBit : U32 := 0x8

def giStaleDataBit (counterIndex : Nat) : U32 := if counterIndex % 2 ≠ 0 then 0x80 else 0x40
def giTcErrorBit (counterIndex : Nat) : U32 := if counterIndex % 2 ≠ 0 then 0x2000 else 0x1000
def giGateErrorBit (counterIndex : Nat) : U32 := if counterIndex % 2 ≠ 0 then 0x8000 else 0x4000
def giPermanentStaleBit (counterIndex : Nat) : U32 :=
  if counterIndex % 2 ≠ 0 then 0x8000 else 0x4000
def giGateErrorConfirmBit (counterIndex : Nat) : U32 := if counterIndex % 2 ≠ 0 then 0x2 else 0x20
def giTcErrorConfirmBit (counterIndex : Nat) : U32 := if counterIndex % 2 ≠ 0 then 0x4 else 0x40

def chsrLinkc : U32 := 1 <<< 19

/-- What the registers of the chips give when they are read. -/
abbrev Hardware := Nat → Ni660xRegister → U32

/-- A MITE channel: its direction, what `mite_done` answers, its status and its counts. -/
structure MiteChan where
  dir : U32
  done : Bool
  chsr : U32
  reads : MiteReads

def ni660xReadRegister (hw : Hardware) (chip : Nat) (reg : Ni660xRegister) : Result U32 :=
  match (registerData reg).size with
  | .data2B => .ok (hw chip reg &&& 0xffff)
  | .data4B => .ok (hw chip reg)
  | .data1B => .error .bug

def niGpctReadRegister (hw : Hardware) (chip : Nat) (reg : NiGpctRegister) : Result U32 := do
  ni660xReadRegister hw chip (← niGpctTo660xRegister reg)

def comediInput : U32 := 0

def shouldAckGate (variant : NiGpctVariant) (miteChan : Option MiteChan) : Bool :=
  match variant with
  | .mSeries | .ni660x => true
  | .eSeries =>
    match miteChan with
    | none => true
    | some m => m.dir ≠ comediInput ∨ m.done

/-- What `ni_tio_acknowledge_and_confirm` writes, if it writes, and what it reports. -/
structure Acknowledged where
  write : Option (Ni660xRegister × U32)
  gateError : Bool
  tcError : Bool
  permStaleData : Bool
  staleData : Bool

/-- The bits that are confirmed and acknowledged. -/
def ackBits (variant : NiGpctVariant) (i : Nat) (miteChan : Option MiteChan)
    (gxxStatus giStatus : U32) : U32 :=
  let ack : U32 := 0
  let ack := if gxxStatus &&& giGateErrorBit i ≠ 0 then ack ||| giGateErrorConfirmBit i else ack
  let ack := if gxxStatus &&& giTcErrorBit i ≠ 0 then ack ||| giTcErrorConfirmBit i else ack
  let ack := if giStatus &&& giTcBit ≠ 0 then ack ||| giTcInterruptAckBit else ack
  if giStatus &&& giGateInterruptBit ≠ 0 ∧ shouldAckGate variant miteChan = true then
    ack ||| giGateInterruptAckBit
  else ack

section Handlers

variable (d : NiGpctDevice) (c : Nat) (hw : Hardware) (miteChan : Option MiteChan)

def ackWrite (ack : U32) : Result (Option (Ni660xRegister × U32)) := do
  if ack ≠ 0 then
    let reg ← nitioGiInterruptAcknowledgeReg (d.counters c).counterIndex
    return some (← niGpctTo660xRegister reg, ack)
  else return none

/-- Whether data is stale, and whether it is so for good. -/
def staleness (gxxStatus : U32) : Result (Bool × Bool) := do
  let i := (d.counters c).counterIndex
  let chip := (d.counters c).chipIndex
  let mode ← nitioGiModeReg i
  if d.regs mode &&& giLoadingOnGateBit ≠ 0 then
    let status2 ← niGpctReadRegister hw chip (← nitioGxxJointStatus2Reg i)
    return (decide (gxxStatus &&& giStaleDataBit i ≠ 0),
      decide (status2 &&& giPermanentStaleBit i ≠ 0))
  else return (false, false)

def niTioAcknowledgeAndConfirm : Result Acknowledged := do
  let i := (d.counters c).counterIndex
  let chip := (d.counters c).chipIndex
  let gxxStatus ← niGpctReadRegister hw chip (← nitioGxxStatusReg i)
  let giStatus ← niGpctReadRegister hw chip (← nitioGiStatusReg i)
  let write ← ackWrite d c (ackBits d.variant i miteChan gxxStatus giStatus)
  let (staleData, permStaleData) ← staleness d c hw gxxStatus
  return {
    write := write
    gateError := gxxStatus &&& giGateErrorBit i ≠ 0 ∧ d.variant ≠ .ni660x
    tcError := gxxStatus &&& giTcErrorBit i ≠ 0
    permStaleData := permStaleData
    staleData := staleData }

/-- Whether the DMA of the counter reports an error. -/
def drqError : Result Bool :=
  match d.variant with
  | .mSeries | .ni660x => do
    let reg ← nitioGiDmaStatusReg (d.counters c).counterIndex
    let status ← niGpctReadRegister hw (d.counters c).chipIndex reg
    return status &&& giDrqErrorBit ≠ 0
  | .eSeries => .ok false

/-- What `ni_tio_handle_interrupt` leaves: the acknowledge register that it wrote, whether it
cleared the link interrupt of the MITE channel, and the buffer and the events of the subdevice. -/
structure Handled where
  write : Option (Ni660xRegister × U32)
  clearsLink : Bool
  async : Result Async

def raise (a : Async) (raised : Bool) (events : U32) : Async :=
  if raised then { a with events := a.events ||| events } else a

def niTioHandleInterrupt (s : Subdevice) (a : Async) : Result Handled := do
  let k ← niTioAcknowledgeAndConfirm d c hw miteChan
  let drq ← drqError d c hw
  let a := raise a k.gateError comediCbOverflow
  let a := raise a k.permStaleData comediCbError
  let a := raise a drq comediCbOverflow
  match miteChan with
  | none => return ⟨k.write, false, .ok a⟩
  | some m =>
    return ⟨k.write, m.chsr &&& chsrLinkc ≠ 0, (·.2) <$> miteSyncInputDma s a m.reads⟩

end Handlers

end Comedi.Ni660xInterrupts
