import Comedi.NiTioInsn

namespace Comedi.NiTioCmd

open Instructions NiTio NiTioInsn
open Function (update)

def enotsupp : Int := 524

def trigNow : U32 := 0x2
def trigExt : U32 := 0x40
def trigInt : U32 := 0x80
def trigOther : U32 := 0x100

def cmdfWrite : U32 := 0x40

/-- The part of `ni_tio_configure_dma` for the register that not every variant has. -/
def configureDmaReg (d : NiGpctDevice) (c : Nat) (enable readNotWrite : Bool) :
    Result NiGpctDevice := do
  match d.variant with
  | .eSeries => return d
  | .mSeries | .ni660x =>
    let bits : U32 := if enable then giDmaEnableBit ||| giDmaIntBit else 0
    let bits := if readNotWrite then bits else bits ||| giDmaWriteBit
    let reg ← nitioGiDmaConfigReg (d.counters c).counterIndex
    return niTioSetBits d c reg (giDmaEnableBit ||| giDmaIntBit ||| giDmaWriteBit) bits

def niTioConfigureDma (d : NiGpctDevice) (c : Nat) (enable readNotWrite : Bool) :
    Result NiGpctDevice := do
  let bits : U32 :=
    if enable then (if readNotWrite then giReadAcknowledgesIrq else giWriteAcknowledgesIrq) else 0
  let reg ← nitioGiInputSelectReg (d.counters c).counterIndex
  let d := niTioSetBits d c reg (giReadAcknowledgesIrq ||| giWriteAcknowledgesIrq) bits
  configureDmaReg d c enable readNotWrite

/-- The start of an input command. -/
def startInput (d : NiGpctDevice) (c : Nat) (cmd : Cmd) : Result (Int × NiGpctDevice) :=
  if cmd.startSrc = trigNow then niTioArm d c true niGpctArmImmediate
  else if cmd.startSrc = trigInt then .ok (0, d)
  else if cmd.startSrc = trigExt then niTioArm d c true cmd.startArg
  else if cmd.startSrc = trigOther then .ok (0, d)
  else .error .bug

def niTioInputCmd (d : NiGpctDevice) (c : Nat) (cmd : Cmd) : Result (Int × NiGpctDevice) := do
  let reg ← nitioGiCommandReg (d.counters c).counterIndex
  let d ← niTioConfigureDma (niTioSetBits d c reg giSaveTraceBit 0) c true true
  startInput d c cmd

def niTioOutputCmd (d : NiGpctDevice) : Result (Int × NiGpctDevice) := .ok (-enotsupp, d)

/-- The gate source that a command asks for. -/
def cmdGateSource (cmd : Cmd) : Option U32 :=
  if cmd.scanBeginSrc = trigExt then some cmd.scanBeginArg
  else if cmd.convertSrc = trigExt then some cmd.convertArg
  else none

def setupGate (d : NiGpctDevice) (c : Nat) (cmd : Cmd) : Result (Int × NiGpctDevice) :=
  match cmdGateSource cmd with
  | some gateSource => niTioSetGateSrc d c 0 gateSource
  | none => .ok (0, d)

def niTioCmdSetup (d : NiGpctDevice) (c : Nat) (cmd : Cmd) : Result (Int × NiGpctDevice) := do
  let (ret, d) ← setupGate d c cmd
  if cmd.flags &&& trigWakeEos ≠ 0 then
    let i := (d.counters c).counterIndex
    let reg ← nitioGiInterruptEnableReg i
    return (ret, niTioSetBits d c reg (giGateInterruptEnableBit i) (giGateInterruptEnableBit i))
  else return (ret, d)

def niTioCmd (d : NiGpctDevice) (c : Nat) (cmd : Cmd) : Result (Int × NiGpctDevice) := do
  if (d.counters c).miteChan = false then return (-eio, d)
  else
    let (ret, d) ← niTioCmdSetup d c cmd
    if ret ≠ 0 then return (ret, d)
    else if cmd.flags &&& cmdfWrite ≠ 0 then niTioOutputCmd d
    else niTioInputCmd d c cmd

def niTioCancel (d : NiGpctDevice) (c : Nat) : Result NiGpctDevice := do
  let (_, d) ← niTioArm d c false 0
  let d ← niTioConfigureDma d c false false
  let i := (d.counters c).counterIndex
  let reg ← nitioGiInterruptEnableReg i
  return niTioSetBits d c reg (giGateInterruptEnableBit i) 0x0

/-- `ni_tio_input_inttrig`, for a counter with a channel. -/
def niTioInputInttrig (d : NiGpctDevice) (c : Nat) (trignum : U32) :
    Result (Int × NiGpctDevice) :=
  if trignum ≠ 0 then .ok (-einval, d)
  else if (d.counters c).miteChan = false then .ok (-eio, d)
  else niTioArm d c true niGpctArmImmediate

def niTioSetMiteChannel (d : NiGpctDevice) (c : Nat) (miteChan : Bool) : NiGpctDevice :=
  { d with counters := update d.counters c { d.counters c with miteChan := miteChan } }

/-- The calls of the functions for a counter, with what the reads of registers give. -/
inductive TioCall where
  | initCounter
  | insnConfig (data reads : Nat → U32)
  | rinsn (insn : Insn) (reads : Nat → U32)
  | winsn (insn : Insn) (data reads : Nat → U32)
  | cmd (cmd : Cmd)
  | inttrig (trignum : U32)
  | cancel
  | setMiteChannel (miteChan : Bool)

def tioCall (d : NiGpctDevice) (c : Nat) : TioCall → Result NiGpctDevice
  | .initCounter => niTioInitCounter d c
  | .insnConfig data reads => (·.2.2) <$> niTioInsnConfig d c data reads
  | .rinsn insn reads => (·.2.2) <$> niTioRinsn d c insn reads
  | .winsn insn data reads => (·.2) <$> niTioWinsn d c insn data reads
  | .cmd cmd => (·.2) <$> niTioCmd d c cmd
  | .inttrig trignum => (·.2) <$> niTioInputInttrig d c trignum
  | .cancel => niTioCancel d c
  | .setMiteChannel miteChan => .ok (niTioSetMiteChannel d c miteChan)

/-- A call on one of the counters. -/
def tioStep (d : NiGpctDevice) (call : Nat × TioCall) : Result NiGpctDevice :=
  tioCall d call.1 call.2

/-- The counters that the drivers set up: a board with two, or the chips of an NI 660x with four
each. -/
structure Constructed (d : NiGpctDevice) : Prop where
  lt : ∀ c, (d.counters c).counterIndex < if d.variant = .ni660x then 4 else 2
  chip : d.variant ≠ .ni660x → ∀ c, (d.counters c).chipIndex = 0
  period : ∀ c, (d.counters c).clockPeriodPs = 0
  regs : ∀ r, d.regs r = 0
  written : ∀ chip r, d.written chip r = none

/-- A board as its driver sets it up: an NI 660x has chips of four counters. -/
def newBoard (variant : NiGpctVariant) : NiGpctDevice where
  variant := variant
  counters c :=
    if variant = .ni660x then { counterIndex := c % 4, chipIndex := c / 4 }
    else { counterIndex := c % 2, chipIndex := 0 }

theorem constructed_newBoard (variant : NiGpctVariant) : Constructed (newBoard variant) where
  lt c := by
    by_cases h : variant = .ni660x
    · simp only [newBoard, if_pos h]
      exact Nat.mod_lt c (by decide)
    · simp only [newBoard, if_neg h]
      exact Nat.mod_lt c (by decide)
  chip h c := by
    have h : variant ≠ .ni660x := h
    simp only [newBoard, if_neg h]
  period c := by
    unfold newBoard
    dsimp only
    split <;> rfl
  regs _ := rfl
  written _ _ := rfl

/-- The data of a configuration instruction of up to three words. -/
def words (id a b : U32) : Nat → U32
  | 0 => id
  | 1 => a
  | 2 => b
  | _ => 0

def config (id a b : U32) : TioCall := .insnConfig (words id a b) fun _ => 0

end Comedi.NiTioCmd
