import Comedi.Pci230
import Comedi.SerialCounter

namespace Comedi.NiChanGain

open ChanlistCheck
open Pci230 (crAref arefDiff)

abbrev U16 := BitVec 16

def crAltFilter : U32 := 0x4000000
def crAltSource : U32 := 0x8000000
def arefGround : U32 := 0x0
def arefCommon : U32 := 0x1
def arefOther : U32 := 0x3
def aiDither : U32 := 0x200
def aiLastChannel : U32 := 0x8000
def aiDifferential : U32 := 0x1000
def aiCommon : U32 := 0x2000
def aiGround : U32 := 0x3000
def relayOn : U32 := 0x8000
def relayOff : U32 := 0x4000

def aiConfigChannel (channel : U32) : U32 := channel &&& 0x3f

def niGainlkup : List (List U32) :=
  [[0, 1, 2, 3, 4, 5, 6, 7, 0x100, 0x101, 0x102, 0x103, 0x104, 0x105, 0x106, 0x107],
    [1, 2, 4, 7, 0x101, 0x102, 0x104, 0x107],
    [1, 2, 3, 4, 5, 6, 7, 0x101, 0x102, 0x103, 0x104, 0x105, 0x106, 0x107],
    [0, 1, 4, 7],
    [0x00a, 0x00b, 0x001, 0x002, 0x003, 0x004, 0x005, 0x006],
    [0, 1, 4, 5],
    [1, 2, 3, 4, 5, 6, 7],
    [0, 0, 0, 0, 0, 0, 0, 0]]

inductive RegType
  | eSeries
  | reg611x
  | reg6143
  deriving DecidableEq

/-- What the list depends on of a board that is not of the m-series. -/
structure NiBoard where
  regType : RegType
  adbits : Nat
  gainlkup : Nat

/-- A write to the configuration memory since it was cleared. -/
inductive MemWrite
  | high (value : U16)
  | low (value : U16)
  deriving DecidableEq

structure Dev where
  irq : U32
  changainState : U32
  changainSpec : U32
  aiCalibSource : U32
  aiCalibSourceEnabled : U32
  aiOffset : Nat → U32
  configurationMemory : List MemWrite
  calibrationChannel6143 : List U16
  calibrationChannelSelect611x : U16
  calGainSelect611x : Byte

section Load

variable (board : NiBoard)

/-- The code for a range, where the external and the internal ranges differ. -/
def gain (spec : U32) : U32 :=
  ((niGainlkup.getD board.gainlkup []).getD (crRange spec).toNat 0)

def offsetOf (spec : U32) : U32 :=
  let offset : U32 := 1 <<< (board.adbits - 1)
  if board.regType = .reg611x then offset
  else if gain board spec &&& 0x100 ≠ 0 then 0 else offset

def arefBits (aref : U32) : U32 :=
  if aref = arefDiff then aiDifferential
  else if aref = arefCommon then aiCommon
  else if aref = arefGround then aiGround
  else 0

def channel (calibSource spec : U32) : U32 :=
  if board.regType ≠ .reg6143 ∧ spec &&& crAltSource ≠ 0 then calibSource else crChan spec

def high (calibSource spec : U32) : U32 :=
  let hi :=
    if spec &&& crAltSource ≠ 0 then 0
    else if board.regType = .reg611x then arefBits arefDiff
    else if board.regType = .reg6143 then arefBits arefOther
    else arefBits (crAref spec)
  hi ||| aiConfigChannel (channel board calibSource spec)

def low (last : Bool) (spec : U32) : U32 :=
  gain board spec ||| (if last then aiLastChannel else 0) |||
    (if spec &&& crAltFilter ≠ 0 then aiDither else 0)

def entry (calibSource : U32) (last : Bool) (spec : U32) : List MemWrite :=
  .high ((high board calibSource spec).setWidth 16) ::
    if board.regType = .reg6143 then [] else [.low ((low board last spec).setWidth 16)]

/-- What is written to the configuration memory for a list. -/
def entries (calibSource : U32) : List U32 → List MemWrite
  | [] => []
  | spec :: list => entry board calibSource (list.isEmpty) spec ++ entries calibSource list

def setOffsets (list : List U32) (aiOffset : Nat → U32) : Nat → U32 := fun i =>
  match list[i]? with
  | some spec => offsetOf board spec
  | none => aiOffset i

/-- The relays of a 6143 are switched where the first entry asks for the other source. -/
def switchRelays (d : Dev) (list : List U32) : Dev :=
  let strobe (bit : U32) :=
    [(d.aiCalibSource ||| bit).setWidth 16, d.aiCalibSource.setWidth 16]
  if list.headD 0 &&& crAltSource ≠ 0 ∧ d.aiCalibSourceEnabled = 0 then
    { d with
      calibrationChannel6143 := d.calibrationChannel6143 ++ strobe relayOn
      aiCalibSourceEnabled := 1 }
  else if list.headD 0 &&& crAltSource = 0 ∧ d.aiCalibSourceEnabled ≠ 0 then
    { d with
      calibrationChannel6143 := d.calibrationChannel6143 ++ strobe relayOff
      aiCalibSourceEnabled := 0 }
  else d

def selectChannels (d : Dev) (list : List U32) : U16 :=
  list.foldl (fun select spec =>
    if spec &&& crAltSource ≠ 0 then (crChan spec &&& 0x3).setWidth 16 else select)
    d.calibrationChannelSelect611x

/-- `ni_load_channelgain_list` from the clearing of the memory on. -/
def program (d : Dev) (list : List U32) : Dev :=
  let d := if board.regType = .reg6143 then switchRelays d list else d
  { d with
    configurationMemory := entries board d.aiCalibSource list
    aiOffset := setOffsets board list d.aiOffset
    calibrationChannelSelect611x :=
      if board.regType = .reg611x then selectChannels d list
      else d.calibrationChannelSelect611x }

def single (list : List U32) : Prop :=
  list.length = 1 ∧ board.regType ≠ .reg611x ∧ board.regType ≠ .reg6143

instance (list : List U32) : Decidable (single board list) :=
  inferInstanceAs (Decidable (_ ∧ _ ∧ _))

def ready (d : Dev) (list : List U32) : Prop :=
  d.changainState ≠ 0 ∧ d.changainSpec = list.headD 0

instance (d : Dev) (list : List U32) : Decidable (ready d list) :=
  inferInstanceAs (Decidable (_ ∧ _))

/-- Without `cached` the early return is not taken. -/
def niLoadChannelgainList (cached : Bool) (d : Dev) (list : List U32) : Dev :=
  if single board list then
    if cached ∧ ready d list then d
    else program board { d with changainState := 1, changainSpec := list.headD 0 } list
  else program board { d with changainState := 0 } list

/-- `ni_ai_insn_config` with `INSN_CONFIG_ALT_SOURCE`. -/
def altSource (d : Dev) (data1 : U32) : Int × Dev :=
  let calibSource := data1 &&& 0xf
  if board.regType = .reg6143 then
    (2, { d with
      aiCalibSource := calibSource
      calibrationChannel6143 := d.calibrationChannel6143 ++ [calibSource.setWidth 16] })
  else if 8 ≤ calibSource then (-einval, d)
  else
    let d := { d with aiCalibSource := calibSource }
    if board.regType = .reg611x then
      (2, { d with calGainSelect611x := ((data1 >>> 4) &&& 0xff).setWidth 8 })
    else (2, d)

/-- A read of one channel, a command, or the instruction that selects the calibration source. -/
inductive Op
  | read (chanspec : U32)
  | cmd (chanlist : List U32)
  | altSource (data1 : U32)

/-- The list that an operation loads. A command needs the interrupt. -/
def Op.list (irq : U32) : Op → Option (List U32)
  | .read chanspec => some [chanspec]
  | .cmd chanlist => if irq = 0 then none else some chanlist
  | .altSource _ => none

def step (cached : Bool) (d : Dev) (op : Op) : Dev :=
  match op with
  | .altSource data1 => (altSource board d data1).2
  | op =>
    match op.list d.irq with
    | some list => niLoadChannelgainList board cached d list
    | none => d

end Load

end Comedi.NiChanGain
