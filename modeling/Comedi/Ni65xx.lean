import Comedi.ChanlistCheck
import Comedi.Instructions

namespace Comedi.Ni65xx

open ChanlistCheck Instructions Function

abbrev U16 := BitVec 16

def insnConfigChangeNotify : U32 := 25

def comediInput : U16 := 0
def comediOutput : U16 := 1

/-- `ni_65xx_board`. -/
structure Ni65xxBoard where
  numDioPorts : Nat := 0
  numDiPorts : Nat := 0
  numDoPorts : Nat := 0
  invertOutputs : Bool := false

def ni65xxChannelsPerPort : Nat := 8

def ni65xxPortByChannel (channel : Nat) : Nat := channel / ni65xxChannelsPerPort

def ni65xxTotalNumPorts (board : Ni65xxBoard) : Nat :=
  board.numDioPorts + board.numDiPorts + board.numDoPorts

def ni65xxNumInputPorts (board : Ni65xxBoard) : Nat := board.numDioPorts + board.numDiPorts

inductive Kind where
  | di | do_ | dio
  deriving DecidableEq

/-- A digital subdevice, which is there only with a port at least. -/
structure Sub where
  kind : Kind
  basePort : Nat
  numPorts : Nat
  pos : 0 < numPorts

def Sub.nChan (s : Sub) : Nat := s.numPorts * ni65xxChannelsPerPort

/-- The subdevices that `ni_65xx_attach` sets up. -/
def subdevice (board : Ni65xxBoard) (kind : Kind) : Option Sub :=
  match kind with
  | .di => if h : 0 < board.numDiPorts then some ⟨.di, 0, board.numDiPorts, h⟩ else none
  | .do_ =>
    if h : 0 < board.numDoPorts then some ⟨.do_, board.numDiPorts, board.numDoPorts, h⟩ else none
  | .dio => if h : 0 < board.numDioPorts then some ⟨.dio, 0, board.numDioPorts, h⟩ else none

/-- `ni_65xx_private`, with what has been written last to the registers of the ports. -/
structure Ni65xxPrivate where
  filterInterval : U32 := 0
  filterEnable : Nat → U16 := fun _ => 0
  outputBits : Nat → U16 := fun _ => 0
  dioDirection : Nat → U16 := fun _ => 0
  filterIntervalReg : U32 := 0
  filterEnableReg : Nat → Byte := fun _ => 0
  portData : Nat → Byte := fun _ => 0
  portSelect : Nat → Byte := fun _ => 0
  risingEdge : Nat → Byte := fun _ => 0
  fallingEdge : Nat → Byte := fun _ => 0

def ni65xxAttach (board : Ni65xxBoard) : Ni65xxPrivate where
  portData p := if p < ni65xxTotalNumPorts board ∧ board.invertOutputs then 0x01 else 0x00
  portSelect p := if p < board.numDioPorts then 0x01 else 0x00

/-- The result, `data[1]` and the device. -/
def ni65xxConfigFilter (s : Sub) (chan : Nat) (data0 data1 : U32) (d : Ni65xxPrivate) :
    Int × U32 × Ni65xxPrivate :=
  let port := s.basePort + ni65xxPortByChannel chan
  let bit : U16 := 1 <<< (chan % ni65xxChannelsPerPort)
  if data0 ≠ insnConfigFilter then (-einval, data1, d)
  else
    let (data1, d) :=
      if data1 ≠ 0 then
        let interval := (data1 + 200 / 2) / 200
        let interval := if 0xfffff < interval then 0xfffff else interval
        let d :=
          if interval ≠ d.filterInterval then
            { d with filterIntervalReg := interval, filterInterval := interval }
          else d
        (interval * 200,
          { d with filterEnable := update d.filterEnable port (d.filterEnable port ||| bit) })
      else
        (data1,
          { d with filterEnable := update d.filterEnable port (d.filterEnable port &&& ~~~bit) })
    (2, data1, { d with
      filterEnableReg := update d.filterEnableReg port ((d.filterEnable port).setWidth 8) })

def ni65xxDioInsnConfig (s : Sub) (n : U32) (chan : Nat) (data0 data1 : U32) (d : Ni65xxPrivate) :
    Int × U32 × Ni65xxPrivate :=
  let port := s.basePort + ni65xxPortByChannel chan
  if n < 1 then (-einval, data1, d)
  else if data0 = insnConfigFilter then ni65xxConfigFilter s chan data0 data1 d
  else if s.kind ≠ .dio then (-einval, data1, d)
  else if data0 = insnConfigDioOutput then
    (1, data1, { d with
      dioDirection := update d.dioDirection port comediOutput
      portSelect := update d.portSelect port 0 })
  else if data0 = insnConfigDioInput then
    (1, data1, { d with
      dioDirection := update d.dioDirection port comediInput
      portSelect := update d.portSelect port 1 })
  else if data0 = insnConfigDioQuery then
    (n.toInt, (d.dioDirection port).setWidth 32, d)
  else (-einval, data1, d)

/-- A port of outputs reads what has been written to it, any other what is at its pins. -/
def readPort (s : Sub) (pins : Nat → Byte) (port : Nat) (d : Ni65xxPrivate) : Byte :=
  if s.kind = .do_ then d.portData port else pins port

/-- The ports from number `portOffset` of the subdevice on, `left` of them at most. -/
def bitsLoop (board : Ni65xxBoard) (s : Sub) (base : Nat) (mask data : U32) (pins : Nat → Byte) :
    Nat → Nat → U32 → Ni65xxPrivate → U32 × Ni65xxPrivate
  | 0, _, readBits, d => (readBits, d)
  | left + 1, portOffset, readBits, d =>
    let port := s.basePort + portOffset
    let bitshift : Int := (portOffset * ni65xxChannelsPerPort : Nat) - (base : Nat)
    if 32 ≤ bitshift then (readBits, d)
    else
      let window (x : U32) : U32 :=
        (if 0 < bitshift then x >>> bitshift.toNat else x <<< (-bitshift).toNat) &&& 0xff
      let portMask := window mask
      let portData := window data
      let d :=
        if portMask ≠ 0 then
          let output := d.outputBits port &&& ~~~(portMask.setWidth 16) |||
            (portData &&& portMask).setWidth 16
          let bits : U16 := if board.invertOutputs then ~~~output else output
          { d with
            outputBits := update d.outputBits port output
            portData := update d.portData port (bits.setWidth 8) }
        else d
      let portReadBits : U32 := (readPort s pins port d).setWidth 32
      let portReadBits :=
        if s.kind = .do_ ∧ board.invertOutputs then portReadBits ^^^ 0xff else portReadBits
      let portReadBits :=
        if 0 < bitshift then portReadBits <<< bitshift.toNat
        else portReadBits >>> (-bitshift).toNat
      bitsLoop board s base mask data pins left (portOffset + 1) (readBits ||| portReadBits) d

/-- The result, `data[1]` and the device. -/
def ni65xxDioInsnBits (board : Ni65xxBoard) (s : Sub) (n : U32) (base : Nat) (mask data : U32)
    (pins : Nat → Byte) (d : Ni65xxPrivate) : Int × U32 × Ni65xxPrivate :=
  let lastPortOffset := ni65xxPortByChannel (s.nChan - 1)
  if n ≠ 2 then (-einval, data, d)
  else
    let portOffset := ni65xxPortByChannel base
    let (readBits, d) :=
      bitsLoop board s base mask data pins (lastPortOffset + 1 - portOffset) portOffset 0 d
    (n.toInt, readBits, d)

/-- One port of `ni_65xx_intr_insn_config`. -/
def setEdges (n : U32) (data : Nat → U32) (d : Ni65xxPrivate) (i : Nat) : Ni65xxPrivate :=
  let rising : U32 := if 1 + i / 4 < n.toNat then data (1 + i / 4) >>> (i % 4 * 8) else 0
  let falling : U32 := if 2 + i / 4 < n.toNat then data (2 + i / 4) >>> (i % 4 * 8) else 0
  { d with
    risingEdge := update d.risingEdge i (rising.setWidth 8)
    fallingEdge := update d.fallingEdge i (falling.setWidth 8) }

def ni65xxIntrInsnConfig (board : Ni65xxBoard) (n : U32) (data : Nat → U32) (d : Ni65xxPrivate) :
    Int × Ni65xxPrivate :=
  if n < 1 then (-einval, d)
  else if data 0 ≠ insnConfigChangeNotify then (-einval, d)
  else (n.toInt, (List.range (ni65xxNumInputPorts board)).foldl (setEdges n data) d)

end Comedi.Ni65xx
