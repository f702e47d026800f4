import Comedi.Instructions
import Comedi.GuardedRuns
import Comedi.SharedRegs

namespace Comedi.Ni660xPfi

open Instructions GuardedRuns SharedRegs

abbrev U16 := BitVec 16

def minCounterPfiChan : Nat := 8
def maxDioPfiChan : Nat := 31
def numPfiChannels : Nat := 40

def pfiOutputSelectHighZ : U32 := 0
def pfiOutputSelectCounter : U32 := 1
def pfiOutputSelectDo : U32 := 2
def numPfiOutputSelects : U32 := 3

/-- The registers of a pair of channels in each chip, by the number of the pair. -/
abbrev IoConfig := Nat × Nat → U16

/-- What `ni_660x` keeps for the PFI pins, with the registers and all contents they have had, the
last first. -/
structure Dev where
  nChips : Nat
  ioConfig : IoConfig
  past : List IoConfig := []
  pfiDirectionBits : BitVec 64 := 0
  pfiOutputSelects : Nat → U16 := fun _ => 1

/-- `IOConfigReg`, from `IOConfigReg0_1` on. -/
def ioConfigReg (pfiChannel : Nat) : Result Nat :=
  if 19 < pfiChannel / 2 then .error .bug else .ok (pfiChannel / 2)

def ioconfigBitshift (pfiChannel : Nat) : Nat := if pfiChannel % 2 ≠ 0 then 0 else 8

def pfiOutputSelectMask (pfiChannel : Nat) : U32 := (0x3 : U32) <<< ioconfigBitshift pfiChannel

def pfiOutputSelectBits (pfiChannel : Nat) (outputSelect : U32) : U32 :=
  (outputSelect &&& 0x3) <<< ioconfigBitshift pfiChannel

def pfiInputSelectMask (pfiChannel : Nat) : U32 := (0x7 : U32) <<< (4 + ioconfigBitshift pfiChannel)

def pfiInputSelectBits (pfiChannel : Nat) (inputSelect : U32) : U32 :=
  (inputSelect &&& 0x7) <<< (4 + ioconfigBitshift pfiChannel)

def ni660xReadRegister (d : Dev) (chip reg : Nat) : U32 := (d.ioConfig (chip, reg)).setWidth 32

def ni660xWriteRegister (d : Dev) (chip : Nat) (bits : U32) (reg : Nat) : Dev :=
  let ioConfig := Function.update d.ioConfig (chip, reg) (bits.setWidth 16)
  { d with ioConfig := ioConfig, past := ioConfig :: d.past }

/-- The register of a channel is read, changed under a mask and written. -/
def changeBits (d : Dev) (chip pfiChannel : Nat) (mask values : U32) : Result Dev := do
  let reg ← ioConfigReg pfiChannel
  let bits := ni660xReadRegister d chip reg &&& ~~~mask ||| values
  return ni660xWriteRegister d chip bits reg

/-- The chip that is to drive a pin. -/
def activeChipset (nChips pfiChannel : Nat) (outputSelect : U32) : Nat :=
  if 1 < nChips ∧ outputSelect = pfiOutputSelectCounter ∧ 8 ≤ pfiChannel ∧ pfiChannel ≤ 23 then 1
  else 0

/-- The chip that is to leave it alone, which is the same if there is but one. -/
def idleChipset (nChips pfiChannel : Nat) (outputSelect : U32) : Nat :=
  if 1 < nChips then 1 - activeChipset nChips pfiChannel outputSelect else 0

def ni660xSelectPfiOutput (d : Dev) (pfiChannel : Nat) (outputSelect : U32) : Result Dev := do
  let active := activeChipset d.nChips pfiChannel outputSelect
  let idle := idleChipset d.nChips pfiChannel outputSelect
  let d ←
    if idle ≠ active then
      changeBits d idle pfiChannel (pfiOutputSelectMask pfiChannel)
        (pfiOutputSelectBits pfiChannel pfiOutputSelectHighZ)
    else .ok d
  changeBits d active pfiChannel (pfiOutputSelectMask pfiChannel)
    (pfiOutputSelectBits pfiChannel outputSelect)

/-- Whether `ni_660x_set_pfi_routing` refuses a source. -/
def refused (chan : Nat) (source : U32) : Prop :=
  numPfiOutputSelects < source ∨ source = pfiOutputSelectHighZ ∨
    (chan < minCounterPfiChan ∧ source = pfiOutputSelectCounter) ∨
    (¬ chan < minCounterPfiChan ∧ maxDioPfiChan < chan ∧ source = pfiOutputSelectDo)

instance (chan : Nat) (source : U32) : Decidable (refused chan source) :=
  inferInstanceAs (Decidable (_ ∨ _))

def chanBit (chan : Nat) : BitVec 64 := (1 : BitVec 64) <<< chan

def isOutput (d : Dev) (chan : Nat) : Prop := d.pfiDirectionBits &&& chanBit chan ≠ 0

instance (d : Dev) (chan : Nat) : Decidable (isOutput d chan) := inferInstanceAs (Decidable (¬ _))

def selected (d : Dev) (chan : Nat) : U32 := (d.pfiOutputSelects chan).setWidth 32

def setOutput (d : Dev) (chan : Nat) : Dev :=
  { d with pfiDirectionBits := d.pfiDirectionBits ||| chanBit chan }

def setInput (d : Dev) (chan : Nat) : Dev :=
  { d with pfiDirectionBits := d.pfiDirectionBits &&& ~~~chanBit chan }

def setSelect (d : Dev) (chan : Nat) (source : U32) : Dev :=
  { d with pfiOutputSelects := Function.update d.pfiOutputSelects chan (source.setWidth 16) }

def ni660xSetPfiRouting (d : Dev) (chan : Nat) (source : U32) : Result (Int × Dev) := do
  if refused chan source then .ok (-einval, d)
  else if numPfiChannels ≤ chan then .error .bug
  else
    let d := setSelect d chan source
    let d ← if isOutput d chan then ni660xSelectPfiOutput d chan (selected d chan) else .ok d
    return (0, d)

def ni660xGetPfiRouting (d : Dev) (chan : Nat) : Result U32 :=
  if numPfiChannels ≤ chan then .error .bug else .ok (selected d chan)

def ni660xConfigFilter (d : Dev) (pfiChannel : Nat) (filter : U32) : Result Dev :=
  changeBits d 0 pfiChannel (pfiInputSelectMask pfiChannel) (pfiInputSelectBits pfiChannel filter)

/-- `ni_660x_dio_insn_config`: its value, `data[1]` and the device afterwards. -/
def ni660xDioInsnConfig (d : Dev) (chan : Nat) (data0 data1 : U32) : Result (Int × U32 × Dev) := do
  if data0 = insnConfigDioOutput then
    let d := setOutput d chan
    let d ← ni660xSelectPfiOutput d chan (selected d chan)
    return (0, data1, d)
  else if data0 = insnConfigDioInput then
    let d := setInput d chan
    let d ← ni660xSelectPfiOutput d chan pfiOutputSelectHighZ
    return (0, data1, d)
  else if data0 = insnConfigDioQuery then return (0, if isOutput d chan then 1 else 0, d)
  else if data0 = insnConfigSetRouting then
    let (ret, d) ← ni660xSetPfiRouting d chan data1
    return (ret, data1, d)
  else if data0 = insnConfigGetRouting then
    let source ← ni660xGetPfiRouting d chan
    return (0, source, d)
  else if data0 = insnConfigFilter then
    let d ← ni660xConfigFilter d chan data1
    return (0, data1, d)
  else return (-einval, data1, d)

/-- An `INSN_CONFIG` instruction for a channel of the subdevice. -/
structure DioInsn where
  chan : Nat
  data0 : U32
  data1 : U32

def insnStep (d : Dev) (i : DioInsn) : Result Dev := do
  let (_, _, d) ← ni660xDioInsnConfig d i.chan i.data0 i.data1
  return d

def clearIoConfig (chip : Nat) (d : Dev) (i : Nat) : Result Dev := do
  let reg ← ioConfigReg i
  return ni660xWriteRegister d chip 0 reg

/-- The loop of `init_tio_chip` over the channels. -/
def initTioChip (d : Dev) (chip : Nat) : Result Dev :=
  run (clearIoConfig chip) d (List.range numPfiChannels)

def attachSource (chan : Nat) : U32 :=
  if chan < minCounterPfiChan then pfiOutputSelectDo else pfiOutputSelectCounter

def initPfi (d : Dev) (chan : Nat) : Result Dev := do
  let (_, d) ← ni660xSetPfiRouting d chan (attachSource chan)
  ni660xSelectPfiOutput d chan pfiOutputSelectHighZ

/-- The PFI setup of `ni_660x_attach`, from whatever the registers hold. -/
def ni660xAttach (nChips : Nat) (ioConfig : IoConfig) : Result Dev := do
  let d ← run initTioChip { nChips := nChips, ioConfig := ioConfig } (List.range nChips)
  let d ← run initPfi d (List.range numPfiChannels)
  return { d with past := [d.ioConfig] }

end Comedi.Ni660xPfi
