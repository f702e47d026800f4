import Comedi.DataModel
import Comedi.ShiftRegister
import Mathlib.Data.Fintype.Basic
import Mathlib.Logic.Function.Basic

namespace Comedi.NiCaldac

open ShiftRegister

abbrev U16 := BitVec 16

inductive CaldacEnum
  | caldacNone
  | mb88341
  | dac8800
  | dac8043
  | ad8522
  | ad8804
  | ad8842
  | ad8804Debug
  deriving DecidableEq

open CaldacEnum

/-- A row of the table `caldacs`, with the number of bits that `packbits` returns. -/
structure CaldacStruct where
  nChans : Nat
  nBits : Nat
  length : Nat
  packbits : U32 → U32 → U32

def packMb88341 (addr val : U32) : U32 :=
  let addr := addr + 1
  ((addr &&& 0x1) <<< 11) ||| ((addr &&& 0x2) <<< 9) ||| ((addr &&& 0x4) <<< 7) |||
    ((addr &&& 0x8) <<< 5) ||| (val &&& 0xff)

def packDac8800 (addr val : U32) : U32 := ((addr &&& 0x7) <<< 8) ||| (val &&& 0xff)

def packDac8043 (_addr val : U32) : U32 := val &&& 0xfff

def packAd8522 (addr val : U32) : U32 :=
  (val &&& 0xfff) ||| (if addr ≠ 0 then 0xc000 else 0xa000)

def packAd8804 (addr val : U32) : U32 := ((addr &&& 0xf) <<< 8) ||| (val &&& 0xff)

def packAd8842 (addr val : U32) : U32 := ((addr + 1) <<< 8) ||| (val &&& 0xff)

def caldacs : CaldacEnum → CaldacStruct
  | caldacNone => ⟨0, 0, 0, fun _ _ => 0⟩
  | mb88341 => ⟨12, 8, 12, packMb88341⟩
  | dac8800 => ⟨8, 8, 11, packDac8800⟩
  | dac8043 => ⟨1, 12, 12, packDac8043⟩
  | ad8522 => ⟨2, 12, 16, packAd8522⟩
  | ad8804 => ⟨12, 8, 12, packAd8804⟩
  | ad8842 => ⟨8, 8, 12, packAd8842⟩
  | ad8804Debug => ⟨16, 8, 12, packAd8804⟩

/-- The member `caldac` of `ni_board`. -/
structure NiBoard where
  caldac : Fin 3 → CaldacEnum

/-- The settings of the calibration DACs, and what has been written to `Serial_Command`. -/
structure Dev where
  caldacs : Nat → U16 := fun _ => 0
  serial : List Byte := []

def serDacLd (i : Nat) : Byte := (0x08 : Byte) <<< i

/-- The bytes by which one bit is clocked out. -/
def clockOut (b : Bool) : List Byte := [if b then 0x02 else 0, 1 ||| if b then 0x02 else 0]

def shiftOut (bits : Nat) (bitstring : U32) : List Byte :=
  (sent bits bitstring.toNat).flatMap clockOut

section Board

variable (board : NiBoard)

/-- The calibration DACs up to the first one that is `caldac_none`. -/
def dacs : List CaldacEnum :=
  [board.caldac 0, board.caldac 1, board.caldac 2].takeWhile (· ≠ caldacNone)

def nChan : Nat := ((dacs board).map fun type => (caldacs type).nChans).sum

/-- The DAC that has a channel, with its place among the DACs, and its own number of the channel. -/
def locate : Nat → List CaldacEnum → Nat → Option (Nat × CaldacEnum × Nat)
  | _, [], _ => none
  | i, type :: types, addr =>
    if addr < (caldacs type).nChans then some (i, type, addr)
    else locate (i + 1) types (addr - (caldacs type).nChans)

/-- What is written for a channel. Where no DAC has it, the shift by `bits - 1` is undefined, and
`stray` bits that are zero are clocked out. -/
def emitted (stray addr : Nat) (val : U32) : List Byte :=
  match locate 0 (dacs board) addr with
  | some (i, type, addr) =>
    shiftOut (caldacs type).length ((caldacs type).packbits (BitVec.ofNat 32 addr) val) ++
      [serDacLd i, 0]
  | none => shiftOut stray 0 ++ [0, 0]

def niWriteCaldac (stray : Nat) (dev : Dev) (addr : Nat) (val : U32) : Dev :=
  if (dev.caldacs addr).setWidth 32 = val then dev
  else
    { caldacs := Function.update dev.caldacs addr (val.setWidth 16)
      serial := dev.serial ++ emitted board stray addr val }

def maxOf (type : CaldacEnum) : U32 := ((1 : U32) <<< (caldacs type).nBits) - 1

def diffbits : Prop := ∃ type ∈ dacs board, (caldacs type).nBits ≠ (caldacs (board.caldac 0)).nBits

instance : Decidable (diffbits board) := inferInstanceAs (Decidable (∃ type ∈ _, _))

def maxdataList : List U32 :=
  (dacs board).flatMap fun type => List.replicate (caldacs type).nChans (maxOf type)

/-- `maxdata` of a channel, from the list or common to all channels. -/
def maxdata (chan : Nat) : U32 :=
  if diffbits board then (maxdataList board).getD chan 0 else maxOf (board.caldac 0)

/-- The loops of `caldac_setup` write to channel `i`, the number of DACs, as often as there are
channels. -/
def caldacSetup (stray : Nat) (dev : Dev) : Dev :=
  (List.range (nChan board)).foldl (fun dev _ =>
    let i := (dacs board).length
    niWriteCaldac board stray dev i (maxdata board i / 2)) dev

/-- `INSN_WRITE` on the calibration subdevice: the channel, the number of samples and the first. -/
structure CalibWrite where
  chan : Nat
  n : Nat
  data : U32

def niCalibInsnWrite (stray : Nat) (dev : Dev) (insn : CalibWrite) : Dev :=
  if insn.n = 0 then dev else niWriteCaldac board stray dev insn.chan insn.data

def niCalibInsnRead (dev : Dev) (chan : Nat) : U32 := (dev.caldacs chan).setWidth 32

/-- The device after `caldac_setup` and a sequence of writes. -/
def run (stray : Nat) (writes : List CalibWrite) : Dev :=
  writes.foldl (niCalibInsnWrite board stray) (caldacSetup board stray {})

end Board

section Chips

/-- What the chips have seen of the serial lines: the level of the clock, the bits clocked in, the
last one first, and the contents of the registers of each chip since they were loaded. -/
structure Chips where
  clock : Bool := false
  bits : List Bool := []
  regs : Nat → Nat → Option Nat := fun _ _ => none

/-- The register that the address bits of a chip stand for. -/
def register (type : CaldacEnum) (address : Nat) : Nat :=
  match type with
  | mb88341 => word 4 [address.testBit 3, address.testBit 2, address.testBit 1, address.testBit 0]
  | _ => address

/-- The register and the value in the last bits that a chip has seen. -/
def decode (type : CaldacEnum) (bits : List Bool) : Nat × Nat :=
  let bitstring := word (caldacs type).length bits
  (register type (bitstring / 2 ^ (caldacs type).nBits), bitstring % 2 ^ (caldacs type).nBits)

/-- A bit is clocked in at a rising edge, and a chip loads a register at its own load bit. -/
def Chips.write (types : List CaldacEnum) (chips : Chips) (byte : Byte) : Chips :=
  let clock : Bool := byte &&& 1 ≠ 0
  let bits := if clock ∧ ¬ chips.clock then decide (byte &&& 2 ≠ 0) :: chips.bits else chips.bits
  { clock
    bits
    regs := fun i reg =>
      match types[i]? with
      | some type =>
        if byte &&& serDacLd i ≠ 0 ∧ (decode type bits).1 = reg then some (decode type bits).2
        else chips.regs i reg
      | none => chips.regs i reg }

/-- The chips of a board after all that has been written to them. -/
def chips (board : NiBoard) (dev : Dev) : Chips :=
  dev.serial.foldl (Chips.write (dacs board)) {}

end Chips

end Comedi.NiCaldac
