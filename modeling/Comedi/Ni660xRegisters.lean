import Comedi.NiTio

namespace Comedi.Ni660xRegisters

open NiTio

/-- `NI_660x_Register`, with the registers of the pairs of PFI channels numbered. -/
inductive Ni660xRegister where
  | g0InterruptAcknowledge | g0StatusRegister | g1InterruptAcknowledge | g1StatusRegister
  | g01StatusRegister | g0CommandRegister | stcDioParallelInput | g1CommandRegister
  | g0HwSaveRegister | g1HwSaveRegister | stcDioOutput | stcDioControl | g0SwSaveRegister
  | g1SwSaveRegister | g0ModeRegister | g01JointStatus1Register | g1ModeRegister
  | stcDioSerialInput | g0LoadARegister | g01JointStatus2Register | g0LoadBRegister
  | g1LoadARegister | g1LoadBRegister | g0InputSelectRegister | g1InputSelectRegister
  | g0AutoincrementRegister | g1AutoincrementRegister | g01JointResetRegister | g0InterruptEnable
  | g1InterruptEnable | g0CountingModeRegister | g1CountingModeRegister | g0SecondGateRegister
  | g1SecondGateRegister | g0DmaConfigRegister | g0DmaStatusRegister | g1DmaConfigRegister
  | g1DmaStatusRegister | g2InterruptAcknowledge | g2StatusRegister | g3InterruptAcknowledge
  | g3StatusRegister | g23StatusRegister | g2CommandRegister | g3CommandRegister | g2HwSaveRegister
  | g3HwSaveRegister | g2SwSaveRegister | g3SwSaveRegister | g2ModeRegister
  | g23JointStatus1Register | g3ModeRegister | g2LoadARegister | g23JointStatus2Register
  | g2LoadBRegister | g3LoadARegister | g3LoadBRegister | g2InputSelectRegister
  | g3InputSelectRegister | g2AutoincrementRegister | g3AutoincrementRegister
  | g23JointResetRegister | g2InterruptEnable | g3InterruptEnable | g2CountingModeRegister
  | g3CountingModeRegister | g3SecondGateRegister | g2SecondGateRegister | g2DmaConfigRegister
  | g2DmaStatusRegister | g3DmaConfigRegister | g3DmaStatusRegister | dio32Input | dio32Output
  | clockConfigRegister | globalInterruptStatusRegister | dmaConfigRegister
  | globalInterruptConfigRegister
  | ioConfigReg (pair : Fin 20)
  deriving DecidableEq, Repr

inductive Width where
  | data1B
  | data2B
  | data4B
  deriving DecidableEq, Repr

def Width.bytes : Width → Nat
  | .data1B => 1
  | .data2B => 2
  | .data4B => 4

inductive Direction where
  | read
  | write
  | readWrite
  deriving DecidableEq, Repr

/-- The offset of a register in its chip, its direction and its width. -/
structure RegisterData where
  offset : Nat
  direction : Direction
  size : Width
  deriving DecidableEq, Repr

def registerData : Ni660xRegister → RegisterData
  | .g0InterruptAcknowledge => ⟨0x004, .write, .data2B⟩
  | .g0StatusRegister => ⟨0x004, .read, .data2B⟩
  | .g1InterruptAcknowledge => ⟨0x006, .write, .data2B⟩
  | .g1StatusRegister => ⟨0x006, .read, .data2B⟩
  | .g01StatusRegister => ⟨0x008, .read, .data2B⟩
  | .g0CommandRegister => ⟨0x00C, .write, .data2B⟩
  | .stcDioParallelInput => ⟨0x00E, .read, .data2B⟩
  | .g1CommandRegister => ⟨0x00E, .write, .data2B⟩
  | .g0HwSaveRegister => ⟨0x010, .read, .data4B⟩
  | .g1HwSaveRegister => ⟨0x014, .read, .data4B⟩
  | .stcDioOutput => ⟨0x014, .write, .data2B⟩
  | .stcDioControl => ⟨0x016, .write, .data2B⟩
  | .g0SwSaveRegister => ⟨0x018, .read, .data4B⟩
  | .g1SwSaveRegister => ⟨0x01C, .read, .data4B⟩
  | .g0ModeRegister => ⟨0x034, .write, .data2B⟩
  | .g01JointStatus1Register => ⟨0x036, .read, .data2B⟩
  | .g1ModeRegister => ⟨0x036, .write, .data2B⟩
  | .stcDioSerialInput => ⟨0x038, .read, .data2B⟩
  | .g0LoadARegister => ⟨0x038, .write, .data4B⟩
  | .g01JointStatus2Register => ⟨0x03A, .read, .data2B⟩
  | .g0LoadBRegister => ⟨0x03C, .write, .data4B⟩
  | .g1LoadARegister => ⟨0x040, .write, .data4B⟩
  | .g1LoadBRegister => ⟨0x044, .write, .data4B⟩
  | .g0InputSelectRegister => ⟨0x048, .write, .data2B⟩
  | .g1InputSelectRegister => ⟨0x04A, .write, .data2B⟩
  | .g0AutoincrementRegister => ⟨0x088, .write, .data2B⟩
  | .g1AutoincrementRegister => ⟨0x08A, .write, .data2B⟩
  | .g01JointResetRegister => ⟨0x090, .write, .data2B⟩
  | .g0InterruptEnable => ⟨0x092, .write, .data2B⟩
  | .g1InterruptEnable => ⟨0x096, .write, .data2B⟩
  | .g0CountingModeRegister => ⟨0x0B0, .write, .data2B⟩
  | .g1CountingModeRegister => ⟨0x0B2, .write, .data2B⟩
  | .g0SecondGateRegister => ⟨0x0B4, .write, .data2B⟩
  | .g1SecondGateRegister => ⟨0x0B6, .write, .data2B⟩
  | .g0DmaConfigRegister => ⟨0x0B8, .write, .data2B⟩
  | .g0DmaStatusRegister => ⟨0x0B8, .read, .data2B⟩
  | .g1DmaConfigRegister => ⟨0x0BA, .write, .data2B⟩
  | .g1DmaStatusRegister => ⟨0x0BA, .read, .data2B⟩
  | .g2InterruptAcknowledge => ⟨0x104, .write, .data2B⟩
  | .g2StatusRegister => ⟨0x104, .read, .data2B⟩
  | .g3InterruptAcknowledge => ⟨0x106, .write, .data2B⟩
  | .g3StatusRegister => ⟨0x106, .read, .data2B⟩
  | .g23StatusRegister => ⟨0x108, .read, .data2B⟩
  | .g2CommandRegister => ⟨0x10C, .write, .data2B⟩
  | .g3CommandRegister => ⟨0x10E, .write, .data2B⟩
  | .g2HwSaveRegister => ⟨0x110, .read, .data4B⟩
  | .g3HwSaveRegister => ⟨0x114, .read, .data4B⟩
  | .g2SwSaveRegister => ⟨0x118, .read, .data4B⟩
  | .g3SwSaveRegister => ⟨0x11C, .read, .data4B⟩
  | .g2ModeRegister => ⟨0x134, .write, .data2B⟩
  | .g23JointStatus1Register => ⟨0x136, .read, .data2B⟩
  | .g3ModeRegister => ⟨0x136, .write, .data2B⟩
  | .g2LoadARegister => ⟨0x138, .write, .data4B⟩
  | .g23JointStatus2Register => ⟨0x13A, .read, .data2B⟩
  | .g2LoadBRegister => ⟨0x13C, .write, .data4B⟩
  | .g3LoadARegister => ⟨0x140, .write, .data4B⟩
  | .g3LoadBRegister => ⟨0x144, .write, .data4B⟩
  | .g2InputSelectRegister => ⟨0x148, .write, .data2B⟩
  | .g3InputSelectRegister => ⟨0x14A, .write, .data2B⟩
  | .g2AutoincrementRegister => ⟨0x188, .write, .data2B⟩
  | .g3AutoincrementRegister => ⟨0x18A, .write, .data2B⟩
  | .g23JointResetRegister => ⟨0x190, .write, .data2B⟩
  | .g2InterruptEnable => ⟨0x192, .write, .data2B⟩
  | .g3InterruptEnable => ⟨0x196, .write, .data2B⟩
  | .g2CountingModeRegister => ⟨0x1B0, .write, .data2B⟩
  | .g3CountingModeRegister => ⟨0x1B2, .write, .data2B⟩
  | .g3SecondGateRegister => ⟨0x1B6, .write, .data2B⟩
  | .g2SecondGateRegister => ⟨0x1B4, .write, .data2B⟩
  | .g2DmaConfigRegister => ⟨0x1B8, .write, .data2B⟩
  | .g2DmaStatusRegister => ⟨0x1B8, .read, .data2B⟩
  | .g3DmaConfigRegister => ⟨0x1BA, .write, .data2B⟩
  | .g3DmaStatusRegister => ⟨0x1BA, .read, .data2B⟩
  | .dio32Input => ⟨0x414, .read, .data4B⟩
  | .dio32Output => ⟨0x510, .write, .data4B⟩
  | .clockConfigRegister => ⟨0x73C, .write, .data4B⟩
  | .globalInterruptStatusRegister => ⟨0x754, .read, .data4B⟩
  | .dmaConfigRegister => ⟨0x76C, .write, .data4B⟩
  | .globalInterruptConfigRegister => ⟨0x770, .write, .data4B⟩
  | .ioConfigReg pair => ⟨0x77C + 2 * pair, .readWrite, .data2B⟩

/-- All registers of a chip. -/
def allRegisters : List Ni660xRegister :=
  [.g0InterruptAcknowledge, .g0StatusRegister, .g1InterruptAcknowledge, .g1StatusRegister,
    .g01StatusRegister, .g0CommandRegister, .stcDioParallelInput, .g1CommandRegister,
    .g0HwSaveRegister, .g1HwSaveRegister, .stcDioOutput, .stcDioControl, .g0SwSaveRegister,
    .g1SwSaveRegister, .g0ModeRegister, .g01JointStatus1Register, .g1ModeRegister,
    .stcDioSerialInput, .g0LoadARegister, .g01JointStatus2Register, .g0LoadBRegister,
    .g1LoadARegister, .g1LoadBRegister, .g0InputSelectRegister, .g1InputSelectRegister,
    .g0AutoincrementRegister, .g1AutoincrementRegister, .g01JointResetRegister, .g0InterruptEnable,
    .g1InterruptEnable, .g0CountingModeRegister, .g1CountingModeRegister, .g0SecondGateRegister,
    .g1SecondGateRegister, .g0DmaConfigRegister, .g0DmaStatusRegister, .g1DmaConfigRegister,
    .g1DmaStatusRegister, .g2InterruptAcknowledge, .g2StatusRegister, .g3InterruptAcknowledge,
    .g3StatusRegister, .g23StatusRegister, .g2CommandRegister, .g3CommandRegister,
    .g2HwSaveRegister, .g3HwSaveRegister, .g2SwSaveRegister, .g3SwSaveRegister, .g2ModeRegister,
    .g23JointStatus1Register, .g3ModeRegister, .g2LoadARegister, .g23JointStatus2Register,
    .g2LoadBRegister, .g3LoadARegister, .g3LoadBRegister, .g2InputSelectRegister,
    .g3InputSelectRegister, .g2AutoincrementRegister, .g3AutoincrementRegister,
    .g23JointResetRegister, .g2InterruptEnable, .g3InterruptEnable, .g2CountingModeRegister,
    .g3CountingModeRegister, .g3SecondGateRegister, .g2SecondGateRegister, .g2DmaConfigRegister,
    .g2DmaStatusRegister, .g3DmaConfigRegister, .g3DmaStatusRegister, .dio32Input, .dio32Output,
    .clockConfigRegister, .globalInterruptStatusRegister, .dmaConfigRegister,
    .globalInterruptConfigRegister] ++
    (List.finRange 20).map .ioConfigReg

theorem mem_allRegisters (r : Ni660xRegister) : r ∈ allRegisters := by
  cases r with
  | ioConfigReg pair =>
    exact List.mem_append_right _ (List.mem_map_of_mem (List.mem_finRange pair))
  | _ => exact List.elem_iff.mp rfl

/-- Both registers can be read, or both can be written. -/
def Direction.meets : Direction → Direction → Bool
  | .read, .write | .write, .read => false
  | _, _ => true

/-- The first register ends before the second one begins, or the other way round. -/
def apart (x y : RegisterData) : Bool :=
  x.offset + x.size.bytes ≤ y.offset || y.offset + y.size.bytes ≤ x.offset

/-- Registers that can both be read, or both be written, have no byte in common. -/
theorem registers_apart (r r' : Ni660xRegister) (hne : r ≠ r')
    (hdir : (registerData r).direction.meets (registerData r').direction = true) :
    apart (registerData r) (registerData r') = true := by
  -- the order of the alternatives keeps the evaluation small
  have h : (allRegisters.all fun r => allRegisters.all fun r' =>
      apart (registerData r) (registerData r') ||
        !(registerData r).direction.meets (registerData r').direction || decide (r = r')) = true := by
    decide +kernel
  rw [List.all_eq_true] at h
  have hr := List.all_eq_true.mp (h r (mem_allRegisters r)) r' (mem_allRegisters r')
  simpa [hdir, hne] using hr

/-- `GPCT_OFFSET`. -/
def gpctOffset (chip : Nat) : Nat := if chip = 0 then 0x0 else 0x800

def byCounter (g0 g1 g2 g3 : Ni660xRegister) : Nat → Result Ni660xRegister
  | 0 => .ok g0
  | 1 => .ok g1
  | 2 => .ok g2
  | 3 => .ok g3
  | _ => .error .bug

def byPair (g01 g23 : Ni660xRegister) : Nat → Result Ni660xRegister
  | 0 => .ok g01
  | 1 => .ok g23
  | _ => .error .bug

/-- The switch of `ni_gpct_to_660x_register`, with the cases of one name together. -/
def niGpctTo660xRegister (reg : NiGpctRegister) : Result Ni660xRegister :=
  match reg.name with
  | .autoincrement => byCounter .g0AutoincrementRegister .g1AutoincrementRegister
      .g2AutoincrementRegister .g3AutoincrementRegister reg.index
  | .command => byCounter .g0CommandRegister .g1CommandRegister .g2CommandRegister
      .g3CommandRegister reg.index
  | .hwSave => byCounter .g0HwSaveRegister .g1HwSaveRegister .g2HwSaveRegister .g3HwSaveRegister
      reg.index
  | .swSave => byCounter .g0SwSaveRegister .g1SwSaveRegister .g2SwSaveRegister .g3SwSaveRegister
      reg.index
  | .mode => byCounter .g0ModeRegister .g1ModeRegister .g2ModeRegister .g3ModeRegister reg.index
  | .loadA => byCounter .g0LoadARegister .g1LoadARegister .g2LoadARegister .g3LoadARegister reg.index
  | .loadB => byCounter .g0LoadBRegister .g1LoadBRegister .g2LoadBRegister .g3LoadBRegister reg.index
  | .inputSelect => byCounter .g0InputSelectRegister .g1InputSelectRegister .g2InputSelectRegister
      .g3InputSelectRegister reg.index
  | .gxxStatus => byPair .g01StatusRegister .g23StatusRegister reg.index
  | .jointReset => byPair .g01JointResetRegister .g23JointResetRegister reg.index
  | .jointStatus1 => byPair .g01JointStatus1Register .g23JointStatus1Register reg.index
  | .jointStatus2 => byPair .g01JointStatus2Register .g23JointStatus2Register reg.index
  | .countingMode => byCounter .g0CountingModeRegister .g1CountingModeRegister
      .g2CountingModeRegister .g3CountingModeRegister reg.index
  | .secondGate => byCounter .g0SecondGateRegister .g1SecondGateRegister .g2SecondGateRegister
      .g3SecondGateRegister reg.index
  | .dmaConfig => byCounter .g0DmaConfigRegister .g1DmaConfigRegister .g2DmaConfigRegister
      .g3DmaConfigRegister reg.index
  | .dmaStatus => byCounter .g0DmaStatusRegister .g1DmaStatusRegister .g2DmaStatusRegister
      .g3DmaStatusRegister reg.index
  | .interruptAcknowledge => byCounter .g0InterruptAcknowledge .g1InterruptAcknowledge
      .g2InterruptAcknowledge .g3InterruptAcknowledge reg.index
  -- the status registers of all counters are that of counter 0
  | .status => byCounter .g0StatusRegister .g0StatusRegister .g0StatusRegister .g0StatusRegister
      reg.index
  | .interruptEnable => byCounter .g0InterruptEnable .g1InterruptEnable .g2InterruptEnable
      .g3InterruptEnable reg.index
  | .abz => .error .bug

/-- The generic register that a register of the chip is, by its name. -/
def genericRegister : Ni660xRegister → Option NiGpctRegister
  | .g0AutoincrementRegister => some ⟨.autoincrement, 0⟩
  | .g1AutoincrementRegister => some ⟨.autoincrement, 1⟩
  | .g2AutoincrementRegister => some ⟨.autoincrement, 2⟩
  | .g3AutoincrementRegister => some ⟨.autoincrement, 3⟩
  | .g0CommandRegister => some ⟨.command, 0⟩
  | .g1CommandRegister => some ⟨.command, 1⟩
  | .g2CommandRegister => some ⟨.command, 2⟩
  | .g3CommandRegister => some ⟨.command, 3⟩
  | .g0HwSaveRegister => some ⟨.hwSave, 0⟩
  | .g1HwSaveRegister => some ⟨.hwSave, 1⟩
  | .g2HwSaveRegister => some ⟨.hwSave, 2⟩
  | .g3HwSaveRegister => some ⟨.hwSave, 3⟩
  | .g0SwSaveRegister => some ⟨.swSave, 0⟩
  | .g1SwSaveRegister => some ⟨.swSave, 1⟩
  | .g2SwSaveRegister => some ⟨.swSave, 2⟩
  | .g3SwSaveRegister => some ⟨.swSave, 3⟩
  | .g0ModeRegister => some ⟨.mode, 0⟩
  | .g1ModeRegister => some ⟨.mode, 1⟩
  | .g2ModeRegister => some ⟨.mode, 2⟩
  | .g3ModeRegister => some ⟨.mode, 3⟩
  | .g0LoadARegister => some ⟨.loadA, 0⟩
  | .g1LoadARegister => some ⟨.loadA, 1⟩
  | .g2LoadARegister => some ⟨.loadA, 2⟩
  | .g3LoadARegister => some ⟨.loadA, 3⟩
  | .g0LoadBRegister => some ⟨.loadB, 0⟩
  | .g1LoadBRegister => some ⟨.loadB, 1⟩
  | .g2LoadBRegister => some ⟨.loadB, 2⟩
  | .g3LoadBRegister => some ⟨.loadB, 3⟩
  | .g0InputSelectRegister => some ⟨.inputSelect, 0⟩
  | .g1InputSelectRegister => some ⟨.inputSelect, 1⟩
  | .g2InputSelectRegister => some ⟨.inputSelect, 2⟩
  | .g3InputSelectRegister => some ⟨.inputSelect, 3⟩
  | .g0CountingModeRegister => some ⟨.countingMode, 0⟩
  | .g1CountingModeRegister => some ⟨.countingMode, 1⟩
  | .g2CountingModeRegister => some ⟨.countingMode, 2⟩
  | .g3CountingModeRegister => some ⟨.countingMode, 3⟩
  | .g0SecondGateRegister => some ⟨.secondGate, 0⟩
  | .g1SecondGateRegister => some ⟨.secondGate, 1⟩
  | .g2SecondGateRegister => some ⟨.secondGate, 2⟩
  | .g3SecondGateRegister => some ⟨.secondGate, 3⟩
  | .g0DmaConfigRegister => some ⟨.dmaConfig, 0⟩
  | .g1DmaConfigRegister => some ⟨.dmaConfig, 1⟩
  | .g2DmaConfigRegister => some ⟨.dmaConfig, 2⟩
  | .g3DmaConfigRegister => some ⟨.dmaConfig, 3⟩
  | .g0DmaStatusRegister => some ⟨.dmaStatus, 0⟩
  | .g1DmaStatusRegister => some ⟨.dmaStatus, 1⟩
  | .g2DmaStatusRegister => some ⟨.dmaStatus, 2⟩
  | .g3DmaStatusRegister => some ⟨.dmaStatus, 3⟩
  | .g0InterruptAcknowledge => some ⟨.interruptAcknowledge, 0⟩
  | .g1InterruptAcknowledge => some ⟨.interruptAcknowledge, 1⟩
  | .g2InterruptAcknowledge => some ⟨.interruptAcknowledge, 2⟩
  | .g3InterruptAcknowledge => some ⟨.interruptAcknowledge, 3⟩
  | .g0StatusRegister => some ⟨.status, 0⟩
  | .g1StatusRegister => some ⟨.status, 1⟩
  | .g2StatusRegister => some ⟨.status, 2⟩
  | .g3StatusRegister => some ⟨.status, 3⟩
  | .g0InterruptEnable => some ⟨.interruptEnable, 0⟩
  | .g1InterruptEnable => some ⟨.interruptEnable, 1⟩
  | .g2InterruptEnable => some ⟨.interruptEnable, 2⟩
  | .g3InterruptEnable => some ⟨.interruptEnable, 3⟩
  | .g01StatusRegister => some ⟨.gxxStatus, 0⟩
  | .g23StatusRegister => some ⟨.gxxStatus, 1⟩
  | .g01JointResetRegister => some ⟨.jointReset, 0⟩
  | .g23JointResetRegister => some ⟨.jointReset, 1⟩
  | .g01JointStatus1Register => some ⟨.jointStatus1, 0⟩
  | .g23JointStatus1Register => some ⟨.jointStatus1, 1⟩
  | .g01JointStatus2Register => some ⟨.jointStatus2, 0⟩
  | .g23JointStatus2Register => some ⟨.jointStatus2, 1⟩
  | _ => none

theorem byCounter_cases {g0 g1 g2 g3 x : Ni660xRegister} {i : Nat}
    (h : byCounter g0 g1 g2 g3 i = .ok x) :
    (i = 0 ∧ x = g0) ∨ (i = 1 ∧ x = g1) ∨ (i = 2 ∧ x = g2) ∨ (i = 3 ∧ x = g3) := by
  unfold byCounter at h
  split at h
  · cases h
    exact .inl ⟨rfl, rfl⟩
  · cases h
    exact .inr (.inl ⟨rfl, rfl⟩)
  · cases h
    exact .inr (.inr (.inl ⟨rfl, rfl⟩))
  · cases h
    exact .inr (.inr (.inr ⟨rfl, rfl⟩))
  · cases h

theorem byPair_cases {g01 g23 x : Ni660xRegister} {i : Nat} (h : byPair g01 g23 i = .ok x) :
    (i = 0 ∧ x = g01) ∨ (i = 1 ∧ x = g23) := by
  unfold byPair at h
  split at h
  · cases h
    exact .inl ⟨rfl, rfl⟩
  · cases h
    exact .inr ⟨rfl, rfl⟩
  · cases h

section Map

variable {r r' : NiGpctRegister} {x x' : Ni660xRegister}

/-- Every generic register has its own register in the chip, but for the status registers. -/
theorem niGpctTo660xRegister_cases (h : niGpctTo660xRegister r = .ok x) :
    (r.name ≠ .status ∧ genericRegister x = some r) ∨
      (r.name = .status ∧ x = .g0StatusRegister) := by
  obtain ⟨name, i⟩ := r
  unfold niGpctTo660xRegister at h
  cases name with
  | abz => cases h
  | status =>
    right
    obtain ⟨-, rfl⟩ | ⟨-, rfl⟩ | ⟨-, rfl⟩ | ⟨-, rfl⟩ := byCounter_cases h <;> exact ⟨rfl, rfl⟩
  | gxxStatus | jointReset | jointStatus1 | jointStatus2 =>
    left
    obtain ⟨rfl, rfl⟩ | ⟨rfl, rfl⟩ := byPair_cases h <;> exact ⟨nofun, rfl⟩
  | _ =>
    left
    obtain ⟨rfl, rfl⟩ | ⟨rfl, rfl⟩ | ⟨rfl, rfl⟩ | ⟨rfl, rfl⟩ := byCounter_cases h <;>
      exact ⟨nofun, rfl⟩

/-- Two generic registers are the same register of the chip if they are one, or both are status
registers. -/
theorem same_register_iff (h : niGpctTo660xRegister r = .ok x)
    (h' : niGpctTo660xRegister r' = .ok x') :
    x = x' ↔ r = r' ∨ (r.name = .status ∧ r'.name = .status) := by
  constructor
  · rintro rfl
    rcases niGpctTo660xRegister_cases h with ⟨hn, hg⟩ | ⟨hn, hx⟩
    · rcases niGpctTo660xRegister_cases h' with ⟨-, hg'⟩ | ⟨-, hx'⟩
      · exact .inl (Option.some.inj (hg.symm.trans hg'))
      · rw [hx'] at hg
        cases hg
        exact absurd rfl hn
    · rcases niGpctTo660xRegister_cases h' with ⟨hn', hg'⟩ | ⟨hn', -⟩
      · rw [hx] at hg'
        cases hg'
        exact absurd rfl hn'
      · exact .inr ⟨hn, hn'⟩
  · rintro (rfl | ⟨hn, hn'⟩)
    · rw [h] at h'
      exact Except.ok.inj h'
    · rcases niGpctTo660xRegister_cases h with ⟨hne, -⟩ | ⟨-, hx⟩
      · exact absurd hn hne
      · rcases niGpctTo660xRegister_cases h' with ⟨hne, -⟩ | ⟨-, hx'⟩
        · exact absurd hn' hne
        · exact hx.trans hx'.symm

end Map

end Comedi.Ni660xRegisters
