import Comedi.Instructions
import Comedi.SharedRegs

namespace Comedi.NiTio

open Instructions SharedRegs

inductive NiGpctVariant where
  | eSeries
  | mSeries
  | ni660x
  deriving DecidableEq, Repr

inductive RegName where
  | autoincrement | command | hwSave | swSave | mode | loadA | loadB | inputSelect | countingMode
  | secondGate | gxxStatus | jointReset | jointStatus1 | jointStatus2 | dmaConfig | dmaStatus
  | abz | interruptAcknowledge | status | interruptEnable
  deriving DecidableEq, Repr

/-- `enum ni_gpct_register`: the registers of one name are numbered by the counter, those with
`Gxx` in their name by the pair of counters. -/
structure NiGpctRegister where
  name : RegName
  index : Nat
  deriving DecidableEq, Repr

def giReg (name : RegName) (n counterIndex : Nat) : Result NiGpctRegister :=
  if counterIndex < n then .ok ⟨name, counterIndex⟩ else .error .bug

def gxxReg (name : RegName) (counterIndex : Nat) : Result NiGpctRegister :=
  if counterIndex < 4 then .ok ⟨name, counterIndex / 2⟩ else .error .bug

def nitioGiAutoincrementReg := giReg .autoincrement 4
def nitioGiCommandReg := giReg .command 4
def nitioGiCountingModeReg := giReg .countingMode 4
def nitioGiInputSelectReg := giReg .inputSelect 4
def nitioGxxJointResetReg := gxxReg .jointReset
def nitioGxxJointStatus2Reg := gxxReg .jointStatus2
def nitioGxxStatusReg := gxxReg .gxxStatus
def nitioGiLoadAReg := giReg .loadA 4
def nitioGiLoadBReg := giReg .loadB 4
def nitioGiModeReg := giReg .mode 4
def nitioGiSwSaveReg := giReg .swSave 4
def nitioGiSecondGateReg := giReg .secondGate 4
def nitioGiDmaConfigReg := giReg .dmaConfig 4
def nitioGiAbzReg := giReg .abz 2
def nitioGiInterruptEnableReg := giReg .interruptEnable 4

def giArmBit : U32 := 0x1
def giSaveTraceBit : U32 := 0x2
def giLoadBit : U32 := 0x4
def giDisarmBit : U32 := 0x10
def giUpDownShift : Nat := 5
def giUpDownMask : U32 := 0x3 <<< 5
def giSynchronizeGateBit : U32 := 0x100
def giArmCopyBit : U32 := 0x2000

def giIndexPhaseBitshift : Nat := 5
def giHwArmSelectShift : Nat := 8
def giCountingModeMask : U32 := 0x7
def giCountingModeQuadratureX1Bits : U32 := 0x1
def giCountingModeQuadratureX2Bits : U32 := 0x2
def giCountingModeQuadratureX4Bits : U32 := 0x3
def giCountingModeSyncSourceBits : U32 := 0x6
def giIndexModeBit : U32 := 0x10
def giIndexPhaseMask : U32 := 0x3 <<< 5
def giHwArmEnableBit : U32 := 0x80

def giReadAcknowledgesIrq : U32 := 0x1
def giWriteAcknowledgesIrq : U32 := 0x2
def giSourceSelectShift : Nat := 2
def giGateSelectShift : Nat := 7
def giSourceSelectMask : U32 := 0x7c
def giGateSelectMask : U32 := 0x1f <<< 7
def giGateSelectLoadSourceBit : U32 := 0x1000
def giOrGateBit : U32 := 0x2000
def giOutputPolarityBit : U32 := 0x4000
def giSourcePolarityBit : U32 := 0x8000

def giGatingModeMask : U32 := 0x3
def giGatingDisabledBits : U32 := 0x0
def giLevelGatingBits : U32 := 0x1
def giRisingEdgeGatingBits : U32 := 0x2
def giGatePolarityBit : U32 := 0x2000
def giReloadSourceSwitchingBit : U32 := 0x8000

def giSecondGateSelectShift : Nat := 7
def giSecondGateModeBit : U32 := 0x1
def giSecondGateSelectMask : U32 := 0x1f <<< 7
def giSecondGatePolarityBit : U32 := 0x2000
def giSourceSubselectBit : U32 := 0x8000

def giDmaEnableBit : U32 := 0x1
def giDmaWriteBit : U32 := 0x2
def giDmaIntBit : U32 := 0x4

def giSourceSelectBits (source : U32) : U32 :=
  (source <<< giSourceSelectShift) &&& giSourceSelectMask

def giGateSelectBits (gateSelect : U32) : U32 :=
  (gateSelect <<< giGateSelectShift) &&& giGateSelectMask

def giSecondGateSelectBits (secondGateSelect : U32) : U32 :=
  (secondGateSelect <<< giSecondGateSelectShift) &&& giSecondGateSelectMask

def giResetBit (counterIndex : Nat) : U32 := 0x1 <<< (2 + counterIndex % 2)

def giCountingBit (counterIndex : Nat) : U32 := if counterIndex % 2 = 0 then 0x4 else 0x8

def giArmedBit (counterIndex : Nat) : U32 := if counterIndex % 2 = 0 then 0x100 else 0x200

def giNextLoadSourceBit (counterIndex : Nat) : U32 := if counterIndex % 2 = 0 then 0x10 else 0x20

def giGateInterruptEnableBit (counterIndex : Nat) : U32 :=
  if counterIndex % 2 = 0 then 0x100 else 0x400

def giAlternateSyncBit : NiGpctVariant → U32
  | .eSeries => 0
  | .mSeries => 0x4000
  | .ni660x => 0x2000

def giPrescaleX2Bit : NiGpctVariant → U32
  | .eSeries => 0
  | .mSeries => 0x8000
  | .ni660x => 0x4000

def giPrescaleX8Bit : NiGpctVariant → U32
  | .eSeries => 0
  | .mSeries => 0x2000
  | .ni660x => 0x1000

def giHwArmSelectMask : NiGpctVariant → U32
  | .eSeries => 0
  | .mSeries => 0x1f <<< 8
  | .ni660x => 0x7 <<< 8

def niTioCountingModeRegistersPresent : NiGpctVariant → Bool
  | .eSeries => false
  | .mSeries | .ni660x => true

def niTioSecondGateRegistersPresent : NiGpctVariant → Bool
  | .eSeries => false
  | .mSeries | .ni660x => true

/-- `struct ni_gpct`. `miteChan` tells whether there is one. -/
structure NiGpct where
  counterIndex : Nat
  chipIndex : Nat
  clockPeriodPs : BitVec 64 := 0
  miteChan : Bool := false

/-- `struct ni_gpct_device`. The registers of the hardware are those of its chips: `written`
is what was last written to each of them. -/
structure NiGpctDevice where
  variant : NiGpctVariant
  counters : Nat → NiGpct
  regs : NiGpctRegister → U32 := fun _ => 0
  written : Nat → NiGpctRegister → Option U32 := fun _ _ => none

def writeRegister (d : NiGpctDevice) (c : Nat) (bits : U32) (reg : NiGpctRegister) :
    NiGpctDevice :=
  let chip := (d.counters c).chipIndex
  let onChip := Function.update (d.written chip) reg (some bits)
  { d with written := Function.update d.written chip onChip }

def niTioSetBitsTransient (d : NiGpctDevice) (c : Nat) (reg : NiGpctRegister)
    (bitMask bitValues transientBitValues : U32) : NiGpctDevice :=
  let d := { d with regs := setBits d.regs reg bitMask bitValues }
  writeRegister d c (d.regs reg ||| transientBitValues) reg

def niTioSetBits (d : NiGpctDevice) (c : Nat) (reg : NiGpctRegister) (bitMask bitValues : U32) :
    NiGpctDevice :=
  niTioSetBitsTransient d c reg bitMask bitValues 0x0

/-- Store a value in a software copy and write it to the register. -/
def setRegister (d : NiGpctDevice) (c : Nat) (reg : NiGpctRegister) (value : U32) : NiGpctDevice :=
  writeRegister { d with regs := Function.update d.regs reg value } c value reg

def niTioResetCountAndDisarm (d : NiGpctDevice) (c : Nat) : Result NiGpctDevice := do
  let i := (d.counters c).counterIndex
  let reg ← nitioGxxJointResetReg i
  return writeRegister d c (giResetBit i) reg

/-- `regs[reg] = value`, and the write of the copy. -/
def storeReg (reg : Nat → Result NiGpctRegister) (value : U32) (c : Nat) (d : NiGpctDevice) :
    Result NiGpctDevice := do
  return setRegister d c (← reg (d.counters c).counterIndex) value

/-- `ni_tio_set_bits(counter, reg, ~0, value)`. -/
def setAllBits (reg : Nat → Result NiGpctRegister) (value : U32) (c : Nat) (d : NiGpctDevice) :
    Result NiGpctDevice := do
  return niTioSetBits d c (← reg (d.counters c).counterIndex) (~~~0) value

/-- The parts of `ni_tio_init_counter` for the registers that not every variant has. -/
def initCountingMode (c : Nat) (d : NiGpctDevice) : Result NiGpctDevice :=
  if niTioCountingModeRegistersPresent d.variant then setAllBits nitioGiCountingModeReg 0 c d
  else .ok d

def initSecondGate (c : Nat) (d : NiGpctDevice) : Result NiGpctDevice :=
  if niTioSecondGateRegistersPresent d.variant then storeReg nitioGiSecondGateReg 0x0 c d
  else .ok d

def niTioInitCounter (d : NiGpctDevice) (c : Nat) : Result NiGpctDevice := do
  let d ← niTioResetCountAndDisarm d c
  let d ← storeReg nitioGiAutoincrementReg 0x0 c d
  let d ← setAllBits nitioGiCommandReg giSynchronizeGateBit c d
  let d ← setAllBits nitioGiModeReg 0 c d
  let d ← storeReg nitioGiLoadAReg 0x0 c d
  let d ← storeReg nitioGiLoadBReg 0x0 c d
  let d ← setAllBits nitioGiInputSelectReg 0 c d
  let d ← initCountingMode c d
  let d ← initSecondGate c d
  let d ← setAllBits nitioGiDmaConfigReg 0x0 c d
  setAllBits nitioGiInterruptEnableReg 0x0 c d

def comediCounterArmed : U32 := 0x1
def comediCounterCounting : U32 := 0x2

def counterStatusMask : U32 := comediCounterArmed ||| comediCounterCounting

/-- `bits` is what the read of the status register gives. -/
def niTioCounterStatus (d : NiGpctDevice) (c : Nat) (bits : U32) : Result U32 := do
  let i := (d.counters c).counterIndex
  let _ ← nitioGxxStatusReg i
  if bits &&& giArmedBit i ≠ 0 then
    if bits &&& giCountingBit i ≠ 0 then
      return comediCounterArmed ||| comediCounterCounting
    else return comediCounterArmed
  else return 0

/-- The first number from `i` on whose code is the one that is looked for, of `n` numbers. -/
def searchFrom (code : Nat → Result U32) (x : U32) : Nat → Nat → Result (Option Nat)
  | 0, _ => .ok none
  | n + 1, i => do
    if x = (← code i) then return some i else searchFrom code x n (i + 1)

/-- `for (i = 0; i <= max; ++i)`, up to where `x` is the code of `i`. -/
def search (max : Nat) (code : Nat → Result U32) (x : U32) : Result (Option Nat) :=
  searchFrom code x (max + 1) 0

def niGpctClockSrcSelectMask : U32 := 0x3f
def niGpctTimebase1ClockSrcBits : U32 := 0x0
def niGpctTimebase2ClockSrcBits : U32 := 0x1
def niGpctTimebase3ClockSrcBits : U32 := 0x2
def niGpctLogicLowClockSrcBits : U32 := 0x3
def niGpctNextGateClockSrcBits : U32 := 0x4
def niGpctNextTcClockSrcBits : U32 := 0x5
def niGpctSourcePinIClockSrcBits : U32 := 0x6
def niGpctPxi10ClockSrcBits : U32 := 0x7
def niGpctPxiStarTriggerClockSrcBits : U32 := 0x8
def niGpctAnalogTriggerOutClockSrcBits : U32 := 0x9
def niGpctPrescaleModeClockSrcMask : U32 := 0x30000000
def niGpctNoPrescaleClockSrcBits : U32 := 0x0
def niGpctPrescaleX2ClockSrcBits : U32 := 0x10000000
def niGpctPrescaleX8ClockSrcBits : U32 := 0x20000000
def niGpctInvertClockSrcBit : U32 := 0x80000000
def niGpctSourcePinClockSrcBits (n : Nat) : U32 := 0x10 + .ofNat 32 n
def niGpctRtsiClockSrcBits (n : Nat) : U32 := 0x18 + .ofNat 32 n
def niGpctPfiClockSrcBits (n : Nat) : U32 := 0x20 + .ofNat 32 n

/-- `base + n`, for the numbers up to `max`. -/
def numbered (max base n : Nat) : Result U32 :=
  if max < n then .error .bug else .ok (.ofNat 32 (base + n))

def ni660xMaxRtsiChannel : Nat := 6
def ni660xMaxSourcePin : Nat := 7
def ni660xRtsiClock := numbered ni660xMaxRtsiChannel 0xb
def ni660xSourcePinClock := numbered ni660xMaxSourcePin 0x2

def niMSeriesMaxPfiChannel : Nat := 15
def niMSeriesMaxRtsiChannel : Nat := 7

def niMSeriesPfiClock (n : Nat) : Result U32 :=
  if niMSeriesMaxPfiChannel < n then .error .bug
  else .ok (.ofNat 32 (if n < 10 then 1 + n else 0xb + n))

def niMSeriesRtsiClock (n : Nat) : Result U32 :=
  if niMSeriesMaxRtsiChannel < n then .error .bug
  else .ok (.ofNat 32 (if n = 7 then 0x1b else 0xb + n))

/-- The hardware code of a clock source of the user. -/
def ni660xClock (clockSelectBits : U32) : Result U32 :=
  if clockSelectBits = niGpctTimebase1ClockSrcBits then .ok 0x0
  else if clockSelectBits = niGpctTimebase2ClockSrcBits then .ok 0x12
  else if clockSelectBits = niGpctTimebase3ClockSrcBits then .ok 0x1e
  else if clockSelectBits = niGpctLogicLowClockSrcBits then .ok 0x1f
  else if clockSelectBits = niGpctSourcePinIClockSrcBits then .ok 0x1
  else if clockSelectBits = niGpctNextGateClockSrcBits then .ok 0xa
  else if clockSelectBits = niGpctNextTcClockSrcBits then .ok 0x13
  else do
    match ← search ni660xMaxRtsiChannel (fun i => .ok (niGpctRtsiClockSrcBits i))
      clockSelectBits with
    | some i => ni660xRtsiClock i
    | none =>
      match ← search ni660xMaxSourcePin (fun i => .ok (niGpctSourcePinClockSrcBits i))
        clockSelectBits with
      | some i => ni660xSourcePinClock i
      | none => .error .bug

def ni660xSourceSelectBits (clockSource : U32) : Result U32 :=
  giSourceSelectBits <$> ni660xClock (clockSource &&& niGpctClockSrcSelectMask)

def niMSeriesClock (clockSelectBits : U32) : Result U32 :=
  if clockSelectBits = niGpctTimebase1ClockSrcBits then .ok 0x0
  else if clockSelectBits = niGpctTimebase2ClockSrcBits then .ok 0x12
  else if clockSelectBits = niGpctTimebase3ClockSrcBits then .ok 0x1e
  else if clockSelectBits = niGpctLogicLowClockSrcBits then .ok 0x1f
  else if clockSelectBits = niGpctNextGateClockSrcBits then .ok 0x14
  else if clockSelectBits = niGpctNextTcClockSrcBits then .ok 0x13
  else if clockSelectBits = niGpctPxi10ClockSrcBits then .ok 0x1d
  else if clockSelectBits = niGpctPxiStarTriggerClockSrcBits then .ok 0x14
  else if clockSelectBits = niGpctAnalogTriggerOutClockSrcBits then .ok 0x1e
  else do
    match ← search niMSeriesMaxRtsiChannel (fun i => .ok (niGpctRtsiClockSrcBits i))
      clockSelectBits with
    | some i => niMSeriesRtsiClock i
    | none =>
      match ← search niMSeriesMaxPfiChannel (fun i => .ok (niGpctPfiClockSrcBits i))
        clockSelectBits with
      | some i => niMSeriesPfiClock i
      | none => .error .bug

def niMSeriesSourceSelectBits (clockSource : U32) : Result U32 :=
  giSourceSelectBits <$> niMSeriesClock (clockSource &&& niGpctClockSrcSelectMask)

def niTioSourceSelectBits (variant : NiGpctVariant) (clockSource : U32) : Result U32 :=
  match variant with
  | .ni660x => ni660xSourceSelectBits clockSource
  | .eSeries | .mSeries => niMSeriesSourceSelectBits clockSource

def niTioSetSourceSubselect (d : NiGpctDevice) (c : Nat) (clockSource : U32) :
    Result NiGpctDevice := do
  let reg ← nitioGiSecondGateReg (d.counters c).counterIndex
  let select := clockSource &&& niGpctClockSrcSelectMask
  if d.variant ≠ .mSeries then return d
  else if select = niGpctNextGateClockSrcBits ∨ select = niGpctTimebase3ClockSrcBits then
    return setRegister d c reg (d.regs reg &&& ~~~giSourceSubselectBit)
  else if select = niGpctAnalogTriggerOutClockSrcBits ∨
      select = niGpctPxiStarTriggerClockSrcBits then
    return setRegister d c reg (d.regs reg ||| giSourceSubselectBit)
  else return d

def niTioClockSrcModifiers (d : NiGpctDevice) (c : Nat) : Result U32 := do
  let i := (d.counters c).counterIndex
  let countingModeBits := d.regs (← nitioGiCountingModeReg i)
  let inputSelectBits := d.regs (← nitioGiInputSelectReg i)
  let bits : U32 :=
    if inputSelectBits &&& giSourcePolarityBit ≠ 0 then niGpctInvertClockSrcBit else 0
  let bits :=
    if countingModeBits &&& giPrescaleX2Bit d.variant ≠ 0
    then bits ||| niGpctPrescaleX2ClockSrcBits else bits
  return if countingModeBits &&& giPrescaleX8Bit d.variant ≠ 0
    then bits ||| niGpctPrescaleX8ClockSrcBits else bits

/-- The clock source of the user that a hardware code stands for. -/
def niMSeriesClockSource (inputSelect : U32) (subselect : Bool) : Result U32 :=
  if inputSelect = 0x0 then .ok niGpctTimebase1ClockSrcBits
  else if inputSelect = 0x12 then .ok niGpctTimebase2ClockSrcBits
  else if inputSelect = 0x1e then
    .ok (if subselect then niGpctAnalogTriggerOutClockSrcBits else niGpctTimebase3ClockSrcBits)
  else if inputSelect = 0x1f then .ok niGpctLogicLowClockSrcBits
  else if inputSelect = 0x14 then
    .ok (if subselect then niGpctPxiStarTriggerClockSrcBits else niGpctNextGateClockSrcBits)
  else if inputSelect = 0x1d then .ok niGpctPxi10ClockSrcBits
  else if inputSelect = 0x13 then .ok niGpctNextTcClockSrcBits
  else do
    match ← search niMSeriesMaxRtsiChannel niMSeriesRtsiClock inputSelect with
    | some i => return niGpctRtsiClockSrcBits i
    | none =>
      match ← search niMSeriesMaxPfiChannel niMSeriesPfiClock inputSelect with
      | some i => return niGpctPfiClockSrcBits i
      | none => .error .bug

def niMSeriesClockSrcSelect (d : NiGpctDevice) (c : Nat) : Result U32 := do
  let i := (d.counters c).counterIndex
  let secondGateReg ← nitioGiSecondGateReg i
  let inputSelect :=
    (d.regs (← nitioGiInputSelectReg i) &&& giSourceSelectMask) >>> giSourceSelectShift
  let clockSource ← niMSeriesClockSource inputSelect
    (d.regs secondGateReg &&& giSourceSubselectBit != 0)
  return clockSource ||| (← niTioClockSrcModifiers d c)

def ni660xClockSource (inputSelect : U32) : Result U32 :=
  if inputSelect = 0x0 then .ok niGpctTimebase1ClockSrcBits
  else if inputSelect = 0x12 then .ok niGpctTimebase2ClockSrcBits
  else if inputSelect = 0x1e then .ok niGpctTimebase3ClockSrcBits
  else if inputSelect = 0x1f then .ok niGpctLogicLowClockSrcBits
  else if inputSelect = 0x1 then .ok niGpctSourcePinIClockSrcBits
  else if inputSelect = 0xa then .ok niGpctNextGateClockSrcBits
  else if inputSelect = 0x13 then .ok niGpctNextTcClockSrcBits
  else do
    match ← search ni660xMaxRtsiChannel ni660xRtsiClock inputSelect with
    | some i => return niGpctRtsiClockSrcBits i
    | none =>
      match ← search ni660xMaxSourcePin ni660xSourcePinClock inputSelect with
      | some i => return niGpctSourcePinClockSrcBits i
      | none => .error .bug

def ni660xClockSrcSelect (d : NiGpctDevice) (c : Nat) : Result U32 := do
  let i := (d.counters c).counterIndex
  let inputSelect :=
    (d.regs (← nitioGiInputSelectReg i) &&& giSourceSelectMask) >>> giSourceSelectShift
  let clockSource ← ni660xClockSource inputSelect
  return clockSource ||| (← niTioClockSrcModifiers d c)

def niTioGenericClockSrcSelect (d : NiGpctDevice) (c : Nat) : Result U32 :=
  match d.variant with
  | .eSeries | .mSeries => niMSeriesClockSrcSelect d c
  | .ni660x => ni660xClockSrcSelect d c

/-- The period of the sources whose period is known. -/
def timebasePeriodPs (select : U32) : Option (BitVec 64) :=
  if select = niGpctTimebase1ClockSrcBits then some 50000
  else if select = niGpctTimebase2ClockSrcBits then some 10000000
  else if select = niGpctTimebase3ClockSrcBits then some 12500
  else if select = niGpctPxi10ClockSrcBits then some 100000
  else none

def prescaleFactor (mode : U32) : Result (BitVec 64) :=
  if mode = niGpctNoPrescaleClockSrcBits then .ok 1
  else if mode = niGpctPrescaleX2ClockSrcBits then .ok 2
  else if mode = niGpctPrescaleX8ClockSrcBits then .ok 8
  else .error .bug

def niTioClockPeriodPs (d : NiGpctDevice) (c : Nat) (genericClockSource : U32) :
    Result (BitVec 64) :=
  match timebasePeriodPs (genericClockSource &&& niGpctClockSrcSelectMask) with
  | none => .ok (d.counters c).clockPeriodPs
  | some period => do
    let factor ← prescaleFactor (genericClockSource &&& niGpctPrescaleModeClockSrcMask)
    return period * factor

def niTioGetClockSrc (d : NiGpctDevice) (c : Nat) : Result (U32 × U32) := do
  let clockSource ← niTioGenericClockSrcSelect d c
  let temp64 ← niTioClockPeriodPs d c clockSource
  return (clockSource, (temp64 / 1000).setWidth 32)

end Comedi.NiTio
