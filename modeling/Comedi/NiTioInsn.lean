import Comedi.NiTio

namespace Comedi.NiTioInsn

open Instructions ChanlistCheck NiTio
open Function (update)

def niTioSetSyncMode (d : NiGpctDevice) (c : Nat) (forceAltSync : Bool) : Result NiGpctDevice := do
  let reg ← nitioGiCountingModeReg (d.counters c).counterIndex
  let clockPeriodPs ← niTioClockPeriodPs d c (← niTioGenericClockSrcSelect d c)
  if niTioCountingModeRegistersPresent d.variant = false then return d
  else
    let countingMode := d.regs reg &&& giCountingModeMask
    let forceAltSync := forceAltSync ||
      countingMode ∈ [giCountingModeQuadratureX1Bits, giCountingModeQuadratureX2Bits,
        giCountingModeQuadratureX4Bits, giCountingModeSyncSourceBits]
    let bit := giAlternateSyncBit d.variant
    if forceAltSync ∨ (clockPeriodPs ≠ 0 ∧ clockPeriodPs < 25000) then
      return niTioSetBits d c reg bit bit
    else return niTioSetBits d c reg bit 0x0

def niGpctCountingModeShift : Nat := 16
def niGpctIndexPhaseBitshift : Nat := 20
def niGpctCountingDirectionShift : Nat := 24
def niGpctGateOnBothEdgesBit : U32 := 0x4
def niGpctEdgeGateModeMask : U32 := 0x18
def niGpctStopModeMask : U32 := 0x60
def niGpctLoadBSelectBit : U32 := 0x80
def niGpctOutputModeMask : U32 := 0x300
def niGpctHardwareDisarmMask : U32 := 0xc00
def niGpctLoadingOnTcBit : U32 := 0x1000
def niGpctLoadingOnGateBit : U32 := 0x4000
def niGpctIndexEnableBit : U32 := 0x400000
def niGpctReloadSourceMask : U32 := 0xc000000
def niGpctReloadSourceSwitchingBits : U32 := 0x4000000
def niGpctReloadSourceGateSelectBits : U32 := 0x8000000
def niGpctOrGateBit : U32 := 0x10000000
def niGpctInvertOutputBit : U32 := 0x20000000

/-- The bits of a mode that are bits of the mode register. -/
def modeRegDirectMask : U32 :=
  niGpctGateOnBothEdgesBit ||| niGpctEdgeGateModeMask ||| niGpctStopModeMask |||
    niGpctOutputModeMask ||| niGpctHardwareDisarmMask ||| niGpctLoadingOnTcBit |||
    niGpctLoadingOnGateBit ||| niGpctLoadBSelectBit

def modeRegMask (mode : U32) : U32 :=
  let mask := modeRegDirectMask ||| giReloadSourceSwitchingBit
  if mode &&& niGpctReloadSourceMask = niGpctReloadSourceGateSelectBits
  then mask ||| giGatingModeMask else mask

def modeRegValues (mode : U32) : U32 :=
  let values := mode &&& modeRegDirectMask
  if mode &&& niGpctReloadSourceMask = niGpctReloadSourceSwitchingBits
  then values ||| giReloadSourceSwitchingBit
  else if mode &&& niGpctReloadSourceMask = niGpctReloadSourceGateSelectBits
  then values ||| giLevelGatingBits
  else values

def countingModeBits (mode : U32) : U32 :=
  let bits := (mode >>> niGpctCountingModeShift) &&& giCountingModeMask
  let bits := bits |||
    (((mode >>> niGpctIndexPhaseBitshift) <<< giIndexPhaseBitshift) &&& giIndexPhaseMask)
  if mode &&& niGpctIndexEnableBit ≠ 0 then bits ||| giIndexModeBit else bits

def modeInputSelectBits (mode : U32) : U32 :=
  let bits : U32 :=
    if mode &&& niGpctReloadSourceMask = niGpctReloadSourceGateSelectBits
    then giGateSelectLoadSourceBit else 0
  let bits := if mode &&& niGpctOrGateBit ≠ 0 then bits ||| giOrGateBit else bits
  if mode &&& niGpctInvertOutputBit ≠ 0 then bits ||| giOutputPolarityBit else bits

/-- The part of `ni_tio_set_counter_mode` for the register that not every variant has. -/
def setCountingMode (d : NiGpctDevice) (c : Nat) (mode : U32) : Result NiGpctDevice := do
  if niTioCountingModeRegistersPresent d.variant then
    let reg ← nitioGiCountingModeReg (d.counters c).counterIndex
    niTioSetSyncMode
      (niTioSetBits d c reg (giCountingModeMask ||| giIndexPhaseMask ||| giIndexModeBit)
        (countingModeBits mode)) c false
  else return d

def niTioSetCounterMode (d : NiGpctDevice) (c : Nat) (mode : U32) :
    Result (Int × NiGpctDevice) := do
  let i := (d.counters c).counterIndex
  let modeReg ← nitioGiModeReg i
  let d ← setCountingMode (niTioSetBits d c modeReg (modeRegMask mode) (modeRegValues mode)) c mode
  let commandReg ← nitioGiCommandReg i
  let d := niTioSetBits d c commandReg giUpDownMask
    ((mode >>> niGpctCountingDirectionShift) <<< giUpDownShift)
  let inputSelectReg ← nitioGiInputSelectReg i
  return (0, niTioSetBits d c inputSelectReg
    (giGateSelectLoadSourceBit ||| giOrGateBit ||| giOutputPolarityBit) (modeInputSelectBits mode))

def niGpctArmImmediate : U32 := 0x0
def niGpctArmPairedImmediate : U32 := 0x1
def niGpctHwArm : U32 := 0x1000

def hwArmSelectBits (startTrigger : U32) : U32 :=
  (startTrigger ^^^ niGpctHwArm) <<< giHwArmSelectShift

/-- The counting mode bits of a start trigger, unless it has bits that the variant does not
select by. -/
def armCountingModeBits (variant : NiGpctVariant) (startTrigger : U32) : Option U32 :=
  if startTrigger &&& niGpctHwArm = 0 then some 0
  else if hwArmSelectBits startTrigger &&& ~~~giHwArmSelectMask variant ≠ 0 then none
  else some (giHwArmEnableBit ||| hwArmSelectBits startTrigger)

/-- The end of `ni_tio_arm`. -/
def armCommand (d : NiGpctDevice) (c : Nat) (transientBits : U32) :
    Result (Int × NiGpctDevice) := do
  let reg ← nitioGiCommandReg (d.counters c).counterIndex
  return (0, niTioSetBitsTransient d c reg 0 0 transientBits)

def niTioArm (d : NiGpctDevice) (c : Nat) (arm : Bool) (startTrigger : U32) :
    Result (Int × NiGpctDevice) := do
  if arm then
    let transientBits :=
      if startTrigger = niGpctArmPairedImmediate then giArmBit ||| giArmCopyBit else giArmBit
    if niTioCountingModeRegistersPresent d.variant then
      match armCountingModeBits d.variant startTrigger with
      | none => return (-einval, d)
      | some bits =>
        let reg ← nitioGiCountingModeReg (d.counters c).counterIndex
        armCommand (niTioSetBits d c reg (giHwArmSelectMask d.variant ||| giHwArmEnableBit) bits)
          c transientBits
    else armCommand d c transientBits
  else armCommand d c giDisarmBit

/-- The prescaler bits of a clock source, where its prescale mode is valid. -/
def prescaleBits (variant : NiGpctVariant) (clockSource : U32) : Option U32 :=
  let mode := clockSource &&& niGpctPrescaleModeClockSrcMask
  if mode = niGpctNoPrescaleClockSrcBits then some 0
  else if mode = niGpctPrescaleX2ClockSrcBits then some (giPrescaleX2Bit variant)
  else if mode = niGpctPrescaleX8ClockSrcBits then some (giPrescaleX8Bit variant)
  else none

def clockInputSelectBits (sourceSelectBits clockSource : U32) : U32 :=
  if clockSource &&& niGpctInvertClockSrcBit ≠ 0
  then sourceSelectBits ||| giSourcePolarityBit else sourceSelectBits

/-- `counter->clock_period_ps = period`. -/
def setClockPeriodPs (d : NiGpctDevice) (c : Nat) (period : BitVec 64) : NiGpctDevice :=
  { d with counters := update d.counters c { d.counters c with clockPeriodPs := period } }

/-- The end of `ni_tio_set_clock_src`. -/
def finishClockSrc (d : NiGpctDevice) (c : Nat) (periodNs : U32) :
    Result (Int × NiGpctDevice) := do
  let d ← niTioSetSyncMode (setClockPeriodPs d c (1000 * periodNs.setWidth 64)) c false
  return (0, d)

def niTioSetClockSrc (d : NiGpctDevice) (c : Nat) (clockSource periodNs : U32) :
    Result (Int × NiGpctDevice) := do
  let i := (d.counters c).counterIndex
  let sourceSelectBits ← niTioSourceSelectBits d.variant clockSource
  let d := niTioSetBits d c (← nitioGiInputSelectReg i)
    (giSourceSelectMask ||| giSourcePolarityBit) (clockInputSelectBits sourceSelectBits clockSource)
  let d ← niTioSetSourceSubselect d c clockSource
  if niTioCountingModeRegistersPresent d.variant then
    match prescaleBits d.variant clockSource with
    | none => return (-einval, d)
    | some bits =>
      let reg ← nitioGiCountingModeReg i
      finishClockSrc (niTioSetBits d c reg
        (giPrescaleX2Bit d.variant ||| giPrescaleX8Bit d.variant) bits) c periodNs
  else finishClockSrc d c periodNs

def crEdge : U32 := 1 <<< 30
def crInvert : U32 := 1 <<< 31

def niGpctTimestampMuxGateSelect : U32 := 0x0
def niGpctAiStart2GateSelect : U32 := 0x12
def niGpctPxiStarTriggerGateSelect : U32 := 0x13
def niGpctNextOutGateSelect : U32 := 0x14
def niGpctAiStart1GateSelect : U32 := 0x1c
def niGpctNextSourceGateSelect : U32 := 0x1d
def niGpctAnalogTriggerOutGateSelect : U32 := 0x1e
def niGpctLogicLowGateSelect : U32 := 0x1f
def niGpctSourcePinIGateSelect : U32 := 0x100
def niGpctGatePinIGateSelect : U32 := 0x101
def niGpctUpDownPinIGateSelect : U32 := 0x201
def niGpctSelectedGateGateSelect : U32 := 0x21e
def niGpctDisabledGateSelect : U32 := 0x8000
def niGpctGatePinGateSelect (n : Nat) : U32 := 0x102 + .ofNat 32 n
def niGpctUpDownPinGateSelect (n : Nat) : U32 := 0x202 + .ofNat 32 n
def niUsualRtsiSelect (n : Nat) : U32 := .ofNat 32 (if n < 7 then 0xb + n else 0x1b)
def niUsualPfiSelect (n : Nat) : U32 := .ofNat 32 (if n < 10 then 0x1 + n else 0xb + n)
def niGpctRtsiGateSelect := niUsualRtsiSelect
def niGpctPfiGateSelect := niUsualPfiSelect

def niTioSetFirstGateModifiers (d : NiGpctDevice) (c : Nat) (gateSource : U32) :
    Result NiGpctDevice := do
  let polarity : U32 := if gateSource &&& crInvert ≠ 0 then giGatePolarityBit else 0
  let gating := if gateSource &&& crEdge ≠ 0 then giRisingEdgeGatingBits else giLevelGatingBits
  let reg ← nitioGiModeReg (d.counters c).counterIndex
  return niTioSetBits d c reg (giGatePolarityBit ||| giGatingModeMask) (polarity ||| gating)

def selectedGateMask : U32 := 0x1f

def ni660xMaxGatePin : Nat := 7
def ni660xMaxUpDownPin : Nat := 7

/-- The low bits of a gate of the user, if it is one of `listed`, or if its code is that of a
channel or of a pin. -/
def gateBits (listed : List U32) (maxChannel : Nat) (channel : Nat → U32) (maxPin : Nat)
    (pin : Nat → U32) (selectedGate : U32) : Result (Option U32) := do
  if selectedGate ∈ listed then return some (selectedGate &&& selectedGateMask)
  else
    match ← search maxChannel (fun i => .ok (channel i)) selectedGate with
    | some _ => return some (selectedGate &&& selectedGateMask)
    | none =>
      match ← search maxPin (fun i => .ok (pin i)) selectedGate with
      | some _ => return some (selectedGate &&& selectedGateMask)
      | none => return none

def ni660xGateSelect (selectedGate : U32) : Result (Option U32) :=
  if selectedGate = niGpctNextSourceGateSelect then .ok (some 0xa)
  else
    gateBits [niGpctNextOutGateSelect, niGpctLogicLowGateSelect, niGpctSourcePinIGateSelect,
        niGpctGatePinIGateSelect]
      ni660xMaxRtsiChannel niGpctRtsiGateSelect ni660xMaxGatePin niGpctGatePinGateSelect
      selectedGate

def niMSeriesGateSelect (selectedGate : U32) : Result (Option U32) :=
  gateBits [niGpctTimestampMuxGateSelect, niGpctAiStart2GateSelect,
      niGpctPxiStarTriggerGateSelect, niGpctNextOutGateSelect, niGpctAiStart1GateSelect,
      niGpctNextSourceGateSelect, niGpctAnalogTriggerOutGateSelect, niGpctLogicLowGateSelect]
    niMSeriesMaxRtsiChannel niGpctRtsiGateSelect niMSeriesMaxPfiChannel niGpctPfiGateSelect
    selectedGate

def ni660xSecondGateSelect (selectedSecondGate : U32) : Result (Option U32) :=
  if selectedSecondGate = niGpctNextSourceGateSelect then .ok (some 0xa)
  else
    gateBits [niGpctSourcePinIGateSelect, niGpctUpDownPinIGateSelect,
        niGpctSelectedGateGateSelect, niGpctNextOutGateSelect, niGpctLogicLowGateSelect]
      ni660xMaxRtsiChannel niGpctRtsiGateSelect ni660xMaxUpDownPin niGpctUpDownPinGateSelect
      selectedSecondGate

/-- The end of the functions that set the first gate. -/
def setFirstGate (d : NiGpctDevice) (c : Nat) (gateSelect : Option U32) :
    Result (Int × NiGpctDevice) := do
  match gateSelect with
  | none => return (-einval, d)
  | some select =>
    let reg ← nitioGiInputSelectReg (d.counters c).counterIndex
    return (0, niTioSetBits d c reg giGateSelectMask (giGateSelectBits select))

def ni660xSetFirstGate (d : NiGpctDevice) (c : Nat) (gateSource : U32) :
    Result (Int × NiGpctDevice) := do
  setFirstGate d c (← ni660xGateSelect (crChan gateSource))

def niMSeriesSetFirstGate (d : NiGpctDevice) (c : Nat) (gateSource : U32) :
    Result (Int × NiGpctDevice) := do
  setFirstGate d c (← niMSeriesGateSelect (crChan gateSource))

/-- The end of the functions that set the second gate. -/
def setSecondGate (d : NiGpctDevice) (c : Nat) (secondGateSelect : Option U32) :
    Result (Int × NiGpctDevice) := do
  let reg ← nitioGiSecondGateReg (d.counters c).counterIndex
  match secondGateSelect with
  | none => return (-einval, d)
  | some select =>
    return (0, setRegister d c reg (((d.regs reg ||| giSecondGateModeBit) &&&
      ~~~giSecondGateSelectMask) ||| giSecondGateSelectBits select))

def ni660xSetSecondGate (d : NiGpctDevice) (c : Nat) (gateSource : U32) :
    Result (Int × NiGpctDevice) := do
  setSecondGate d c (← ni660xSecondGateSelect (crChan gateSource))

def niMSeriesSetSecondGate (d : NiGpctDevice) (c : Nat) (gateSource : U32) :
    Result (Int × NiGpctDevice) :=
  setSecondGate d c (some (crChan gateSource &&& selectedGateMask))

/-- The polarity of the second gate, in the software copy alone. -/
def setSecondGatePolarity (d : NiGpctDevice) (reg : NiGpctRegister) (gateSource : U32) :
    NiGpctDevice :=
  let value :=
    if gateSource &&& crInvert ≠ 0 then d.regs reg ||| giSecondGatePolarityBit
    else d.regs reg &&& ~~~giSecondGatePolarityBit
  { d with regs := update d.regs reg value }

def niTioSetGateSrc (d : NiGpctDevice) (c : Nat) (gateIndex gateSource : U32) :
    Result (Int × NiGpctDevice) := do
  let i := (d.counters c).counterIndex
  let secondGateReg ← nitioGiSecondGateReg i
  if gateIndex = 0 then
    if crChan gateSource = niGpctDisabledGateSelect then
      return (0, niTioSetBits d c (← nitioGiModeReg i) giGatingModeMask giGatingDisabledBits)
    else
      let d ← niTioSetFirstGateModifiers d c gateSource
      match d.variant with
      | .eSeries | .mSeries => niMSeriesSetFirstGate d c gateSource
      | .ni660x => ni660xSetFirstGate d c gateSource
  else if gateIndex = 1 then
    if niTioSecondGateRegistersPresent d.variant = false then return (-einval, d)
    else if crChan gateSource = niGpctDisabledGateSelect then
      return (0, setRegister d c secondGateReg (d.regs secondGateReg &&& ~~~giSecondGateModeBit))
    else
      let d := setSecondGatePolarity d secondGateReg gateSource
      match d.variant with
      | .mSeries => niMSeriesSetSecondGate d c gateSource
      | .ni660x => ni660xSetSecondGate d c gateSource
      | .eSeries => .error .bug
  else return (-einval, d)

/-- Where the source of an encoder input stands in the `ABZ` register. -/
def encoderShift (index : U32) : Option Nat :=
  if index = 0 then some 10
  else if index = 1 then some 5
  else if index = 2 then some 0
  else none

def niTioSetOtherSrc (d : NiGpctDevice) (c : Nat) (index source : U32) :
    Result (Int × NiGpctDevice) := do
  if d.variant = .mSeries then
    let abzReg ← nitioGiAbzReg (d.counters c).counterIndex
    match encoderShift index with
    | none => return (-einval, d)
    | some shift =>
      let mask : U32 := 0x1f <<< shift
      let source : U32 := if 0x1f < source then 0x1f else source
      return (0, setRegister d c abzReg (d.regs abzReg &&& ~~~mask ||| (source <<< shift) &&& mask))
  else return (-einval, d)

def ni660xFirstGateToGenericGateSource (gateSelect : U32) : Result U32 :=
  if gateSelect = 0x0 then .ok niGpctSourcePinIGateSelect
  else if gateSelect = 0x1 then .ok niGpctGatePinIGateSelect
  else if gateSelect = 0xa then .ok niGpctNextSourceGateSelect
  else if gateSelect = 0x14 then .ok niGpctNextOutGateSelect
  else if gateSelect = 0x1f then .ok niGpctLogicLowGateSelect
  else do
    match ← search ni660xMaxRtsiChannel (numbered ni660xMaxRtsiChannel 0xb) gateSelect with
    | some i => return niGpctRtsiGateSelect i
    | none =>
      match ← search ni660xMaxGatePin (numbered ni660xMaxGatePin 0x2) gateSelect with
      | some i => return niGpctGatePinGateSelect i
      | none => .error .bug

/-- The codes of the first gate are those of the clock for channels and pins. -/
def niMSeriesFirstGateToGenericGateSource (gateSelect : U32) : Result U32 :=
  if gateSelect = 0x0 then .ok niGpctTimestampMuxGateSelect
  else if gateSelect = 0x12 then .ok niGpctAiStart2GateSelect
  else if gateSelect = 0x13 then .ok niGpctPxiStarTriggerGateSelect
  else if gateSelect = 0x14 then .ok niGpctNextOutGateSelect
  else if gateSelect = 0x1c then .ok niGpctAiStart1GateSelect
  else if gateSelect = 0x1d then .ok niGpctNextSourceGateSelect
  else if gateSelect = 0x1e then .ok niGpctAnalogTriggerOutGateSelect
  else if gateSelect = 0x1f then .ok niGpctLogicLowGateSelect
  else do
    match ← search niMSeriesMaxRtsiChannel niMSeriesRtsiClock gateSelect with
    | some i => return niGpctRtsiGateSelect i
    | none =>
      match ← search niMSeriesMaxPfiChannel niMSeriesPfiClock gateSelect with
      | some i => return niGpctPfiGateSelect i
      | none => .error .bug

def ni660xSecondGateToGenericGateSource (gateSelect : U32) : Result U32 :=
  if gateSelect = 0x0 then .ok niGpctSourcePinIGateSelect
  else if gateSelect = 0x1 then .ok niGpctUpDownPinIGateSelect
  else if gateSelect = 0xa then .ok niGpctNextSourceGateSelect
  else if gateSelect = 0x14 then .ok niGpctNextOutGateSelect
  else if gateSelect = 0x1e then .ok niGpctSelectedGateGateSelect
  else if gateSelect = 0x1f then .ok niGpctLogicLowGateSelect
  else do
    match ← search ni660xMaxRtsiChannel (numbered ni660xMaxRtsiChannel 0xb) gateSelect with
    | some i => return niGpctRtsiGateSelect i
    | none =>
      match ← search ni660xMaxUpDownPin (numbered ni660xMaxUpDownPin 0x2) gateSelect with
      | some i => return niGpctUpDownPinGateSelect i
      | none => .error .bug

def niMSeriesSecondGateToGenericGateSource (gateSelect : U32) : Result U32 := .ok gateSelect

def firstGateToGenericGateSource : NiGpctVariant → U32 → Result U32
  | .eSeries | .mSeries => niMSeriesFirstGateToGenericGateSource
  | .ni660x => ni660xFirstGateToGenericGateSource

def secondGateToGenericGateSource : NiGpctVariant → U32 → Result U32
  | .eSeries | .mSeries => niMSeriesSecondGateToGenericGateSource
  | .ni660x => ni660xSecondGateToGenericGateSource

/-- `CR_INVERT` and `CR_EDGE`, by the polarity of a gate and the gating mode. -/
def gateFlags (inverted : Bool) (modeBits : U32) : U32 :=
  let flags : U32 := if inverted then crInvert else 0
  if modeBits &&& giGatingModeMask ≠ giLevelGatingBits then flags ||| crEdge else flags

/-- The answer is `none` where the function leaves `*gate_source` alone. -/
def niTioGetGateSrc (d : NiGpctDevice) (c : Nat) (gateIndex : U32) :
    Result (Int × Option U32) := do
  let i := (d.counters c).counterIndex
  let modeBits := d.regs (← nitioGiModeReg i)
  let secondGateReg ← nitioGiSecondGateReg i
  let disabled := modeBits &&& giGatingModeMask = giGatingDisabledBits
  if gateIndex = 0 then
    if disabled then return (0, some niGpctDisabledGateSelect)
    else
      let inputSelect := d.regs (← nitioGiInputSelectReg i)
      let source ← firstGateToGenericGateSource d.variant
        ((inputSelect &&& giGateSelectMask) >>> giGateSelectShift)
      return (0, some (source ||| gateFlags (modeBits &&& giGatePolarityBit != 0) modeBits))
  else if gateIndex = 1 then
    let secondGate := d.regs secondGateReg
    if disabled ∨ secondGate &&& giSecondGateModeBit = 0 then
      return (0, some niGpctDisabledGateSelect)
    else
      let source ← secondGateToGenericGateSource d.variant
        ((secondGate &&& giSecondGateSelectMask) >>> giSecondGateSelectShift)
      return (0, some (source ||| gateFlags (secondGate &&& giSecondGatePolarityBit != 0) modeBits))
  else return (-einval, none)

/-- `reads` are the values that the register reads of a call give, in their order. -/
def niTioInsnConfig (d : NiGpctDevice) (c : Nat) (data reads : Nat → U32) :
    Result (Int × (Nat → U32) × NiGpctDevice) := do
  if data 0 = insnConfigSetCounterMode then
    let (ret, d) ← niTioSetCounterMode d c (data 1)
    return (ret, data, d)
  else if data 0 = insnConfigArm then
    let (ret, d) ← niTioArm d c true (data 1)
    return (ret, data, d)
  else if data 0 = insnConfigDisarm then
    let (_, d) ← niTioArm d c false 0
    return (0, data, d)
  else if data 0 = insnConfigGetCounterStatus then
    let status ← niTioCounterStatus d c (reads 0)
    return (0, update (update data 1 status) 2 counterStatusMask, d)
  else if data 0 = insnConfigSetClockSrc then
    let (ret, d) ← niTioSetClockSrc d c (data 1) (data 2)
    return (ret, data, d)
  else if data 0 = insnConfigGetClockSrc then
    let (source, period) ← niTioGetClockSrc d c
    return (0, update (update data 1 source) 2 period, d)
  else if data 0 = insnConfigSetGateSrc then
    let (ret, d) ← niTioSetGateSrc d c (data 1) (data 2)
    return (ret, data, d)
  else if data 0 = insnConfigGetGateSrc then
    let (ret, source) ← niTioGetGateSrc d c (data 1)
    return (ret, update data 2 (source.getD (data 2)), d)
  else if data 0 = insnConfigSetOtherSrc then
    let (ret, d) ← niTioSetOtherSrc d c (data 1) (data 2)
    return (ret, data, d)
  else if data 0 = insnConfigReset then
    let d ← niTioResetCountAndDisarm d c
    return (0, data, d)
  else return (-einval, data, d)

/-- The first word read, unless the channel has none. -/
def niTioRinsn (d : NiGpctDevice) (c : Nat) (insn : Insn) (reads : Nat → U32) :
    Result (Int × Option U32 × NiGpctDevice) := do
  let i := (d.counters c).counterIndex
  let channel := crChan insn.chanspec
  if insn.n < 1 then return (0, none, d)
  else if channel = 0 then
    let reg ← nitioGiCommandReg i
    let d := niTioSetBits d c reg giSaveTraceBit 0
    let d := niTioSetBits d c reg giSaveTraceBit giSaveTraceBit
    let _ ← nitioGiSwSaveReg i
    return (0, some (if reads 0 ≠ reads 1 then reads 2 else reads 0), d)
  else if channel = 1 then return (0, some (d.regs (← nitioGiLoadAReg i)), d)
  else if channel = 2 then return (0, some (d.regs (← nitioGiLoadBReg i)), d)
  else return (0, none, d)

def niTioNextLoadRegister (d : NiGpctDevice) (c : Nat) (bits : U32) : Result NiGpctRegister := do
  let i := (d.counters c).counterIndex
  let _ ← nitioGxxStatusReg i
  if bits &&& giNextLoadSourceBit i ≠ 0 then nitioGiLoadBReg i else nitioGiLoadAReg i

def niTioWinsn (d : NiGpctDevice) (c : Nat) (insn : Insn) (data reads : Nat → U32) :
    Result (Int × NiGpctDevice) := do
  let i := (d.counters c).counterIndex
  let channel := crChan insn.chanspec
  if insn.n < 1 then return (0, d)
  else if channel = 0 then
    let loadReg ← niTioNextLoadRegister d c (reads 0)
    let d := writeRegister d c (data 0) loadReg
    let d := niTioSetBitsTransient d c (← nitioGiCommandReg i) 0 0 giLoadBit
    return (0, writeRegister d c (d.regs loadReg) loadReg)
  else if channel = 1 then return (0, setRegister d c (← nitioGiLoadAReg i) (data 0))
  else if channel = 2 then return (0, setRegister d c (← nitioGiLoadBReg i) (data 0))
  else return (-einval, d)

end Comedi.NiTioInsn
