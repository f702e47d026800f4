import Comedi.CommandStarts
import Comedi.RtTimer

namespace Comedi.Pci230

open AsyncBuffer RunState Requests CommandStarts ChanlistCheck
open RtTimer (trigCount trigFollow trigTimer trigInt)

abbrev U16 := BitVec 16

def adcIrMask : U16 := 1 <<< 3
def adcImMask : U16 := 1 <<< 4
def adcTrigMask : U16 := 7
def adcTrigNone : U16 := 0
def adcTrigExtp : U16 := 2
def adcTrigExtn : U16 := 3
def adcTrigZ2ct2 : U16 := 6
def adcFifoEn : U16 := 1 <<< 8
def adcIntFifoNempty : U16 := 1 <<< 9
def adcIntFifoHalf : U16 := 3 <<< 9
def adcIntFifoFull : U16 := 5 <<< 9
def adcIntFifoThresh : U16 := 7 <<< 9
def adcIntFifoMask : U16 := 7 <<< 9
def adcFifoEmpty : U16 := 1 <<< 12
def adcFifoHalf : U16 := 1 <<< 14
def adcFifoFullLatched : U16 := 1 <<< 5
def adcFifolevelHalffull : U32 := 2049

def dacOrMask : U16 := 1
def dacOrBip : U16 := 1
def dacFifoEn : U16 := 1 <<< 8
def dacTrigMask : U16 := 7 <<< 2
def dacTrigNone : U16 := 0
def dacTrigSw : U16 := 1 <<< 2
def dacTrigExtp : U16 := 2 <<< 2
def dacTrigExtn : U16 := 3 <<< 2
def dacTrigZ2ct1 : U16 := 5 <<< 2
def dacIntFifoEmpty : U16 := 0
def dacIntFifoNhalf : U16 := 2 <<< 9
def dacIntFifoMask : U16 := 7 <<< 9
def dacFifoUnderrunLatched : U16 := 1 <<< 5
def dacFifoEmpty : U16 := 1 <<< 13
def dacFifoFull : U16 := 1 <<< 14
def dacFifoHalf : U16 := 1 <<< 15
def dacFiforoomEmpty : U32 := 1024
def dacFiforoomOnetohalf : U32 := 512
def dacFiforoomHalftofull : U32 := 1
def dacFiforoomFull : U32 := 0

def intAdc : Byte := 1 <<< 2
def intDac : Byte := 1 <<< 4
def intZclkCt1 : Byte := 1 <<< 5

def trigExt : U32 := 0x40

def crEdge : U32 := 1 <<< 30
def crInvert : U32 := 1 <<< 31
def arefDiff : U32 := 2

def crAref (a : U32) : U32 := (a >>> 24) &&& 0x3

inductive ResOwner where
  | none
  | aiCmd
  | aoCmd
  deriving DecidableEq, Repr

/-- The counters Z2-CT0, Z2-CT1 and Z2-CT2. -/
abbrev Res := Fin 3

/-- `pci230_private`. The register values are those of the shadows in it and of `DACEN`. -/
structure Private where
  hwver : U16 := 0
  aiCmdStarted : Bool := false
  aoCmdStarted : Bool := false
  aiScanCount : U32 := 0
  aiScanPos : U32 := 0
  aoScanCount : U32 := 0
  aiContinuous : Bool := false
  aoContinuous : Bool := false
  adccon : U16 := 0
  daccon : U16 := 0
  dacen : U16 := 0
  adcfifothresh : U16 := 0
  aiBipolar : Bool := false
  aoBipolar : Bool := false
  intEn : Byte := 0
  resOwner : Res → ResOwner := fun _ => .none

def bit (r : Res) : U32 := .twoPow 32 r

/-- A loop over the resources that does `f` to the owners of those in the mask. -/
def sweep (f : ResOwner → ResOwner) : List Res → U32 → (Res → ResOwner) → Res → ResOwner
  | [], _, owners => owners
  | r :: rs, mask, owners =>
    if mask = 0 then owners
    else if mask &&& bit r ≠ 0 then
      sweep f rs (mask &&& ~~~bit r) (Function.update owners r (f (owners r)))
    else sweep f rs mask owners

def claim (owner : ResOwner) : List Res → U32 → U32 → (Res → ResOwner) → Bool × (Res → ResOwner)
  | [], _, _, owners => (true, owners)
  | r :: rs, mask, claimed, owners =>
    if mask = 0 then (true, owners)
    else if mask &&& bit r ≠ 0 then
      if owners r = .none then
        claim owner rs (mask &&& ~~~bit r) (claimed ||| bit r) (Function.update owners r owner)
      else if owners r ≠ owner then
        (false, sweep (fun _ => .none) (List.finRange 3) claimed owners)
      else claim owner rs (mask &&& ~~~bit r) claimed owners
    else claim owner rs mask claimed owners

def getResources (mask : U32) (owner : ResOwner) (owners : Res → ResOwner) :
    Bool × (Res → ResOwner) :=
  claim owner (List.finRange 3) mask 0 owners

def putResources (mask : U32) (owner : ResOwner) (owners : Res → ResOwner) : Res → ResOwner :=
  sweep (fun o => if o = owner then .none else o) (List.finRange 3) mask owners

def putAllResources (owner : ResOwner) (owners : Res → ResOwner) : Res → ResOwner :=
  putResources 7 owner owners

/-- What the input handler meets: the words it reads from `ADCCON` and `ADCFFLEV` before the
sample of a given index, and whether the buffer takes that sample. -/
structure AiReading where
  status : Nat → U16
  level : Nat → U16
  takes : Nat → Bool

/-- What the output handlers meet: the words read from `DACCON` at the beginning and at the end,
and the bytes that the buffer has. -/
structure AoReading where
  dacstat : U16
  dacstatAfter : U16
  available : U32

def aiStop (p : Private) : Private :=
  if p.aiCmdStarted then
    { p with
      aiCmdStarted := false
      intEn := p.intEn &&& ~~~intAdc
      adccon := p.adccon &&& (adcIrMask ||| adcImMask) ||| adcTrigNone
      resOwner := putAllResources .aiCmd p.resOwner }
  else p

/-- The interrupt that an output command uses. -/
def aoIntsrc (hwver : U16) : Byte := if hwver < 2 then intZclkCt1 else intDac

def aoStop (p : Private) : Private :=
  if p.aoCmdStarted then
    { p with
      aoCmdStarted := false
      intEn := p.intEn &&& ~~~aoIntsrc p.hwver
      daccon := if 2 ≤ p.hwver then p.daccon &&& dacOrMask else p.daccon
      resOwner := putAllResources .aoCmd p.resOwner }
  else p

/-- The number of samples for which `pci230_ai_update_fifo_trigger_level` wants to wait. -/
def aiWake (p : Private) (cmd : Cmd) : U32 :=
  if cmd.flags &&& trigWakeEos ≠ 0 then cmd.scanEndArg - p.aiScanPos
  else if p.aiContinuous ∨ adcFifolevelHalffull ≤ p.aiScanCount ∨
      adcFifolevelHalffull ≤ cmd.scanEndArg then adcFifolevelHalffull
  else p.aiScanCount * cmd.scanEndArg - p.aiScanPos

def aiUpdateFifoTriggerLevel (p : Private) (cmd : Cmd) : Private :=
  let wake := aiWake p cmd
  if adcFifolevelHalffull ≤ wake then
    { p with adccon := p.adccon &&& ~~~adcIntFifoMask ||| adcIntFifoHalf }
  else if 1 < wake ∧ 0 < p.hwver then
    { p with
      adcfifothresh := wake.setWidth 16
      adccon := p.adccon &&& ~~~adcIntFifoMask ||| adcIntFifoThresh }
  else { p with adccon := p.adccon &&& ~~~adcIntFifoMask ||| adcIntFifoNempty }

/-- `todo` in `pci230_handle_ai`. -/
def aiTodo (p : Private) (scanlen : U32) : U32 :=
  if p.aiContinuous then adcFifolevelHalffull
  else if p.aiScanCount = 0 then 0
  else if adcFifolevelHalffull < p.aiScanCount ∨ adcFifolevelHalffull < scanlen then
    adcFifolevelHalffull
  else if adcFifolevelHalffull < p.aiScanCount * scanlen - p.aiScanPos then adcFifolevelHalffull
  else p.aiScanCount * scanlen - p.aiScanPos

/-- How many samples the FIFO is known to hold, or the events with which the loop ends. -/
def fifoAmount (hwver : U16) (r : AiReading) (i : Nat) (amount : U32) : Except U32 U32 :=
  if amount ≠ 0 then .ok amount
  else if r.status i &&& adcFifoFullLatched ≠ 0 then .error (comediCbOverflow ||| comediCbError)
  else if r.status i &&& adcFifoEmpty ≠ 0 then .error 0
  else if r.status i &&& adcFifoHalf ≠ 0 then .ok adcFifolevelHalffull
  else if 0 < hwver then
    if r.level i = 0 then .error 0 else .ok ((r.level i).setWidth 32)
  else .ok 1

/-- The loop of `pci230_handle_ai`; `events` are its own events, `raised` those of the buffer. -/
structure AiLoop where
  scanCount : U32
  scanPos : U32
  amount : U32 := 0
  events : U32 := 0
  raised : U32
  taken : Nat := 0

/-- A sample has gone into the buffer. -/
def AiLoop.stored (l : AiLoop) (scanlen amount : U32) : AiLoop :=
  if l.scanPos + 1 = scanlen then
    { l with
      amount := amount - 1
      scanPos := 0
      scanCount := l.scanCount - 1
      raised := l.raised ||| comediCbEos
      taken := l.taken + 1 }
  else { l with amount := amount - 1, scanPos := l.scanPos + 1, taken := l.taken + 1 }

def aiLoop (hwver : U16) (scanlen : U32) (r : AiReading) : Nat → Nat → AiLoop → AiLoop
  | 0, _, l => l
  | n + 1, i, l =>
    match fifoAmount hwver r i l.amount with
    | .error events => { l with events := l.events ||| events }
    | .ok amount =>
      if r.takes i then aiLoop hwver scanlen r n (i + 1) (l.stored scanlen amount)
      else
        { l with
          events := l.events ||| (comediCbError ||| comediCbOverflow)
          raised := l.raised ||| comediCbError }

structure AiHandled where
  dev : Private
  raised : U32
  taken : Nat

/-- `pci230_handle_ai`, with the events that are pending already. -/
def handleAi (p : Private) (cmd : Cmd) (raised : U32) (r : AiReading) : AiHandled :=
  let todo := aiTodo p cmd.scanEndArg
  if todo = 0 then ⟨p, raised, 0⟩
  else
    let l := aiLoop p.hwver cmd.scanEndArg r todo.toNat 0 ⟨p.aiScanCount, p.aiScanPos, 0, 0, raised, 0⟩
    let p := { p with aiScanCount := l.scanCount, aiScanPos := l.scanPos }
    let events := l.events |||
      if ¬ p.aiContinuous ∧ p.aiScanCount = 0 then comediCbEoa else comediCbBlock
    let raised := l.raised ||| events
    ⟨if raised &&& endMask ≠ 0 then aiStop p else aiUpdateFifoTriggerLevel p cmd, raised, l.taken⟩

/-- The channels of the channel list, which is there for every command that has been set up. -/
def channels (cmd : Cmd) : List U32 :=
  match cmd.chanlist with
  | .kernel entries => (entries.take cmd.chanlistLen.toNat).map crChan
  | _ => []

/-- The channels for which samples were written to the DAC or to its FIFO. -/
structure AoHandled where
  dev : Private
  raised : U32
  written : List U32 := []

def handleAoNofifo (p : Private) (cmd : Cmd) (raised : U32) (r : AoReading) : AoHandled :=
  if ¬ p.aoContinuous ∧ p.aoScanCount = 0 then ⟨p, raised, []⟩
  else
    let given := r.available.toNat / 2
    if given < cmd.chanlistLen.toNat then
      ⟨aoStop p, raised ||| comediCbOverflow, (channels cmd).take given⟩
    else
      let raised := raised ||| (comediCbBlock ||| comediCbEos)
      if p.aoContinuous then ⟨p, raised, channels cmd⟩
      else
        let p := { p with aoScanCount := p.aoScanCount - 1 }
        if p.aoScanCount = 0 then ⟨aoStop p, raised ||| comediCbEoa, channels cmd⟩
        else ⟨p, raised, channels cmd⟩

def aoRoom (dacstat : U16) : U32 :=
  if dacstat &&& dacFifoFull ≠ 0 then dacFiforoomFull
  else if dacstat &&& dacFifoHalf ≠ 0 then dacFiforoomHalftofull
  else if dacstat &&& dacFifoEmpty ≠ 0 then dacFiforoomEmpty
  else dacFiforoomOnetohalf

/-- The scans that the buffer has and the command still wants. The divisor is not 0, since the
channel list of a command has at least one entry and less than 2^31. -/
def aoNumScans (p : Private) (cmd : Cmd) (r : AoReading) : U32 :=
  let n := r.available / (cmd.chanlistLen * 2)
  if ¬ p.aoContinuous ∧ p.aoScanCount < n then p.aoScanCount else n

/-- The events of `pci230_handle_ao_fifo` before it has moved anything. -/
def aoFifoEvents (p : Private) (cmd : Cmd) (r : AoReading) : U32 :=
  if ¬ p.aoContinuous ∧ p.aoScanCount = 0 then comediCbEoa
  else if r.dacstat &&& dacFifoUnderrunLatched ≠ 0 ∨
      aoNumScans p cmd r = 0 ∧ r.dacstat &&& dacFifoHalf = 0 then
    comediCbOverflow ||| comediCbError
  else 0

/-- The scans that are moved. -/
def aoMoved (p : Private) (cmd : Cmd) (r : AoReading) : U32 :=
  let room := aoRoom r.dacstat / cmd.chanlistLen
  if room < aoNumScans p cmd r then room else aoNumScans p cmd r

/-- What is left to do when the scans have been moved: once there are none, the interrupt is to
come when the FIFO is empty. -/
def aoCountDown (p : Private) (moved : U32) : Private :=
  if p.aoContinuous then p
  else if p.aoScanCount - moved = 0 then
    { p with
      aoScanCount := p.aoScanCount - moved
      daccon := p.daccon &&& ~~~dacIntFifoMask ||| dacIntFifoEmpty }
  else { p with aoScanCount := p.aoScanCount - moved }

/-- `pci230_handle_ao_fifo` returns 0 if it has stopped the command. -/
def handleAoFifo (p : Private) (cmd : Cmd) (raised : U32) (r : AoReading) : Bool × AoHandled :=
  let events := aoFifoEvents p cmd r
  if events ≠ 0 then (false, ⟨aoStop p, raised ||| events, []⟩)
  else
    let moved := aoMoved p cmd r
    let written := (List.replicate moved.toNat (channels cmd)).flatten
    let p := aoCountDown p moved
    let events := comediCbEos ||| comediCbBlock
    if r.dacstatAfter &&& dacFifoUnderrunLatched ≠ 0 then
      (false, ⟨aoStop p, raised ||| (events ||| (comediCbOverflow ||| comediCbError)), written⟩)
    else (true, ⟨p, raised ||| events, written⟩)

/-- The functions that the driver puts into `async->inttrig`. -/
def aiInttrigStart : Nat := 1
def aiInttrigConvert : Nat := 2
def aiInttrigScanBegin : Nat := 3
def aoInttrigStart : Nat := 4
def aoInttrigScanBegin : Nat := 5

/-- What a start function leaves behind: `async->inttrig`, which was NULL, and the events for
which it called `comedi_event`. -/
structure Started where
  dev : Private
  inttrig : Option Nat := none
  events : Option U32 := none
  written : List U32 := []

def aiConv (cmd : Cmd) : U16 :=
  if cmd.convertSrc = trigTimer then adcTrigZ2ct2
  else if cmd.convertSrc = trigExt then
    if cmd.convertArg &&& crEdge ≠ 0 then
      if cmd.convertArg &&& crInvert = 0 then adcTrigExtp else adcTrigExtn
    else if cmd.convertArg ≠ 0 then adcTrigExtp else adcTrigExtn
  else if cmd.convertSrc = trigInt then adcTrigZ2ct2
  else adcTrigNone

def aiStart (p : Private) (cmd : Cmd) : Started :=
  let p := { p with aiCmdStarted := true }
  if ¬ p.aiContinuous ∧ p.aiScanCount = 0 then { dev := aiStop p, events := some comediCbEoa }
  else
    let p :=
      { p with
        intEn := p.intEn ||| intAdc
        adccon := p.adccon &&& ~~~adcTrigMask ||| aiConv cmd }
    let p := aiUpdateFifoTriggerLevel p cmd
    if cmd.convertSrc = trigTimer then
      { dev := p
        inttrig := if cmd.scanBeginSrc = trigInt then some aiInttrigScanBegin else none }
    else if cmd.convertSrc = trigInt then { dev := p, inttrig := some aiInttrigConvert }
    else { dev := { p with resOwner := putResources (bit 2) .aiCmd p.resOwner } }

def aoScantrig (cmd : Cmd) : U16 :=
  if cmd.scanBeginSrc = trigTimer then dacTrigZ2ct1
  else if cmd.scanBeginSrc = trigExt then
    if cmd.scanBeginArg &&& crInvert = 0 then dacTrigExtp else dacTrigExtn
  else if cmd.scanBeginSrc = trigInt then dacTrigSw
  else dacTrigNone

/-- The end of `pci230_ao_start` for a command that goes on. -/
def aoEnable (p : Private) (cmd : Cmd) (events : Option U32) (written : List U32) : Started where
  dev :=
    if 2 ≤ p.hwver then { p with intEn := p.intEn ||| intDac }
    else if cmd.scanBeginSrc = trigTimer then { p with intEn := p.intEn ||| intZclkCt1 }
    else p
  inttrig := if cmd.scanBeginSrc = trigInt then some aoInttrigScanBegin else none
  events := events
  written := written

def aoStart (p : Private) (cmd : Cmd) (r : AoReading) : Started :=
  let p := { p with aoCmdStarted := true }
  if ¬ p.aoContinuous ∧ p.aoScanCount = 0 then { dev := aoStop p, events := some comediCbEoa }
  else if 2 ≤ p.hwver then
    let (run, h) := handleAoFifo p cmd 0 r
    if run then
      aoEnable { h.dev with daccon := h.dev.daccon &&& ~~~dacTrigMask ||| aoScantrig cmd } cmd
        (some h.raised) h.written
    else { dev := h.dev, events := some h.raised, written := h.written }
  else aoEnable p cmd none []

/-- The counters that an input command needs. -/
def aiResMask (cmd : Cmd) : U32 :=
  bit 2 |||
    if cmd.scanBeginSrc ≠ trigFollow then
      bit 0 ||| if cmd.scanBeginSrc = trigTimer then bit 1 else 0
    else 0

/-- The first entry of the channel list. -/
def firstEntry (cmd : Cmd) : U32 :=
  match cmd.chanlist with
  | .kernel (x :: _) => x
  | _ => 0

def aiBipolarTable : List Bool := [true, true, true, true, false, false, false]

/-- `async->cmd` as the number of scans and the state of the converter are taken from it. -/
def aiSetUp (p : Private) (cmd : Cmd) : Private :=
  let bip := aiBipolarTable.getD (crRange (firstEntry cmd)).toNat false
  { p with
    aiScanCount := if cmd.stopSrc = trigCount then cmd.stopArg else 0
    aiContinuous := cmd.stopSrc ≠ trigCount
    aiScanPos := 0
    aiBipolar := bip
    adccon := adcFifoEn ||| (if crAref (firstEntry cmd) = arefDiff then adcImMask else 0) |||
      (if bip then adcIrMask else 0) ||| (adcIntFifoFull ||| adcTrigZ2ct2) }

def aiCmd (p : Private) (cmd : Cmd) : Answer × Started :=
  let (ok, owners) := getResources (aiResMask cmd) .aiCmd p.resOwner
  let p := { p with resOwner := owners }
  if ¬ ok then ({ ret := -ebusy }, { dev := p })
  else
    let p := aiSetUp p cmd
    if cmd.startSrc = trigInt then
      ({ inttrig := some aiInttrigStart }, { dev := p, inttrig := some aiInttrigStart })
    else
      let s := aiStart p cmd
      ({ inttrig := s.inttrig }, s)

def aoBipolarTable : List Bool := [false, true]

/-- The channels that are enabled in the FIFO version of the DAC. -/
def aoDacen (chans : List U32) : U16 :=
  chans.foldl (fun dacen chan => dacen ||| 1 <<< chan.toNat) 0

def aoSetUp (p : Private) (cmd : Cmd) : Private :=
  let bip := aoBipolarTable.getD (crRange (firstEntry cmd)).toNat false
  { p with
    aoScanCount := if cmd.stopSrc = trigCount then cmd.stopArg else 0
    aoContinuous := cmd.stopSrc ≠ trigCount
    aoBipolar := bip
    dacen := if 2 ≤ p.hwver then aoDacen (channels cmd) else p.dacen
    daccon := (if bip then dacOrBip else 0) |||
      if 2 ≤ p.hwver then dacFifoEn ||| dacTrigNone ||| dacIntFifoNhalf else 0 }

def aoCmd (p : Private) (cmd : Cmd) : Answer × Started :=
  let (ok, owners) :=
    if cmd.scanBeginSrc = trigTimer then getResources (bit 1) .aoCmd p.resOwner
    else (true, p.resOwner)
  let p := { p with resOwner := owners }
  if ¬ ok then ({ ret := -ebusy }, { dev := p })
  else
    ({ inttrig := some aoInttrigStart }, { dev := aoSetUp p cmd, inttrig := some aoInttrigStart })

/-- `async->inttrig` of analog input. -/
def aiInttrig (p : Private) (cmd : Cmd) (fn : Nat) (trigNum : U32) : Answer × Started :=
  if trigNum ≠ 0 then ({ ret := -einval, inttrig := some fn }, { dev := p })
  else if fn = aiInttrigStart then
    let s := aiStart p cmd
    ({ ret := 1, inttrig := s.inttrig }, s)
  else ({ ret := 1, inttrig := some fn }, { dev := p })

/-- `async->inttrig` of analog output. -/
def aoInttrig (p : Private) (cmd : Cmd) (raised : U32) (r : AoReading) (fn : Nat) (trigNum : U32) :
    Answer × Started :=
  if trigNum ≠ 0 then ({ ret := -einval, inttrig := some fn }, { dev := p })
  else if fn = aoInttrigStart then
    let s := aoStart p cmd r
    ({ ret := 1, inttrig := s.inttrig }, s)
  else if p.aoCmdStarted ∧ p.hwver < 2 then
    let h := handleAoNofifo p cmd raised r
    ({ ret := 1, inttrig := some fn },
      { dev := h.dev, inttrig := some fn, events := some h.raised, written := h.written })
  else ({ ret := 1, inttrig := some fn }, { dev := p })

end Comedi.Pci230
