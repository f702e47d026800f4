import Comedi.BitFlags
import Comedi.Pci224Cmdtest
import Mathlib.Data.Nat.Count

namespace Comedi.Pci224Output

open ChanlistCheck
open FakeWaveform (chanspec)
open Pci224Cmdtest (pci224AoCmdtest)
open Pci230 (trigExt crInvert)
open Pci230AiCmdtest (combine)
open Pcidas (counts U16)
open RtTimer (trigTimer trigInt)

abbrev U8 := BitVec 8

def intrExt : U8 := 0x01
def intrDac : U8 := 0x04
def intrBits : U8 := 0x3f

def dacconTrigMask : U16 := 0x0007
def dacconTrigNone : U16 := 0x0000
def dacconTrigSw : U16 := 0x0001
def dacconTrigExtp : U16 := 0x0002
def dacconTrigExtn : U16 := 0x0003
def dacconTrigZ2ct0 : U16 := 0x0004
def dacconPolarMask : U16 := 0x0008
def dacconPolarUni : U16 := 0x0000
def dacconPolarBi : U16 := 0x0008
def dacconVrefMask : U16 := 0x0030
def dacconFifoenab : U16 := 0x0100
def dacconFifointrMask : U16 := 0x0e00
def dacconFifointrEmpty : U16 := 0x0000
def dacconFifointrNhalf : U16 := 0x0400
def dacconFifoflMask : U16 := 0x7000
def dacconFifoflEmpty : U16 := 0x1000
def dacconFifoflOnetohalf : U16 := 0x0000
def dacconFifoflHalftofull : U16 := 0x4000
def dacconFifoflFull : U16 := 0x6000

def fifoSize : Nat := 4096
def fifoRoomEmpty : Nat := fifoSize
def fifoRoomOnetohalf : Nat := fifoSize / 2
def fifoRoomHalftofull : Nat := 1
def fifoRoomFull : Nat := 0

/-- `COMBINE`, for `daccon`. -/
def combine16 (old new mask : U16) : U16 := old &&& ~~~mask ||| new &&& mask

/-- A board, with the settings of its ranges and the number of them. -/
structure Pci224Board where
  aoChans : Nat
  aoBits : Nat
  hwrange : List U16
  chans_le : aoChans ≤ 16 := by decide
  range_bits : hwrange.all (· &&& ~~~(dacconPolarMask ||| dacconVrefMask) = 0) = true := by decide

def pci224Internal : Pci224Board :=
  { aoChans := 16, aoBits := 12, hwrange := [0x38, 0x28, 0x18, 0x08, 0x30, 0x20, 0x10, 0x00] }

def pci224External : Pci224Board :=
  { aoChans := 16, aoBits := 12, hwrange := [dacconPolarBi, dacconPolarUni] }

def pci234 : Pci224Board := { aoChans := 4, aoBits := 16, hwrange := [dacconPolarBi] }

/-- The analogue output: the driver, the core, and the board with its FIFO. Since the command, the
user has given some samples, the scans `taken` have been put into the FIFO, and each scan in
`played` has changed the voltages. -/
structure Ao where
  started : Bool := false
  intsce : U8 := 0
  stopContinuous : Bool := false
  stopCount : U32 := 0
  scanOrder : Nat → Nat := fun _ => 0
  cachedDiv1 : U32 := 0
  cachedDiv2 : U32 := 0
  readback : Nat → U32 := fun _ => 0
  daccon : U16 := dacconTrigSw ||| dacconPolarBi ||| dacconFifoenab ||| dacconFifointrEmpty
  enab : U16 := 0
  fifo : List U16 := []
  cmd : Cmd := {}
  busy : Bool := false
  running : Bool := false
  inttrig : Bool := false
  events : U32 := 0
  reported : U32 := 0
  buffer : List U16 := []
  given : List U16 := []
  taken : Nat := 0
  played : List (Nat → Option U16) := []
  fresh : Bool := true

section Driver

variable (s : Ao)

/-- `comedi_event`. -/
def comediEvent : Ao :=
  if s.running = false then s
  else
    { s with
      running := s.events &&& (comediCbEoa ||| comediCbError ||| comediCbOverflow) = 0
      reported := s.reported ||| s.events
      events := 0 }

def raise (events : U32) : Ao := { s with events := s.events ||| events }

/-- `pci224_ao_stop`. -/
def aoStop : Ao :=
  if s.started = false then s
  else
    { s with
      started := false
      intsce := 0
      enab := 0
      daccon := combine16 s.daccon (dacconTrigSw ||| dacconFifointrEmpty)
        (dacconTrigMask ||| dacconFifointrMask)
      fifo := [] }

/-- `pci224_ao_start`. -/
def aoStart : Ao :=
  if s.stopContinuous = false ∧ s.stopCount = 0 then
    comediEvent (raise (aoStop { s with started := true }) comediCbEoa)
  else
    { s with
      started := true
      intsce := if s.cmd.stopSrc = trigExt then intrExt ||| intrDac else intrDac }

/-- The status of the FIFO. -/
def fifoStatus (fill : Nat) : U16 :=
  if fill = 0 then dacconFifoflEmpty
  else if fill ≤ fifoSize / 2 then dacconFifoflOnetohalf
  else if fill < fifoSize then dacconFifoflHalftofull
  else dacconFifoflFull

/-- The room for samples, as `pci224_ao_handle_fifo` finds it in the status. -/
def roomOf (dacstat : U16) : Nat :=
  if dacstat &&& dacconFifoflMask = dacconFifoflEmpty then fifoRoomEmpty
  else if dacstat &&& dacconFifoflMask = dacconFifoflOnetohalf then fifoRoomOnetohalf
  else if dacstat &&& dacconFifoflMask = dacconFifoflHalftofull then fifoRoomHalftofull
  else fifoRoomFull

def scanLen (cmd : Cmd) : Nat := cmd.chanlistLen.toNat

/-- The scans in the buffer that are to be put into the FIFO. -/
def numScans : Nat :=
  let bytesPerScan := if s.cmd.chanlistLen ≠ 0 then scanLen s.cmd * 2 else 2
  let available := 2 * s.buffer.length / bytesPerScan
  if s.stopContinuous = false ∧ s.stopCount.toNat < available then s.stopCount.toNat
  else available

/-- The words of a scan as the FIFO gets them. -/
def scanWords (n : Nat) (order : Nat → Nat) (vals : List U16) : List U16 :=
  (List.range n).map fun i => vals.getD (order i) 0

/-- `cfc_read_array_from_buffer`, and the scan is put into the FIFO. -/
def putScan : Ao :=
  { s with
    buffer := s.buffer.drop (scanLen s.cmd)
    fifo := s.fifo ++ scanWords (scanLen s.cmd) s.scanOrder (s.buffer.take (scanLen s.cmd))
    events := s.events ||| comediCbBlock
    taken := s.taken + 1 }

def putScans : Nat → Ao → Ao
  | 0, s => s
  | m + 1, s => putScans m (putScan s)

/-- A counted command waits for the FIFO to be empty after its last scan. -/
def countDown (m : Nat) : Ao :=
  if s.stopContinuous then s
  else
    let left := s.stopCount - BitVec.ofNat 32 m
    { s with
      stopCount := left
      daccon := if left = 0 then combine16 s.daccon dacconFifointrEmpty dacconFifointrMask
        else s.daccon }

/-- The source of the scan trigger. -/
def scanTrigger (cmd : Cmd) : U16 :=
  if cmd.scanBeginSrc = trigTimer then dacconTrigZ2ct0
  else if cmd.scanBeginArg &&& crInvert ≠ 0 then dacconTrigExtn
  else dacconTrigExtp

/-- The scan trigger is set after the FIFO got its first samples. -/
def setTrigger : Ao :=
  if s.daccon &&& dacconTrigMask = dacconTrigNone then
    { s with daccon := combine16 s.daccon (scanTrigger s.cmd) dacconTrigMask }
  else s

/-- An event, if there is one. -/
def tellCore : Ao := if s.events ≠ 0 then comediEvent s else s

/-- `pci224_ao_handle_fifo`. -/
def aoHandleFifo : Ao :=
  let dacstat := fifoStatus s.fifo.length
  if dacstat &&& dacconFifoflMask = dacconFifoflEmpty ∧ s.stopContinuous = false ∧
      s.stopCount = 0 then
    comediEvent (raise (aoStop s) comediCbEoa)
  else
    let room := roomOf dacstat
    let fed := if fifoRoomOnetohalf ≤ room ∧ numScans s = 0 then
        raise (aoStop s) comediCbOverflow
      else s
    let fits := if s.cmd.chanlistLen ≠ 0 then room / scanLen s.cmd else room
    let m := if fits < numScans s then fits else numScans s
    tellCore (setTrigger (countDown (putScans m fed) m))

/-- `pci224_ao_inttrig_start`. -/
def aoInttrigStart (trignum : U32) : Ao :=
  if s.inttrig = false ∨ trignum ≠ 0 then s else aoStart { s with inttrig := false }

/-- An edge of the external trigger. -/
def externalTrigger : Ao :=
  let s := { s with intsce := s.intsce &&& ~~~intrExt }
  if s.cmd.startSrc = trigExt then aoStart s
  else if s.cmd.stopSrc = trigExt then aoStop s
  else s

/-- `pci224_interrupt`. -/
def pci224Interrupt (intstat : U8) : Ao :=
  let valid := s.intsce &&& (intstat &&& intrBits)
  let triggered := if valid &&& intrExt ≠ 0 then externalTrigger s else s
  if valid &&& intrDac ≠ 0 then aoHandleFifo triggered else triggered

end Driver

section Command

def chanOf (cmd : Cmd) (i : Nat) : Nat := (crChan (chanspec cmd i)).toNat

/-- The place of an entry of the channel list in the order of the channels. -/
def rank (cmd : Cmd) (i : Nat) : Nat :=
  Nat.count (fun j => chanOf cmd j < chanOf cmd i) (scanLen cmd)

def aoEnab (cmd : Cmd) : U16 :=
  (List.range (scanLen cmd)).foldl (fun enab i => enab ||| (1 : U16) <<< chanOf cmd i) 0

def aoScanOrder (cmd : Cmd) (order : Nat → Nat) : Nat → Nat :=
  (List.range (scanLen cmd)).foldl (fun order i => Function.update order (rank cmd i) i) order

variable (board : Pci224Board) (s : Ao)

def rangeOf (cmd : Cmd) : U16 := board.hwrange.getD (crRange (chanspec cmd 0)).toNat 0

/-- One sample in `pci224_ao_munge`. -/
def aoMunge (cmd : Cmd) (v : U16) : U16 :=
  let offset : U16 := if rangeOf board cmd &&& dacconPolarMask = dacconPolarUni then 0 else 32768
  v <<< (16 - board.aoBits) - offset

/-- What `comedi_buf_munge` makes of a sample. -/
def munged (cmd : Cmd) (v : U16) : U16 :=
  if cmd.flags &&& cmdfRawdata ≠ 0 then v else aoMunge board cmd v

/-- `pci224_ao_cmd`, without the timers. -/
def aoCmd : Ao :=
  let range := rangeOf board s.cmd ||| dacconTrigNone ||| dacconFifointrNhalf
  let ready : Ao := { s with
    enab := aoEnab s.cmd
    scanOrder := aoScanOrder s.cmd s.scanOrder
    daccon := combine16 s.daccon range
      (dacconPolarMask ||| dacconVrefMask ||| dacconTrigMask ||| dacconFifointrMask)
    fifo := []
    stopContinuous := ¬ counts s.cmd
    stopCount := if counts s.cmd then s.cmd.stopArg else 0 }
  if s.cmd.startSrc = trigInt then { ready with inttrig := true }
  else if s.cmd.startSrc = trigExt then { ready with intsce := s.intsce ||| intrExt }
  else ready

/-- `pci224_ao_cancel`. -/
def aoCancel : Ao := aoStop s

/-- `do_become_nonbusy`. -/
def becomeNonbusy : Ao :=
  { s with
    inttrig := false
    cmd := { s.cmd with chanlist := .null }
    busy := false
    running := false
    buffer := []
    events := 0 }

/-- What `check_chanlist` finds. -/
def goodChans (cmd : Cmd) : Prop :=
  ∀ i < scanLen cmd, chanOf cmd i < board.aoChans ∧
    (crRange (chanspec cmd i)).toNat < board.hwrange.length

instance (cmd : Cmd) : Decidable (goodChans board cmd) :=
  inferInstanceAs (Decidable (∀ i < scanLen cmd, _))

/-- The channel list is copied from the user. -/
def copied (cmd : Cmd) (list : Nat → U32) : Cmd :=
  { cmd with chanlist := .kernel ((List.range (scanLen cmd)).map list) }

/-- `do_cmd_ioctl`. -/
def doCmd (user : Cmd) (list : Nat → U32) : Ao :=
  let cmd := copied user list
  if s.busy ∨ board.aoChans < scanLen cmd ∨ scanLen cmd < 1 then s
  else if ¬ goodChans board cmd then becomeNonbusy { s with cmd := cmd }
  else
    let tested := pci224AoCmdtest ⟨cmd, s.cachedDiv1, s.cachedDiv2⟩
    let s := { s with
      cmd := tested.2.cmd, cachedDiv1 := tested.2.cachedDiv1, cachedDiv2 := tested.2.cachedDiv2 }
    if tested.2.cmd.flags &&& trigBogus ≠ 0 ∨ tested.1 ≠ 0 then becomeNonbusy s
    else
      aoCmd board { s with
        busy := true
        running := true
        events := 0
        reported := 0
        buffer := []
        given := []
        taken := 0
        played := []
        fresh := !s.started }

/-- `do_cancel`. -/
def doCancel : Ao :=
  if s.busy then becomeNonbusy (if s.running then aoCancel s else s) else s

/-- `comedi_write`, for samples that the buffer has room for. -/
def comediWrite (samples : List U16) : Ao :=
  if s.busy = false then s
  else if s.running = false then becomeNonbusy s
  else
    { s with
      buffer := s.buffer ++ samples.map (munged board s.cmd)
      given := s.given ++ samples }

end Command

section Hardware

variable (s : Ao)

def trigOf : U16 := s.daccon &&& dacconTrigMask

/-- The level of the FIFO asks for an interrupt. -/
def fifoAsks : Prop :=
  (s.daccon &&& dacconFifointrMask = dacconFifointrEmpty → s.fifo = []) ∧
    (s.daccon &&& dacconFifointrMask = dacconFifointrNhalf → s.fifo.length ≤ fifoSize / 2)

instance : Decidable (fifoAsks s) := inferInstanceAs (Decidable (_ ∧ _))

/-- The channels that are enabled below a channel. -/
def enabledBelow (enab : U16) (c : Nat) : Nat := Nat.count (fun i => enab.getLsbD i = true) c

/-- The enabled channels, in their order, get the words that are next in the FIFO. -/
def loaded (enab : U16) (fifo : List U16) (c : Nat) : Option U16 :=
  if enab.getLsbD c then fifo[enabledBelow enab c]? else none

/-- The scan trigger. -/
def convert : Ao :=
  if trigOf s ≠ dacconTrigNone ∧ trigOf s ≠ dacconTrigSw ∧
      enabledBelow s.enab 16 ≤ s.fifo.length ∧ 0 < enabledBelow s.enab 16 then
    { s with
      fifo := s.fifo.drop (enabledBelow s.enab 16)
      played := s.played ++ [loaded s.enab s.fifo] }
  else s

/-- The word that `pci224_ao_set_data` makes of a sample. -/
def mangled (board : Pci224Board) (daccon : U16) (data : U32) : U16 :=
  let word := data.setWidth 16 <<< (16 - board.aoBits)
  if daccon &&& dacconPolarMask = dacconPolarBi then word ^^^ 0x8000 else word

/-- `pci224_ao_set_data`, when the subdevice is not busy. It ends with a software trigger. -/
def aoSetData (board : Pci224Board) (chan range : Nat) (data : U32) : Ao :=
  if s.busy then s
  else
    let daccon := combine16 s.daccon (board.hwrange.getD range 0)
      (dacconPolarMask ||| dacconVrefMask)
    let enab := (1 : U16) <<< chan
    { s with
      readback := Function.update s.readback chan data
      enab := enab
      daccon := daccon
      fifo := []
      played := s.played ++ [loaded enab [mangled board daccon data]] }

end Hardware

inductive Op where
  | cmd (user : Cmd) (list : Nat → U32)
  | inttrig (trignum : U32)
  | cancel
  | write (samples : List U16)
  | insnWrite (chan range : Nat) (data : U32)
  | interrupt (intstat : U8)
  | convert

/-- The status of the interrupts has the bit of the FIFO only when its level asks for that. -/
def intstatOf (s : Ao) (intstat : U8) : U8 :=
  if fifoAsks s then intstat else intstat &&& ~~~intrDac

def step (board : Pci224Board) (s : Ao) : Op → Ao
  | .cmd user list => doCmd board s user list
  | .inttrig trignum => aoInttrigStart s trignum
  | .cancel => doCancel s
  | .write samples => comediWrite board s samples
  | .insnWrite chan range data => aoSetData s board chan range data
  | .interrupt intstat => pci224Interrupt s (intstatOf s intstat)
  | .convert => convert s

/-- The states that a board can come to. -/
inductive Reached (board : Pci224Board) : Ao → Prop
  | attach : Reached board {}
  | step {s : Ao} (op : Op) (h : Reached board s) : Reached board (step board s op)

end Comedi.Pci224Output
