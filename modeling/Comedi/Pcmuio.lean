import Comedi.BitFlags
import Comedi.ComediTest
import Comedi.FakeWaveform
import Comedi.NiTioCmd
import Comedi.Pcidas

namespace Comedi.Pcmuio

open ChanlistCheck
open ComediTest (fix)
open FakeWaveform (chanspec)
open NiTioCmd (trigInt)
open Pci230 (crAref trigExt)
open Pcidas (counts U16)
open RtTimer (trigNone trigNow trigCount cmdtestHelper)

abbrev U8 := BitVec 8

def chansPerPort : Nat := 8
def portsPerAsic : Nat := 6
def intrPortsPerAsic : Nat := 3
def maxChansPerSubdev : Nat := 24
def portsPerSubdev : Nat := maxChansPerSubdev / chansPerPort
def chansPerAsic : Nat := chansPerPort * portsPerAsic
def maxAsics : Nat := 2
def regLockMask : U8 := 0x3f
def intPendMask : U8 := 0x07
def pagePol : U8 := 1
def pageEnab : U8 := 2
def pageIntId : U8 := 3

section Attach

/-- The interrupts of a subdevice that has some. -/
structure Intr where
  asic : Nat
  firstChan : Nat
  asicChan : Nat
  numAsicChans : Nat
  deriving DecidableEq, Repr

/-- The counters of the loop in `pcmuio_attach` over the ports. -/
structure Place where
  port : Nat := 0
  asic : Nat := 0
  thisasicChanct : Nat := 0
  deriving Repr

/-- One port of 8 channels is given to a subdevice. -/
def attachPort (nChan : Nat) (st : Place × Option Intr) (byteNo : Nat) : Place × Option Intr :=
  let place := if portsPerAsic ≤ st.1.port then ⟨0, st.1.asic + 1, 0⟩ else st.1
  let intr := if place.thisasicChanct < chansPerPort * intrPortsPerAsic ∧ st.2 = none then
      some ⟨place.asic, byteNo * 8, place.thisasicChanct, nChan - byteNo * 8⟩
    else st.2
  (⟨place.port + 1, place.asic, place.thisasicChanct + chansPerPort⟩, intr)

/-- The loop in `pcmuio_attach` over the subdevices. -/
def attachSubdevs : Nat → Place → Nat → List (Option Intr)
  | 0, _, _ => []
  | n + 1, place, chansLeft =>
    let nChan := min chansLeft maxChansPerSubdev
    let ports := (List.range portsPerSubdev).foldl (attachPort nChan) (place, none)
    ports.2 :: attachSubdevs n ports.1 (chansLeft - nChan)

/-- The subdevices of a board. -/
def subdevs (numAsics : Nat) : List (Option Intr) :=
  let chans := chansPerAsic * numAsics
  attachSubdevs (chans / maxChansPerSubdev + if chans % maxChansPerSubdev ≠ 0 then 1 else 0) {}
    chans

end Attach

/-- The paged registers of an ASIC, without the edges that it has seen. -/
structure Asic where
  pagelock : U8 := 0
  pol : Nat → U8 := fun _ => 0
  enab : Nat → U8 := fun _ => 0

/-- `switch_page`, for an ASIC of the board. -/
def Asic.switchPage (a : Asic) (page : U8) : Asic :=
  { a with pagelock := a.pagelock &&& regLockMask ||| page <<< 6 }

/-- A paged register is written. -/
def Asic.outb (a : Asic) (v : U8) (port : Nat) : Asic :=
  if a.pagelock >>> 6 = pagePol then { a with pol := Function.update a.pol port v }
  else if a.pagelock >>> 6 = pageEnab then { a with enab := Function.update a.enab port v }
  else a

/-- An interrupt subdevice, with the samples put into its buffer, the bytes read from there, and
the events that the core has been told of since the command began. -/
structure Sub where
  enabledMask : U32 := 0
  active : Bool := false
  stopCount : Int := 0
  continuous : Bool := false
  inttrig : Bool := false
  cmd : Cmd := {}
  busy : Bool := false
  running : Bool := false
  out : List U16 := []
  taken : Nat := 0
  events : U32 := 0
  reported : U32 := 0

section Subdevice

variable (p : Intr) (a : Asic) (s : Sub)

/-- The ports of an ASIC that belong to a subdevice. -/
def ports : List Nat := List.range' (p.asicChan / chansPerPort) (p.numAsicChans / chansPerPort)

/-- `comedi_event`. -/
def comediEvent : Sub :=
  if s.running = false then s
  else
    { s with
      running := s.events &&& (comediCbEoa ||| comediCbError ||| comediCbOverflow) = 0
      reported := s.reported ||| s.events
      events := 0 }

/-- `comedi_buf_put`, and whether there was room. -/
def comediBufPut (bufsz : Nat) (x : U16) : Bool × Sub :=
  if 2 ≤ bufsz + s.taken - 2 * s.out.length then (true, { s with out := s.out ++ [x] })
  else (false, { s with events := s.events ||| comediCbError })

/-- `pcmuio_stop_intr`. -/
def stopIntr : Asic × Sub :=
  ((ports p).foldl (fun a port => a.outb 0 port) (a.switchPage pageEnab),
    { s with enabledMask := 0, active := false, inttrig := false })

/-- The channels of an ASIC that belong to a subdevice. -/
def asicMask : U32 := ((1 : U32) <<< p.numAsicChans - 1) <<< p.firstChan

def chanBits (cmd : Cmd) : U32 :=
  (List.range cmd.chanlistLen.toNat).foldl
    (fun bits n => bits ||| (1 : U32) <<< (crChan (chanspec cmd n)).toNat) 0

def polBits (cmd : Cmd) : U32 :=
  (List.range cmd.chanlistLen.toNat).foldl
    (fun bits n => bits ||| (if crAref (chanspec cmd n) ≠ 0 ∨ crRange (chanspec cmd n) ≠ 0
      then (1 : U32) else 0) <<< (crChan (chanspec cmd n)).toNat) 0

/-- The bits of a port. -/
def portBits (bits : U32) (port : Nat) : U8 :=
  (bits >>> (p.firstChan + (port - p.asicChan / chansPerPort) * 8)).setWidth 8

/-- One round of the loop in `pcmuio_start_intr`, which leaves the page of the polarity. -/
def setPort (bits pol : U32) (a : Asic) (port : Nat) : Asic :=
  ((a.outb (portBits p bits port) port).switchPage pagePol).outb (portBits p pol port) port

/-- `pcmuio_start_intr`, and whether there is an event to be told of. -/
def startIntr : Asic × Sub × Bool :=
  if s.continuous = false ∧ s.stopCount = 0 then
    (a, { s with events := s.events ||| comediCbEoa, active := false }, true)
  else
    let bits := chanBits s.cmd &&& asicMask p
    ((ports p).foldl (setPort p bits (polBits s.cmd)) (a.switchPage pageEnab),
      { s with enabledMask := bits, active := true }, false)

/-- The core is told of an event. -/
def told (r : Asic × Sub × Bool) : Asic × Sub :=
  (r.1, if r.2.2 then comediEvent r.2.1 else r.2.1)

/-- `pcmuio_inttrig_start_intr`. -/
def inttrigStartIntr (trignum : U32) : Asic × Sub :=
  if s.inttrig = false ∨ trignum ≠ 0 then (a, s)
  else
    let s := { s with inttrig := false }
    if s.active then told (startIntr p a s) else (a, s)

/-- `pcmuio_cmd`. -/
def pcmuioCmd : Asic × Sub :=
  let s := { s with
    active := true
    continuous := ¬ counts s.cmd
    stopCount := if counts s.cmd then s.cmd.stopArg.toInt else 0 }
  if s.cmd.startSrc = trigInt then (a, { s with inttrig := true })
  else told (startIntr p a s)

/-- `pcmuio_cancel`. -/
def pcmuioCancel : Asic × Sub := if s.active then stopIntr p a s else (a, s)

/-- The bit of each entry whose line had an edge. -/
def scanWord (cmd : Cmd) (mytrig : U32) : U32 :=
  (List.range cmd.chanlistLen.toNat).foldl
    (fun val n => if mytrig &&& (1 : U32) <<< (crChan (chanspec cmd n)).toNat ≠ 0 then
        val ||| (1 : U32) <<< n
      else val) 0

def mytrig (triggered : U32) : U32 :=
  ((triggered >>> p.asicChan) &&& ((1 : U32) <<< p.numAsicChans - 1)) <<< p.firstChan

/-- Two samples are put, the second one where there was room for the first. -/
def putScan (bufsz : Nat) (val : U32) : Bool × Sub :=
  let first := comediBufPut s bufsz (val.setWidth 16)
  if first.1 then comediBufPut first.2 bufsz ((val >>> 16).setWidth 16) else first

/-- The end of an acquisition is looked for. -/
def checkEnd (r : Asic × Sub) : Asic × Sub :=
  if r.2.continuous = false ∧ 0 < r.2.stopCount then
    let s := { r.2 with stopCount := r.2.stopCount - 1 }
    if s.stopCount = 0 then stopIntr p r.1 { s with events := s.events ||| comediCbEoa }
    else (r.1, s)
  else r

/-- An edge of a channel that the command is interested in. -/
def putEdges (bufsz : Nat) (trig : U32) : Asic × Sub :=
  let put := putScan s bufsz (scanWord s.cmd trig)
  checkEnd p (if put.1 then
      (a, { put.2 with events := put.2.events ||| (comediCbBlock ||| comediCbEos) })
    else stopIntr p a put.2)

/-- What `interrupt_pcmuio` does for a subdevice of the ASIC. -/
def serveIntr (bufsz : Nat) (triggered : U32) : Asic × Sub :=
  let r := if s.active ∧ mytrig p triggered &&& s.enabledMask ≠ 0 then
      putEdges p a s bufsz (mytrig p triggered)
    else (a, s)
  (r.1, if s.events ≠ r.2.events then comediEvent r.2 else r.2)

end Subdevice

section Core

def maskSources (cmd : Cmd) : Bool × Cmd :=
  cmdtestHelper cmd (trigNow ||| trigInt) trigExt trigNow trigCount (trigCount ||| trigNone)

def several (src : U32) : Prop := src &&& (src - 1) ≠ 0

instance (src : U32) : Decidable (several src) := inferInstanceAs (Decidable (_ ≠ _))

/-- Step 2 of `pcmuio_cmdtest` finds an error. -/
def badSources (cmd : Cmd) : Prop :=
  several cmd.startSrc ∨ several cmd.scanBeginSrc ∨ several cmd.convertSrc ∨
    several cmd.scanEndSrc ∨ several cmd.stopSrc

instance (cmd : Cmd) : Decidable (badSources cmd) := inferInstanceAs (Decidable (_ ∨ _))

/-- Step 3 of `pcmuio_cmdtest`. -/
def fixArgs (cmd : Cmd) : Bool × Cmd :=
  let start := fix (cmd.startArg ≠ 0) { cmd with startArg := 0 } cmd
  let scan := fix (start.2.scanBeginArg ≠ 0) { start.2 with scanBeginArg := 0 } start.2
  let convert := fix (scan.2.convertArg ≠ 0) { scan.2 with convertArg := 0 } scan.2
  let scanEnd := fix (convert.2.scanEndArg ≠ convert.2.chanlistLen)
    { convert.2 with scanEndArg := convert.2.chanlistLen } convert.2
  let stop := fix (scanEnd.2.stopSrc = trigNone ∧ scanEnd.2.stopArg ≠ 0)
    { scanEnd.2 with stopArg := 0 } scanEnd.2
  (start.1 || scan.1 || convert.1 || scanEnd.1 || stop.1, stop.2)

/-- `pcmuio_cmdtest`. -/
def pcmuioCmdtest (cmd : Cmd) : Int × Cmd :=
  let masked := maskSources cmd
  if masked.1 then (1, masked.2)
  else if badSources masked.2 then (2, masked.2)
  else
    let args := fixArgs masked.2
    if args.1 then (3, args.2) else (0, args.2)

/-- What `check_chanlist` finds: channels of the subdevice, with the one range of digital lines. -/
def goodChans (cmd : Cmd) : Prop :=
  ∀ i < cmd.chanlistLen.toNat, (crChan (chanspec cmd i)).toNat < maxChansPerSubdev ∧
    (crRange (chanspec cmd i)).toNat < 1

instance (cmd : Cmd) : Decidable (goodChans cmd) :=
  inferInstanceAs (Decidable (∀ i < cmd.chanlistLen.toNat, _))

variable (p : Intr) (a : Asic) (s : Sub)

/-- `do_become_nonbusy`. -/
def becomeNonbusy : Sub :=
  { s with
    inttrig := false
    cmd := { s.cmd with chanlist := .null }
    busy := false
    running := false
    out := []
    taken := 0
    events := 0 }

/-- `do_cmd_ioctl`. -/
def doCmd (cmd : Cmd) : Asic × Sub :=
  if s.busy ∨ p.numAsicChans < cmd.chanlistLen.toNat ∨ cmd.chanlistLen.toNat < 1 then (a, s)
  else if ¬ goodChans cmd then (a, becomeNonbusy { s with cmd := cmd })
  else
    let tested := pcmuioCmdtest cmd
    if tested.2.flags &&& trigBogus ≠ 0 ∨ tested.1 ≠ 0 then
      (a, becomeNonbusy { s with cmd := tested.2 })
    else
      pcmuioCmd p a { s with
        cmd := tested.2
        busy := true
        running := true
        out := []
        taken := 0
        events := 0
        reported := 0 }

/-- `do_cancel`. -/
def doCancel : Asic × Sub :=
  if s.busy then
    let r := if s.running then pcmuioCancel p a s else (a, s)
    (r.1, becomeNonbusy r.2)
  else (a, s)

/-- The user takes bytes out of the buffer. -/
def readBuf (n : Nat) : Sub := { s with taken := min (2 * s.out.length) (s.taken + n) }

end Core

/-- What an interrupt reads of an ASIC: the ports with edges, and their lines. -/
structure Edges where
  intPend : U8 := 0
  lines : Nat → U8 := fun _ => 0

/-- The lines of an ASIC with edges. -/
def triggered (e : Edges) : U32 :=
  (List.range intrPortsPerAsic).foldl
    (fun bits port => if e.intPend &&& intPendMask &&& (1 : U8) <<< port ≠ 0 then
        bits ||| (e.lines port).setWidth 32 <<< (port * 8)
      else bits) 0

structure PcmuioBoard where
  numAsics : Nat
  irqs : Nat → Nat
  bufsz : Nat

structure Dev where
  asics : Nat → Asic := fun _ => {}
  subs : Nat → Sub := fun _ => {}

section Device

variable (board : PcmuioBoard) (st : Dev)

/-- The interrupts of a subdevice, and none of one that the board does not have. -/
def intrOf (k : Nat) : Option Intr := ((subdevs board.numAsics)[k]?).join

/-- A subdevice with interrupts takes a step, with the registers of its ASIC. -/
def Dev.onSub (k : Nat) (f : Intr → Asic → Sub → Asic × Sub) : Dev :=
  match intrOf board k with
  | some p =>
    let r := f p (st.asics p.asic) (st.subs k)
    { asics := Function.update st.asics p.asic r.1, subs := Function.update st.subs k r.2 }
  | none => st

/-- The edges of an ASIC are read, with the page switched where a port has some. -/
def readEdges (e : Edges) (asic : Nat) : Dev :=
  if asic < board.numAsics ∧ e.intPend &&& intPendMask ≠ 0 then
    { st with asics := Function.update st.asics asic ((st.asics asic).switchPage pageIntId) }
  else st

/-- What `interrupt_pcmuio` does for a subdevice. -/
def serveSub (trig : U32) (asic : Nat) (st : Dev) (k : Nat) : Dev :=
  st.onSub board k fun p a s => if p.asic = asic then serveIntr p a s board.bufsz trig else (a, s)

/-- What `interrupt_pcmuio` does for an ASIC. -/
def serveAsic (irq : Nat) (edges : Nat → Edges) (st : Dev) (asic : Nat) : Dev :=
  if irq = board.irqs asic then
    let trig := triggered (edges asic)
    let st := readEdges board st (edges asic) asic
    if trig = 0 then st
    else (List.range (subdevs board.numAsics).length).foldl (serveSub board trig asic) st
  else st

/-- `interrupt_pcmuio`. -/
def interruptPcmuio (irq : Nat) (edges : Nat → Edges) : Dev :=
  (List.range maxAsics).foldl (serveAsic board irq edges) st

end Device

inductive Op where
  | cmd (k : Nat) (cmd : Cmd)
  | inttrig (k : Nat) (trignum : U32)
  | cancel (k : Nat)
  | read (k n : Nat)
  | interrupt (irq : Nat) (edges : Nat → Edges)

def step (board : PcmuioBoard) (st : Dev) : Op → Dev
  | .cmd k cmd => st.onSub board k fun p a s => doCmd p a s cmd
  | .inttrig k trignum => st.onSub board k fun p a s => inttrigStartIntr p a s trignum
  | .cancel k => st.onSub board k fun p a s => doCancel p a s
  | .read k n => st.onSub board k fun _ a s => (a, readBuf s n)
  | .interrupt irq edges => interruptPcmuio board st irq edges

end Comedi.Pcmuio
