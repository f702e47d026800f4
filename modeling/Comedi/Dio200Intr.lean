import Comedi.FakeWaveform
import Comedi.Gathering

namespace Comedi.Dio200Intr

open RtTimer (trigCount trigInt)
open ChanlistCheck FakeWaveform

inductive LayoutName
  | pc212 | pc214 | pc215 | pc218 | pc272 | pcie215 | pcie236 | pcie296
  deriving DecidableEq, Repr

/-- Of `dio200_layout` the entry of `sdinfo` for the 'INTERRUPT' subdevice, its valid sources, and
whether the board has an interrupt enable and status register. -/
structure Dio200Layout where
  sdinfo : U32
  hasIntSce : Bool

def dio200Layouts : LayoutName → Dio200Layout
  | .pc212 => { sdinfo := 0x3f, hasIntSce := true }
  | .pc214 => { sdinfo := 0x01, hasIntSce := false }
  | .pc215 => { sdinfo := 0x3f, hasIntSce := true }
  | .pc218 => { sdinfo := 0x3f, hasIntSce := true }
  | .pc272 => { sdinfo := 0x3f, hasIntSce := true }
  | .pcie215 => { sdinfo := 0x3f, hasIntSce := true }
  | .pcie236 => { sdinfo := 0x3f, hasIntSce := true }
  | .pcie296 => { sdinfo := 0x3f, hasIntSce := true }

def dio200MaxIsns : Nat := 6

/-- `n_chan` and `len_chanlist`, which `dio200_subdev_intr_init` sets alike. -/
def nChan (layout : Dio200Layout) : Nat := if layout.hasIntSce then dio200MaxIsns else 1

/-- `dio200_subdev_intr`, with the register at `ofs`, the samples in the buffer, `async->events`,
`async->inttrig` and the events that calls of `comedi_event` have passed on. -/
structure Intr where
  active : Bool := false
  enabledIsns : U32 := 0
  stopcount : U32 := 0
  continuous : Bool := false
  intSce : Byte := 0
  out : List U16 := []
  events : U32 := 0
  inttrig : Bool := false
  raised : List U32 := []

/-- The write goes to the register of the boards that have it. -/
def writeIntSce (layout : Dio200Layout) (value : U32) (st : Intr) : Intr :=
  { st with intSce := if layout.hasIntSce then value.setWidth 8 else st.intSce }

/-- `comedi_event`, which is called only while the subdevice runs. -/
def comediEvent (st : Intr) : Intr := { st with raised := st.raised ++ [st.events], events := 0 }

def dio200StopIntr (layout : Dio200Layout) (st : Intr) : Intr :=
  writeIntSce layout 0 { st with active := false, enabledIsns := 0 }

/-- The sources in the channel list. -/
def isnBits (cmd : Cmd) : U32 :=
  if cmd.chanlist = .null then 0
  else
    (List.range cmd.chanlistLen.toNat).foldl
      (fun isnBits n => isnBits ||| (1 : U32) <<< (crChan (chanspec cmd n)).toNat) 0

def dio200StartIntr (layout : Dio200Layout) (cmd : Cmd) (st : Intr) : Bool × Intr :=
  if ¬ st.continuous ∧ st.stopcount = 0 then
    (true, { st with events := st.events ||| comediCbEoa, active := false })
  else
    let isnBits := isnBits cmd &&& layout.sdinfo
    (false, writeIntSce layout isnBits { st with enabledIsns := isnBits })

def dio200InttrigStartIntr (layout : Dio200Layout) (cmd : Cmd) (trignum : U32) (st : Intr) :
    Int × Intr :=
  if trignum ≠ 0 then (-einval, st)
  else
    let st := { st with inttrig := false }
    let (event, st) := if st.active then dio200StartIntr layout cmd st else (false, st)
    (1, if event then comediEvent st else st)

/-- What the loop over the status register keeps. -/
structure Collected where
  triggered : U32
  curEnabled : U32
  intSce : Byte

/-- The sources that have triggered are collected and disabled until no more have. -/
def collectIsns (validIsns : U32) : Nat → (Nat → Byte) → Collected → Option Collected
  | 0, _, _ => none
  | fuel + 1, readings, c =>
    let intstat := (readings 0).setWidth 32 &&& validIsns &&& ~~~c.triggered
    if intstat = 0 then some c
    else
      let triggered := c.triggered ||| intstat
      let curEnabled := c.curEnabled &&& ~~~triggered
      collectIsns validIsns fuel (fun k => readings (k + 1))
        { triggered := triggered, curEnabled := curEnabled, intSce := curEnabled.setWidth 8 }

/-- The sources that have triggered, as the readings of the status register show. A round of the loop
shows one of the 32 bits at least that no round before has shown. -/
def triggeredIsns (layout : Dio200Layout) (readings : Nat → Byte) (st : Intr) :
    Option (U32 × Intr) :=
  if layout.hasIntSce then
    (collectIsns layout.sdinfo 33 readings ⟨0, st.enabledIsns, st.intSce⟩).map fun c =>
      (c.triggered, { st with intSce := c.intSce })
  else some (st.enabledIsns, st)

/-- One bit for each entry of the channel list. -/
def scanVal (cmd : Cmd) (triggered : U32) : U16 :=
  (List.range cmd.chanlistLen.toNat).foldl (fun val n =>
    if triggered &&& (1 : U32) <<< (crChan (chanspec cmd n)).toNat ≠ 0 then
      val ||| (1 : U16) <<< n
    else val) 0

/-- `comedi_buf_put`. -/
def comediBufPut (room : Bool) (x : U16) (st : Intr) : Bool × Intr :=
  if room then (true, { st with out := st.out ++ [x] })
  else (false, { st with events := st.events ||| comediCbError })

def writeScan (layout : Dio200Layout) (room : Bool) (val : U16) (st : Intr) : Intr :=
  let (written, st) := comediBufPut room val st
  if written then { st with events := st.events ||| (comediCbBlock ||| comediCbEos) }
  else
    let st := dio200StopIntr layout st
    { st with events := st.events ||| (comediCbError ||| comediCbOverflow) }

/-- The check for the end of the acquisition. -/
def countScan (layout : Dio200Layout) (st : Intr) : Intr :=
  if ¬ st.continuous ∧ 0 < st.stopcount then
    let st := { st with stopcount := st.stopcount - 1 }
    if st.stopcount = 0 then
      dio200StopIntr layout { st with events := st.events ||| comediCbEoa }
    else st
  else st

/-- An interrupt, in which the status register gives `readings`, and there is `room` in the buffer or
not. -/
def dio200HandleReadIntr (layout : Dio200Layout) (cmd : Cmd) (readings : Nat → Byte) (room : Bool)
    (st : Intr) : Option (Bool × Intr) := do
  let oldevents := st.events
  let (triggered, st) ← triggeredIsns layout readings st
  let st :=
    if triggered ≠ 0 then
      let st := writeIntSce layout st.enabledIsns st
      if st.active ∧ triggered &&& st.enabledIsns ≠ 0 then
        countScan layout (writeScan layout room (scanVal cmd triggered) st)
      else st
    else st
  some (triggered ≠ 0, if oldevents ≠ st.events then comediEvent st else st)

def dio200SubdevIntrCancel (layout : Dio200Layout) (st : Intr) : Intr :=
  if st.active then dio200StopIntr layout st else st

def dio200SubdevIntrCmd (layout : Dio200Layout) (cmd : Cmd) (st : Intr) : Intr :=
  let st := { st with active := true }
  let st :=
    if cmd.stopSrc = trigCount then { st with continuous := false, stopcount := cmd.stopArg }
    else { st with continuous := true, stopcount := 0 }
  let (event, st) :=
    if cmd.startSrc = trigInt then (false, { st with inttrig := true })
    else dio200StartIntr layout cmd st
  if event then comediEvent st else st

/-- What happens to the subdevice while a command is on. -/
inductive Act
  | inttrig (trignum : U32)
  | cancel
  | interrupt (readings : Nat → Byte) (room : Bool)

/-- `none` only if a status loop has not ended. The core calls the trigger that is there. -/
def step (layout : Dio200Layout) (cmd : Cmd) (st : Intr) : Act → Option Intr
  | .inttrig trignum =>
    some (if st.inttrig then (dio200InttrigStartIntr layout cmd trignum st).2 else st)
  | .cancel => some (dio200SubdevIntrCancel layout st)
  | .interrupt readings room =>
    (dio200HandleReadIntr layout cmd readings room st).map Prod.snd

def run (layout : Dio200Layout) (cmd : Cmd) : Intr → List Act → Option Intr
  | st, [] => some st
  | st, act :: acts => (step layout cmd st act).bind fun st => run layout cmd st acts

end Comedi.Dio200Intr
