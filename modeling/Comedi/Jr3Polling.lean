import Comedi.Instructions

namespace Comedi.Jr3Polling

open ChanlistCheck

abbrev U16 := BitVec 16

def sensorChange : U16 := 0x0800
def watchDog2 : U16 := 0x4000
def watchDog : U16 := 0x8000

/-- The sensor is not there, or it is another one. -/
def lost (errors : U16) : Prop := errors &&& (watchDog ||| watchDog2 ||| sensorChange) ≠ 0

instance (errors : U16) : Decidable (lost errors) := inferInstanceAs (Decidable (_ ≠ _))

inductive State where
  | poll
  | initWaitForOffset
  | initTransformComplete
  | initSetFullScaleComplete
  | initUseOffsetComplete
  | done
  deriving DecidableEq, Repr

/-- What a poll reads from the registers of a channel. -/
structure Regs where
  errors : U16
  modelNo : U16
  serialNo : U16
  commandWord0 : U16
  maxFullScale : Nat → U16 := fun _ => 0
  fullScale : Nat → U16 := fun _ => 0

inductive Reg where
  | commandWord0
  | linkType (num i : Nat)
  | linkAmount (num i : Nat)
  | fullScale (axis : Nat)
  | offset (axis : Nat)
  deriving DecidableEq, Repr

abbrev Write := Reg × U16

/-- `set_transforms` with a transform of zeros, the first of which ends it, and `use_transform`. -/
def useZeroTransform : List Write :=
  [(.linkType 0 0, 0), (.linkAmount 0 0, 0), (.commandWord0, 0x0500)]

def setFullScales (fullScale : Nat → U16) : List Write :=
  (List.range 6).map (fun axis => (.fullScale axis, fullScale axis)) ++ [(.commandWord0, 0x0a00)]

def useOffset : List Write := [(.commandWord0, 0x0600)]

def setZeroOffset : List Write :=
  (List.range 6).map (fun axis => (.offset axis, 0)) ++ [(.commandWord0, 0x0700)]

/-- A poll in a state, with what it read and wrote. -/
structure Poll where
  state : State
  regs : Regs
  writes : List Write

/-- What has happened to a channel: a poll, or a read with the error word if it was looked at. -/
inductive Event where
  | poll (p : Poll)
  | read (errors : Option U16) (ret : Int)

/-- `jr3_pci_subdev_private`. `polledAt` and `delayMin` are the time of the last poll and the delay
that it asked for, and `history` has what has happened; the code has none of these. -/
structure Channel (w : Nat) where
  nextTimeMin : BitVec w
  nextTimeMax : BitVec w
  state : State := .poll
  modelNo : U16 := 0
  serialNo : U16 := 0
  range : List (Int × Int) := List.replicate 8 (-1000000, 1000000) ++ [(0, 65536)]
  errors : U16 := 0
  retries : Nat := 0
  polledAt : BitVec w
  delayMin : Nat
  history : List Event := []

variable {w : Nat}

/-- The ranges in kN and in 100 N m. -/
def rangesOf (fullScale : Nat → U16) : List (Int × Int) :=
  (List.range 8).map (fun axis =>
    let unit : Int := if axis < 3 then 1000 else 100
    (-(fullScale axis).toInt * unit, (fullScale axis).toInt * unit)) ++ [(0, 65535)]

/-- What `jr3_pci_poll_subdevice` returns, and what it writes. -/
structure Polled (w : Nat) where
  channel : Channel w
  delayMin : Nat
  delayMax : Nat
  writes : List Write := []

/-- The state that a poll finds once it has looked at the errors. -/
def stateAfterErrors (c : Channel w) (r : Regs) : State := if lost r.errors then .poll else c.state

def jr3PciPollSubdevice (c : Channel w) (r : Regs) : Polled w :=
  let c := { c with errors := r.errors, state := stateAfterErrors c r }
  match c.state with
  | .poll =>
    if r.errors &&& (watchDog ||| watchDog2) ≠ 0 ∨ r.modelNo = 0 ∨ r.serialNo = 0 then
      ⟨c, 1000, 2000, []⟩
    else ⟨{ c with retries := 0, state := .initWaitForOffset }, 1000, 2000, []⟩
  | .initWaitForOffset =>
    let c := { c with retries := c.retries + 1 }
    if c.retries < 10 then ⟨c, 1000, 2000, []⟩
    else
      ⟨{ c with
          modelNo := r.modelNo
          serialNo := r.serialNo
          state := .initTransformComplete }, 20, 100, useZeroTransform⟩
  | .initTransformComplete =>
    if r.commandWord0 ≠ 0 then ⟨c, 20, 100, []⟩
    else ⟨{ c with state := .initSetFullScaleComplete }, 20, 100, setFullScales r.maxFullScale⟩
  | .initSetFullScaleComplete =>
    if r.commandWord0 ≠ 0 then ⟨c, 20, 100, []⟩
    else
      ⟨{ c with range := rangesOf r.fullScale, state := .initUseOffsetComplete }, 40, 100,
        useOffset⟩
  | .initUseOffsetComplete =>
    if r.commandWord0 ≠ 0 then ⟨c, 20, 100, []⟩
    else ⟨{ c with state := .done }, 1000, 2000, setZeroOffset⟩
  | .done => ⟨c, 1000, 2000, []⟩

/-- A run of the timer function: `jiffies` as it is read for `now`, for each channel that is polled,
and for the next run. -/
structure Tick (w : Nat) where
  now : BitVec w
  regs : Nat → Regs
  jiffiesMin : Nat → BitVec w
  jiffiesMax : Nat → BitVec w
  jiffies : BitVec w

section Device

variable (msecsToJiffies : Nat → BitVec w)

/-- The body of the loop of `jr3_pci_poll_dev` for a channel that is polled. -/
def pollChannel (t : Tick w) (i : Nat) (c : Channel w) : Channel w × Nat :=
  let r := jr3PciPollSubdevice c (t.regs i)
  ({ r.channel with
      nextTimeMin := t.jiffiesMin i + msecsToJiffies r.delayMin
      nextTimeMax := t.jiffiesMax i + msecsToJiffies r.delayMax
      polledAt := t.jiffiesMin i
      delayMin := r.delayMin
      history := c.history ++ [.poll ⟨stateAfterErrors c (t.regs i), t.regs i, r.writes⟩] },
    r.delayMax)

/-- The loop of `jr3_pci_poll_dev` from channel `i` on. -/
def pollChannels (t : Tick w) : Nat → Nat → List (Channel w) → Nat × List (Channel w)
  | _, delay, [] => (delay, [])
  | i, delay, c :: cs =>
    if c.nextTimeMin < t.now then
      let (c, max) := pollChannel msecsToJiffies t i c
      let (delay, cs) :=
        pollChannels t (i + 1) (if max ≠ 0 ∧ max < delay then max else delay) cs
      (delay, c :: cs)
    else
      let (delay, cs) := pollChannels t (i + 1) delay cs
      (delay, c :: cs)

/-- The channels, and when the timer expires if it has been added. -/
structure Jr3PciDev (w : Nat) where
  channels : List (Channel w)
  expires : Option (BitVec w)

def jr3PciPollDev (dev : Jr3PciDev w) (t : Tick w) : Jr3PciDev w :=
  let (delay, channels) := pollChannels msecsToJiffies t 0 1000 dev.channels
  ⟨channels, some (t.jiffies + msecsToJiffies delay)⟩

/-- What a read finds in the registers: the errors, and the words of the channel. -/
structure Reading where
  errors : U16
  word : Nat → U16 := fun _ => 0

/-- `jr3_pci_ai_insn_read`, with the words that it stores. -/
def jr3PciAiInsnRead (c : Channel w) (chanspec n : U32) (r : Reading) :
    Int × List U32 × Channel w :=
  let channel := crChan chanspec
  if 57 < channel then (-einval, [], c)
  else
    let again := c.state ≠ .done ∨ lost r.errors
    let ret : Int := if again then -eagain else n.toInt
    let state := if again ∧ c.state = .done then .poll else c.state
    let word (i : Nat) : U32 :=
      if state ≠ .done then 0
      else if channel < 56 then (r.word i).signExtend 32 + 0x4000
      else (r.word i).setWidth 32
    (ret, (List.range n.toNat).map word,
      { c with
        state := state
        history := c.history ++
          [.read (if c.state = .done then some r.errors else none) ret] })

inductive Step (w : Nat) where
  | tick (t : Tick w)
  | read (i : Nat) (chanspec n : U32) (r : Reading)

def step (dev : Jr3PciDev w) : Step w → Jr3PciDev w
  | .tick t => if dev.expires = none then dev else jr3PciPollDev msecsToJiffies dev t
  | .read i chanspec n r =>
    { dev with channels := dev.channels.modify i fun c => (jr3PciAiInsnRead c chanspec n r).2.2 }

/-- The end of `jr3_pci_attach`, with `jiffies` as it is read for each channel and for the timer. -/
def jr3PciAttach (nChannels : Nat) (jiffiesMin jiffiesMax : Nat → BitVec w)
    (jiffies : BitVec w) : Jr3PciDev w where
  channels := (List.range nChannels).map fun i =>
    { nextTimeMin := jiffiesMin i + msecsToJiffies 500
      nextTimeMax := jiffiesMax i + msecsToJiffies 2000
      polledAt := jiffiesMin i
      delayMin := 500 }
  expires := some (jiffies + msecsToJiffies 1000)

inductive Reachable : Jr3PciDev w → Prop where
  | attach (nChannels : Nat) (jiffiesMin jiffiesMax : Nat → BitVec w) (jiffies : BitVec w) :
      Reachable (jr3PciAttach msecsToJiffies nChannels jiffiesMin jiffiesMax jiffies)
  | step {dev : Jr3PciDev w} (h : Reachable dev) (s : Step w) :
      Reachable (step msecsToJiffies dev s)

end Device

end Comedi.Jr3Polling
