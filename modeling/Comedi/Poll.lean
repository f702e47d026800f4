import Comedi.BufinfoOrder
import Comedi.Fc
import Comedi.ReadWrite

namespace Comedi.Poll

open AsyncBuffer RingMarks RingCounters MungeBlocks BufinfoOrder Fc ReadWrite

/-- `comedi_device_file_info` of an open file of the device, with the subdevices by number. -/
structure FileInfo where
  readSubdevice : Option Nat
  writeSubdevice : Option Nat
  deriving DecidableEq, Repr

/-- What `comedi_alloc_board_minor` sets up. -/
def boardFile : FileInfo := ⟨none, none⟩

/-- What `comedi_alloc_subdevice_minor` sets up. -/
def subdeviceFile (k : Nat) : FileInfo := ⟨some k, some k⟩

def comediGetReadSubdevice (info : FileInfo) (dev : Device) : Option Nat :=
  info.readSubdevice <|> dev.readSubdev

def comediGetWriteSubdevice (info : FileInfo) (dev : Device) : Option Nat :=
  info.writeSubdevice <|> dev.writeSubdev

def pollIn : U32 := 0x001
def pollOut : U32 := 0x004
def pollRdnorm : U32 := 0x040
def pollWrnorm : U32 := 0x100

def pollRead (dev : Device) (info : FileInfo) : U32 :=
  match (comediGetReadSubdevice info dev).bind (dev.subdevices[·]?) with
  | none => 0
  | some s =>
    match s.async with
    | none => 0
    | some a =>
      if s.busy.isNone ∨ 0 < comediBufReadNAvailable a ∨ s.runflags &&& srfRunning = 0
      then pollIn ||| pollRdnorm else 0

/-- The writing half of `comedi_poll` on the write subdevice. -/
def pollWriteSubdevice (s : Subdevice) : U32 × Subdevice :=
  match s.async with
  | none => (0, s)
  | some a =>
    let (_, a) := comediBufWriteAlloc a a.preallocBufsz
    let ready := s.busy.isNone ∨ s.runflags &&& srfRunning = 0 ∨
      bytesPerSample s ≤ comediBufWriteNAllocated a
    (if ready then pollOut ||| pollWrnorm else 0, { s with async := some a })

def pollWrite (dev : Device) (info : FileInfo) : U32 × Device :=
  match comediGetWriteSubdevice info dev with
  | none => (0, dev)
  | some w =>
    match dev.subdevices[w]? with
    | none => (0, dev)
    | some s =>
      let (mask, s) := pollWriteSubdevice s
      (mask, dev.set w s)

def comediPoll (dev : Device) (info : FileInfo) : U32 × Device :=
  if dev.attached then
    let (mask, dev') := pollWrite dev info
    (pollRead dev info ||| mask, dev')
  else (0, dev)

theorem comediPoll_snd (dev : Device) (info : FileInfo) :
    (comediPoll dev info).2 = if dev.attached then (pollWrite dev info).2 else dev := by
  unfold comediPoll
  split <;> rfl

theorem pollWrite_snd (dev : Device) (info : FileInfo) :
    (pollWrite dev info).2 = dev ∨ ∃ w s, comediGetWriteSubdevice info dev = some w ∧
      dev.subdevices[w]? = some s ∧ (pollWrite dev info).2 = dev.set w (pollWriteSubdevice s).2 := by
  cases hw : comediGetWriteSubdevice info dev with
  | none => exact .inl (by simp only [pollWrite, hw])
  | some w =>
    cases hs : dev.subdevices[w]? with
    | none => exact .inl (by simp only [pollWrite, hw, hs])
    | some s => exact .inr ⟨w, s, rfl, hs, by simp only [pollWrite, hw, hs]⟩

/-- What happens during an acquisition: the driver writes, the user reads or goes on reading
after having slept, and somebody polls. -/
inductive AcqStep where
  | write (data : List Byte)
  | read (call : IoCall)
  | wake (call : IoCall) (signal : Bool)
  | poll (info : FileInfo)

def AcqStep.isPoll : AcqStep → Bool
  | .poll _ => true
  | _ => false

/-- What a write of the driver returns, and the events that are pending afterwards. -/
structure Written where
  ret : U32
  events : U32
  deriving DecidableEq, Repr

/-- A step of the driver or the user on the acquiring subdevice. -/
def subdeviceStep (s : Subdevice) : AcqStep → Result (Subdevice × List Written)
  | .write data =>
    match s.async with
    | none => .ok (s, [])
    | some a => do
      let (ret, a) ← cfcWriteArrayToBuffer s a data
      return ({ s with async := some a }, [⟨ret, a.events⟩])
  | .read call => do
    let (_, _, s) ← readEnter s call
    return (s, [])
  | .wake call signal => do
    let (_, _, s) ← readWake s call signal
    return (s, [])
  | .poll _ => .ok (s, [])

def acqStep (k : Nat) (dev : Device) (x : AcqStep) : Result (Device × List Written) :=
  match x with
  | .poll info => .ok ((comediPoll dev info).2, [])
  | x =>
    match dev.subdevices[k]? with
    | none => .ok (dev, [])
    | some s => do
      let (s, out) ← subdeviceStep s x
      return (dev.set k s, out)

/-- A run of an acquisition on subdevice `k`, with all that the driver's writes return. -/
def acqRun (k : Nat) : Device → List AcqStep → Result (Device × List Written)
  | dev, [] => .ok (dev, [])
  | dev, x :: xs =>
    match acqStep k dev x with
    | .error e => .error e
    | .ok (dev, out) =>
      match acqRun k dev xs with
      | .error e => .error e
      | .ok (dev, out') => .ok (dev, out ++ out')

end Comedi.Poll
