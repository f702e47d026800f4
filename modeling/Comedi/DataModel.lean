import Mathlib.Data.BitVec

namespace Comedi

abbrev U32 := BitVec 32

abbrev Byte := BitVec 8

/-- A C `int` that holds a count. -/
abbrev Count := Fin (2 ^ 31)

-- Literals of these types, and lists of words, refer to the same proofs in every module.
instance neZero_count : NeZero (2 ^ 31) := ⟨by decide⟩

instance neZero_three : NeZero 3 := ⟨by decide⟩

instance lawfulBEq_u32 : LawfulBEq U32 := inferInstance

/-- An open file, as the `void *file` that the request handlers compare. -/
abbrev File := Nat

/-- The ways in which a function does not return: `BUG()`, a division by zero, and a loop
that never ends. -/
inductive Fault where
  | bug
  | divideError
  | hang
  deriving DecidableEq, Repr

abbrev Result := Except Fault

def eperm : Int := 1
def eio : Int := 5
def eagain : Int := 11
def enomem : Int := 12
def eacces : Int := 13
def efault : Int := 14
def ebusy : Int := 16
def enodev : Int := 19
def einval : Int := 22
def enotty : Int := 25
def epipe : Int := 32
def enosys : Int := 38
def erestartsys : Int := 512
def enoioctlcmd : Int := 515

def sdfBusy : U32 := 0x0001
def sdfBusyOwner : U32 := 0x0002
def sdfLocked : U32 := 0x0004
def sdfLockOwner : U32 := 0x0008
def sdfMaxdata : U32 := 0x0010
def sdfFlags : U32 := 0x0020
def sdfRangetype : U32 := 0x0040
def sdfCmd : U32 := 0x1000
def sdfCmdWrite : U32 := 0x4000
def sdfCmdRead : U32 := 0x8000
def sdfWritable : U32 := 0x00020000
def sdfRunning : U32 := 0x08000000
def sdfLsampl : U32 := 0x10000000

def srfUser : U32 := 0x00000001
def srfRt : U32 := 0x00000002
def srfError : U32 := 0x00000004
def srfRunning : U32 := 0x08000000

def comediCbEos : U32 := 1
def comediCbEoa : U32 := 2
def comediCbBlock : U32 := 4
def comediCbError : U32 := 16
def comediCbOverflow : U32 := 32

def trigBogus : U32 := 0x0001
def trigRt : U32 := 0x0008
def trigWakeEos : U32 := 0x0020
def cmdfRawdata : U32 := 0x0080

inductive SubdeviceType where
  | unused | ai | ao | di | do_ | dio | counter | timer | memory | calib | proc | serial | pwm
  deriving DecidableEq, Repr

/-- Who is recorded in `s->busy` or `s->lock`: an open file, the function `parse_insn`, or a
kernel client, whose `comedi_t` is the device itself. -/
inductive Owner where
  | file (f : File)
  | parseInsn
  | kernel
  deriving DecidableEq, Repr

/-- The `chanlist` pointer of a command: an address the user gave, memory that was allocated for
the command, or memory of a kernel client. -/
inductive Chanlist where
  | null
  | user (addr : Nat)
  | kernel (entries : List U32)
  | client (entries : List U32)
  deriving DecidableEq, Repr

/-- `comedi_cmd`. -/
structure Cmd where
  subdev : U32 := 0
  flags : U32 := 0
  startSrc : U32 := 0
  startArg : U32 := 0
  scanBeginSrc : U32 := 0
  scanBeginArg : U32 := 0
  convertSrc : U32 := 0
  convertArg : U32 := 0
  scanEndSrc : U32 := 0
  scanEndArg : U32 := 0
  stopSrc : U32 := 0
  stopArg : U32 := 0
  chanlist : Chanlist := .null
  chanlistLen : U32 := 0
  data : Nat := 0
  dataLen : U32 := 0
  deriving DecidableEq, Repr

/-- What a driver's `munge` does to a block of bytes, given the index of its first channel. -/
abbrev MungeFn := List Byte → U32 → List Byte

/-- The arguments of one call of `s->munge`, with the offset of the block in the buffer. -/
structure MungeCall where
  ptr : U32
  numBytes : U32
  startChanIndex : U32
  deriving DecidableEq, Repr

/-- `comedi_async`. The memory behind `prealloc_buf` is a function of the byte offset.
`mungeCalls` records the calls of `s->munge` and `chanlistAllocs` counts the channel lists
that were allocated and not freed; the code has neither. -/
structure Async where
  preallocBuf : Nat → Byte := fun _ => 0
  preallocBufsz : U32 := 0
  bufWriteCount : U32 := 0
  bufWriteAllocCount : U32 := 0
  bufReadCount : U32 := 0
  bufReadAllocCount : U32 := 0
  bufWritePtr : U32 := 0
  bufReadPtr : U32 := 0
  curChan : U32 := 0
  scanProgress : U32 := 0
  mungeChan : U32 := 0
  mungeCount : U32 := 0
  mungePtr : U32 := 0
  events : U32 := 0
  cmd : Cmd := {}
  cbMask : U32 := 0
  cbFunc : Option Nat := none
  inttrig : Option Nat := none
  mungeCalls : List MungeCall := []
  chanlistAllocs : Nat := 0

/-- The function behind `insn_read` or `insn_write` of a subdevice after `postconfig`. -/
inductive InsnHandler where
  | driver
  | emulateBits
  | inval
  deriving DecidableEq, Repr

structure Krange where
  min : Int
  max : Int
  flags : U32 := 0
  deriving DecidableEq, Repr

/-- `comedi_lrange`, with the `length` ranges that follow. -/
structure Lrange where
  length : Count
  range : List Krange := []
  deriving DecidableEq, Repr

/-- `comedi_subdevice`. A callback that the core only tests for NULL is a flag, and so are
`insn_bits` and `insn_config`, which are `insn_inval` where the driver has none. -/
structure Subdevice where
  type : SubdeviceType := .ai
  nChan : Count := 0
  subdevFlags : U32 := 0
  lenChanlist : Count := 1
  async : Option Async := none
  lock : Option Owner := none
  busy : Option Owner := none
  runflags : U32 := 0
  maxdata : U32 := 0
  maxdataList : Option (List U32) := none
  flags : U32 := 0
  flaglist : Option (List U32) := none
  settlingTime0 : U32 := 0
  rangeTable : Option Lrange := none
  rangeTableList : Option (List Lrange) := none
  insnRead : InsnHandler := .driver
  insnWrite : InsnHandler := .driver
  insnBits : Bool := true
  insnConfig : Bool := true
  doCmd : Bool := true
  doCmdtest : Bool := true
  poll : Bool := true
  cancel : Bool := true
  munge : Option MungeFn := none

/-- The entry of `comedi_irqs` for the interrupt of a device: its flag `rt`, and whether the
interrupt is held in real time. -/
structure Irq where
  rt : Bool := false
  held : Bool := false
  deriving DecidableEq, Repr

/-- The part of `comedi_device` that its subdevices share. Without `COMEDI_CONFIG_RT` there is
no entry for the interrupt, and the functions below then do what their empty macros do. -/
structure Board where
  rt : Int := 0
  irq : Option Irq := none
  deriving DecidableEq, Repr

/-- `comedi_device`, with `read_subdev` and `write_subdev` as subdevice numbers. -/
structure Device where
  minor : Int := 0
  board : Board := {}
  subdevices : List Subdevice := []
  readSubdev : Option Nat := none
  writeSubdev : Option Nat := none
  attached : Bool := true

def Device.set (dev : Device) (k : Nat) (s : Subdevice) : Device :=
  { dev with subdevices := dev.subdevices.set k s }

def Subdevice.lockedOut (s : Subdevice) (file : File) : Bool :=
  match s.lock with
  | none => false
  | some o => o ≠ .file file

def Subdevice.lockedOutOfKernel (s : Subdevice) : Bool :=
  match s.lock with
  | none => false
  | some o => o ≠ .kernel

def bytesPerSample (s : Subdevice) : U32 :=
  if s.subdevFlags &&& sdfLsampl ≠ 0 then 4 else 2

theorem bytesPerSample_cases (s : Subdevice) : bytesPerSample s = 4 ∨ bytesPerSample s = 2 := by
  unfold bytesPerSample
  split
  · exact .inl rfl
  · exact .inr rfl

end Comedi
