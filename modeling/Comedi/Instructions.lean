import Comedi.ChanlistCheck
import Comedi.RunState
import Mathlib.Logic.Function.Basic

namespace Comedi.Instructions

open ChanlistCheck RunState Function

def insnMaskWrite : U32 := 0x8000000
def insnMaskRead : U32 := 0x4000000
def insnMaskSpecial : U32 := 0x2000000

def insnRead : U32 := 0 ||| insnMaskRead
def insnWrite : U32 := 1 ||| insnMaskWrite
def insnBits : U32 := 2 ||| insnMaskRead ||| insnMaskWrite
def insnConfig : U32 := 3 ||| insnMaskRead ||| insnMaskWrite
def insnGtod : U32 := 4 ||| insnMaskRead ||| insnMaskSpecial
def insnWait : U32 := 5 ||| insnMaskWrite ||| insnMaskSpecial
def insnInttrig : U32 := 6 ||| insnMaskWrite ||| insnMaskSpecial

def insnConfigDioInput : U32 := 0
def insnConfigDioOutput : U32 := 1
def insnConfigAnalogTrig : U32 := 16
def insnConfigAltSource : U32 := 20
def insnConfigDigitalTrig : U32 := 21
def insnConfigBlockSize : U32 := 22
def insnConfigFilter : U32 := 24
def insnConfigSerialClock : U32 := 26
def insnConfigBidirectionalData : U32 := 27
def insnConfigDioQuery : U32 := 28
def insnConfigPwmOutput : U32 := 29
def insnConfigArm : U32 := 31
def insnConfigDisarm : U32 := 32
def insnConfigGetCounterStatus : U32 := 33
def insnConfigReset : U32 := 34
def insnConfigSetGateSrc : U32 := 2001
def insnConfigGetGateSrc : U32 := 2002
def insnConfigSetClockSrc : U32 := 2003
def insnConfigGetClockSrc : U32 := 2004
def insnConfigSetOtherSrc : U32 := 2005
def insnConfigGetHardwareBufferSize : U32 := 2006
def insnConfigSetCounterMode : U32 := 4097
def insnConfig8254ReadStatus : U32 := 4098
def insnConfigSetRouting : U32 := 4099
def insnConfigGetRouting : U32 := 4109
def insnConfigPwmSetPeriod : U32 := 5000
def insnConfigPwmGetPeriod : U32 := 5001
def insnConfigGetPwmStatus : U32 := 5002
def insnConfigPwmSetHBridge : U32 := 5003
def insnConfigPwmGetHBridge : U32 := 5004

/-- `comedi_insn`. -/
structure Insn where
  insn : U32
  n : U32
  data : Nat := 0
  subdev : U32 := 0
  chanspec : U32 := 0
  deriving DecidableEq, Repr

/-- What an `insn_*` callback of a driver returns, and the words it stores in its data. -/
structure InsnAnswer where
  ret : Int := 0
  words : Nat → Option U32 := fun _ => none

/-- One instruction of a request: the instruction itself, the words that the user's memory gives
for it (`none` where it faults) and how many it takes back, and what the driver's callbacks and
the clock answer if they are asked. -/
structure InsnReq where
  insn : Insn
  input : Option (Nat → U32) := some fun _ => 0
  takes : Nat := 2 ^ 32
  answer : InsnAnswer := {}
  trig : Answer := {}
  now : U32 × U32 := (0, 0)

def store (words : Nat → Option U32) (data : Nat → U32) : Nat → U32 := fun p =>
  (words p).getD (data p)

/-- The number of words that the configuration instruction `id` takes, where it is checked. -/
def configLength (id : U32) : Option U32 :=
  if id ∈ [insnConfigDioOutput, insnConfigDioInput, insnConfigDisarm, insnConfigReset] then some 1
  else if id ∈ [insnConfigArm, insnConfigDioQuery, insnConfigBlockSize, insnConfigFilter,
      insnConfigSerialClock, insnConfigBidirectionalData, insnConfigAltSource,
      insnConfigSetCounterMode, insnConfig8254ReadStatus, insnConfigSetRouting,
      insnConfigGetRouting, insnConfigGetPwmStatus, insnConfigPwmSetPeriod,
      insnConfigPwmGetPeriod] then some 2
  else if id ∈ [insnConfigSetGateSrc, insnConfigGetGateSrc, insnConfigSetClockSrc,
      insnConfigGetClockSrc, insnConfigSetOtherSrc, insnConfigGetCounterStatus,
      insnConfigPwmSetHBridge, insnConfigPwmGetHBridge, insnConfigGetHardwareBufferSize]
    then some 3
  else if id ∈ [insnConfigPwmOutput, insnConfigAnalogTrig] then some 5
  else if id = insnConfigDigitalTrig then some 6
  else none

def checkInsnConfigLength (insn : Insn) (data : Nat → U32) : Int :=
  if insn.n < 1 then -einval
  else
    match configLength (data 0) with
    | some len => if insn.n = len then 0 else -einval
    | none => 0

def insnRwEmulateBits (s : Subdevice) (insn : Insn) (ans : InsnAnswer) (data : Nat → U32) :
    Int × (Nat → U32) × List Call :=
  let chan := crChan insn.chanspec
  let baseBitfieldChannel := if chan < 32 then 0 else chan
  let bit : U32 := 1 <<< (chan - baseBitfieldChannel).toNat
  if insn.insn = insnWrite ∧ s.subdevFlags &&& sdfWritable = 0 then (-einval, data, [])
  else if insn.n = 0 then (0, data, [])
  else
    let newData : Nat → U32 :=
      if insn.insn = insnWrite
      then update (update (fun _ => 0) 0 bit) 1 (if data 0 ≠ 0 then bit else 0) else fun _ => 0
    if s.insnBits then
      let newData := store ans.words newData
      if ans.ret < 0 then (ans.ret, data, [.insnBits])
      else if insn.insn = insnRead then
        (1, update data 0 ((newData 1 >>> (chan - baseBitfieldChannel).toNat) &&& 1), [.insnBits])
      else (1, data, [.insnBits])
    else (-einval, data, [])

/-- `s->insn_read` or `s->insn_write`. -/
def callRw (handler : InsnHandler) (call : Call) (s : Subdevice) (insn : Insn) (ans : InsnAnswer)
    (data : Nat → U32) : Int × (Nat → U32) × List Call :=
  match handler with
  | .driver => (ans.ret, store ans.words data, [call])
  | .emulateBits => insnRwEmulateBits s insn ans data
  | .inval => (-einval, data, [])

def callBits (s : Subdevice) (ans : InsnAnswer) (data : Nat → U32) :
    Int × (Nat → U32) × List Call :=
  if s.insnBits then (ans.ret, store ans.words data, [.insnBits]) else (-einval, data, [])

def callConfig (s : Subdevice) (ans : InsnAnswer) (data : Nat → U32) :
    Int × (Nat → U32) × List Call :=
  if s.insnConfig then (ans.ret, store ans.words data, [.insnConfig]) else (-einval, data, [])

/-- Most drivers ignore the base channel of `INSN_BITS`. Where the subdevice has at most 32
channels, `parse_insn` deals with it. -/
def bitShift (s : Subdevice) (insn : Insn) : Nat :=
  if s.nChan.val ≤ 32 then (crChan insn.chanspec).toNat else 0

def shiftIn (shift : Nat) (data : Nat → U32) : Nat → U32 :=
  if 0 < shift then update (update data 0 (data 0 <<< shift)) 1 (data 1 <<< shift) else data

def shiftOut (shift : Nat) (data : Nat → U32) : Nat → U32 :=
  if 0 < shift then update data 1 (data 1 >>> shift) else data

def bitsInsn (s : Subdevice) (req : InsnReq) (data : Nat → U32) : Int × (Nat → U32) × List Call :=
  if req.insn.n ≠ 2 then (-einval, data, [])
  else
    let shift := bitShift s req.insn
    let (ret, out, calls) := callBits s req.answer (shiftIn shift data)
    (ret, shiftOut shift (update out 0 (data 0)), calls)

def maxdataOf (s : Subdevice) (insn : Insn) : U32 :=
  match s.maxdataList with
  | some l => (l[(crChan insn.chanspec).toNat]?).getD 0
  | none => s.maxdata

/-- The instructions that `parse_insn` carries out while it holds the subdevice. -/
def runInsn (s : Subdevice) (req : InsnReq) (data : Nat → U32) : Int × (Nat → U32) × List Call :=
  let insn := req.insn
  if insn.insn = insnRead then callRw s.insnRead .insnRead s insn req.answer data
  else if insn.insn = insnWrite then
    if (List.range insn.n.toNat).any fun i => maxdataOf s insn < data i then (-einval, data, [])
    else callRw s.insnWrite .insnWrite s insn req.answer data
  else if insn.insn = insnBits then bitsInsn s req data
  else if insn.insn = insnConfig then
    let ret := checkInsnConfigLength insn data
    if ret ≠ 0 then (ret, data, []) else callConfig s req.answer data
  else (-einval, data, [])

/-- A subdevice instruction, on the subdevice it is for. -/
def subdeviceInsn (s : Subdevice) (req : InsnReq) (data : Nat → U32) (file : File) :
    Int × (Nat → U32) × Subdevice × List Call :=
  if s.type = .unused then (-eio, data, s, [])
  else if s.lockedOut file then (-eacces, data, s, [])
  else if checkChanlist s [req.insn.chanspec] < 0 then (-einval, data, s, [])
  else if s.busy.isSome then (-ebusy, data, s, [])
  else
    let r := runInsn { s with busy := some .parseInsn } req data
    (r.1, r.2.1, { s with busy := none }, r.2.2)

/-- `INSN_INTTRIG`, on the subdevice it is for. -/
def inttrigInsn (s : Subdevice) (x : U32) (ans : Answer) : Int × Subdevice × List Call :=
  match s.async with
  | none => (-einval, s, [])
  | some a =>
    match a.inttrig with
    | none => (-eagain, s, [])
    | some fn => (if 0 ≤ ans.ret then 1 else ans.ret, setInttrig s ans.inttrig, [.inttrig fn x])

/-- The outcome of `parse_insn`; each call is noted with the number of its subdevice. -/
structure Parsed where
  ret : Int
  data : Nat → U32
  dev : Device
  calls : List (Nat × Call) := []

/-- The instructions that are not for a subdevice, as the source calls them; `INSN_INTTRIG`
is for one nevertheless. -/
def specialInsn (dev : Device) (req : InsnReq) (data : Nat → U32) : Parsed :=
  let insn := req.insn
  if insn.insn = insnGtod then
    if insn.n ≠ 2 then ⟨-einval, data, dev, []⟩
    else ⟨2, update (update data 0 req.now.1) 1 req.now.2, dev, []⟩
  else if insn.insn = insnWait then
    if insn.n ≠ 1 ∨ 100000 ≤ data 0 then ⟨-einval, data, dev, []⟩ else ⟨1, data, dev, []⟩
  else if insn.insn = insnInttrig then
    if insn.n ≠ 1 then ⟨-einval, data, dev, []⟩
    else
      let k := insn.subdev.toNat
      match dev.subdevices[k]? with
      | none => ⟨-einval, data, dev, []⟩
      | some s =>
        let r := inttrigInsn s (data 0) req.trig
        ⟨r.1, data, dev.set k r.2.1, r.2.2.map (k, ·)⟩
  else ⟨-einval, data, dev, []⟩

def ordinaryInsn (dev : Device) (req : InsnReq) (data : Nat → U32) (file : File) : Parsed :=
  let k := req.insn.subdev.toNat
  match dev.subdevices[k]? with
  | none => ⟨-einval, data, dev, []⟩
  | some s =>
    let r := subdeviceInsn s req data file
    ⟨r.1, r.2.1, dev.set k r.2.2.1, r.2.2.2.map (k, ·)⟩

def parseInsn (dev : Device) (req : InsnReq) (data : Nat → U32) (file : File) : Parsed :=
  if req.insn.insn &&& insnMaskSpecial ≠ 0 then specialInsn dev req data
  else ordinaryInsn dev req data file

def asksWrite (insn : Insn) : Prop := insn.insn &&& insnMaskWrite ≠ 0

instance (insn : Insn) : Decidable (asksWrite insn) := inferInstanceAs (Decidable (_ ≠ _))

def asksRead (insn : Insn) : Prop := insn.insn &&& insnMaskRead ≠ 0

instance (insn : Insn) : Decidable (asksRead insn) := inferInstanceAs (Decidable (_ ≠ _))

/-- `copy_from_user` of the words of an instruction. -/
def fillData (req : InsnReq) (data : Nat → U32) : Option (Nat → U32) :=
  if asksWrite req.insn then
    req.input.map fun words => store (fun p => if p < req.insn.n.toNat then some (words p) else none) data
  else some data

/-- The words that `copy_to_user` gets across. -/
def copyBack (req : InsnReq) (data : Nat → U32) : List U32 :=
  (List.range (min req.insn.n.toNat req.takes)).map data

/-- What a request returns, the words it copies to the user for each of its instructions, and
what it does to the device. -/
structure InsnOutcome where
  ret : Int
  copied : List (List U32)
  dev : Device
  calls : List (Nat × Call) := []

/-- `do_insn_ioctl`, with `mem` for the words that `kmalloc` finds in the memory it gives. -/
def doInsnIoctl (dev : Device) (req : InsnReq) (allocOk : Bool) (file : File) (mem : Nat → U32) :
    InsnOutcome :=
  if req.insn.n ≠ 0 ∧ ¬ allocOk then ⟨-enomem, [], dev, []⟩
  else
    match fillData req mem with
    | none => ⟨-efault, [], dev, []⟩
    | some data =>
      let r := parseInsn dev req data file
      if r.ret < 0 then ⟨r.ret, [], r.dev, r.calls⟩
      else if asksRead req.insn then
        ⟨if req.insn.n.toNat ≤ req.takes then req.insn.n.toInt else -efault,
          [copyBack req r.data], r.dev, r.calls⟩
      else ⟨req.insn.n.toInt, [], r.dev, r.calls⟩

/-- The loop of `do_insnlist_ioctl` from instruction number `i` on. -/
def insnlistLoop (file : File) : List InsnReq → Nat → Device → (Nat → U32) → InsnOutcome
  | [], i, dev, _ => ⟨i, [], dev, []⟩
  | req :: reqs, i, dev, data =>
    match fillData req data with
    | none => ⟨-efault, [], dev, []⟩
    | some data =>
      let r := parseInsn dev req data file
      if r.ret < 0 then ⟨r.ret, [], r.dev, r.calls⟩
      else
        let copied := if asksRead req.insn then [copyBack req r.data] else []
        if asksRead req.insn ∧ req.takes < req.insn.n.toNat then ⟨-efault, copied, r.dev, r.calls⟩
        else
          let rest := insnlistLoop file reqs (i + 1) r.dev r.data
          ⟨rest.ret, copied ++ rest.copied, rest.dev, r.calls ++ rest.calls⟩

/-- `do_insnlist_ioctl` for a list whose header was read. `insns` is the list as it was copied
from the user, or `none` where that faulted. -/
def doInsnlistIoctl (dev : Device) (insns : Option (List InsnReq)) (allocInsns allocData : Bool)
    (file : File) (mem : Nat → U32) : InsnOutcome :=
  if ¬ allocInsns then ⟨-enomem, [], dev, []⟩
  else
    match insns with
    | none => ⟨-efault, [], dev, []⟩
    | some reqs =>
      if (∃ req ∈ reqs, req.insn.n ≠ 0) ∧ ¬ allocData then ⟨-enomem, [], dev, []⟩
      else insnlistLoop file reqs 0 dev mem

end Comedi.Instructions
