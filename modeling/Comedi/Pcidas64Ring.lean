import Comedi.Pcidas64

namespace Comedi.Pcidas64Ring

open Pcidas64
open RtTimer (trigCount trigNone)

def aoDmaRingCount : Nat := 16
def dmaBytes : Nat := 0x1000
def bytesInSample : Nat := 2
def dacFifoSize : Nat := 0x2000

structure AoDesc where
  transferSize : Nat
  endOfChain : Bool
  deriving DecidableEq

/-- The bus addresses of the output buffers. -/
structure AoBuffers where
  busAddr : Nat → Nat
  pos : ∀ k, 0 < busAddr k
  apart : ∀ j k, j < aoDmaRingCount → k < aoDmaRingCount → j ≠ k →
    busAddr j + dmaBytes ≤ busAddr k ∨ busAddr k + dmaBytes ≤ busAddr j

/-- The DMA 0 channel of the PLX chip: the descriptor it works on as it was fetched, and the
descriptor register. Before the first start its PCI address register reads 0. -/
structure Channel where
  started : Bool
  enabled : Bool
  done : Bool
  current : Nat
  fetched : AoDesc
  next : Nat

/-- The analog output of a board while a command runs. `available` is what can be read from the
comedi buffer. Beside it stand the bytes that were read from there, those that went to the fifo
by hand and by DMA, the buffers that wait for their transfer, the newest of them, and whether a
waiting buffer was loaded once more. -/
structure Ao where
  aoDmaIndex : Nat
  aoCount : BitVec 64
  aoDmaDesc : Nat → AoDesc
  aoBuffer : Nat → List Byte
  inttrig : Bool
  available : List Byte
  dma : Channel
  consumed : List Byte
  fifo : List Byte
  sent : List Byte
  waiting : Nat → Bool
  newest : Option Nat
  overwritten : Bool

def prevAoDmaIndex (st : Ao) : Nat :=
  if st.aoDmaIndex = 0 then aoDmaRingCount - 1 else st.aoDmaIndex - 1

/-- `cfc_read_array_from_buffer`. -/
def cfcReadArrayFromBuffer (st : Ao) (numBytes : Nat) : List Byte × Ao :=
  (st.available.take numBytes,
    { st with
      available := st.available.drop numBytes
      consumed := st.consumed ++ st.available.take numBytes })

def spendCount (st : Ao) (numBytes : Nat) : Ao :=
  { st with aoCount := st.aoCount - .ofNat 64 (numBytes / bytesInSample) }

def loadBytes (cmd : Cmd) (st : Ao) : Nat :=
  let numBytes := min st.available.length dmaBytes
  if cmd.stopSrc = trigCount ∧ numBytes > st.aoCount.toNat then
    st.aoCount.toNat * bytesInSample % 2 ^ 32
  else numBytes - numBytes % bytesInSample

/-- The descriptor that was loaded ends the chain, and the one before it does so no more. -/
def chainDesc (desc : Nat → AoDesc) (index prev size : Nat) : Nat → AoDesc :=
  let desc := Function.update desc index { desc index with transferSize := size }
  let desc := Function.update desc index { desc index with endOfChain := true }
  Function.update desc prev { desc prev with endOfChain := false }

def loadAoDmaBuffer (cmd : Cmd) (st : Ao) : Nat × Ao :=
  let index := st.aoDmaIndex
  let prev := prevAoDmaIndex st
  let numBytes := loadBytes cmd st
  if numBytes = 0 then (0, st)
  else
    let (bytes, st) := cfcReadArrayFromBuffer st numBytes
    let st :=
      { st with
        aoBuffer := Function.update st.aoBuffer index
          (bytes ++ (st.aoBuffer index).drop bytes.length)
        aoDmaDesc := chainDesc st.aoDmaDesc index prev bytes.length
        aoDmaIndex := (index + 1) % aoDmaRingCount
        waiting := Function.update st.waiting index true
        newest := some index
        overwritten := st.overwritten || st.waiting index }
    (bytes.length, spendCount st bytes.length)

/-- The channel goes on to the descriptor in its descriptor register. -/
def Ao.fetch (st : Ao) : Ao :=
  { st with
    dma := { st.dma with
      current := st.dma.next
      fetched := st.aoDmaDesc st.dma.next
      next := (st.dma.next + 1) % aoDmaRingCount } }

/-- The channel finishes its descriptor, and stops there at the end of the chain. -/
def Ao.advance (st : Ao) : Ao :=
  if st.dma.started ∧ st.dma.enabled ∧ ¬ st.dma.done then
    let st :=
      { st with
        sent := st.sent ++ (st.aoBuffer st.dma.current).take st.dma.fetched.transferSize
        waiting := Function.update st.waiting st.dma.current false }
    if st.dma.fetched.endOfChain then { st with dma := { st.dma with done := true } }
    else st.fetch
  else st

def advances : Nat → Ao → Ao
  | 0, st => st
  | n + 1, st => advances n st.advance

/-- What the channel does before its address register is read, and where it is then in the
buffer. -/
structure Glance where
  finished : Nat
  offset : Fin dmaBytes

def pciAddress (b : AoBuffers) (st : Ao) (offset : Fin dmaBytes) : Nat :=
  if st.dma.started then b.busAddr st.dma.current + offset else 0

/-- `load_ao_dma`, with what is seen of the channel in each round. -/
def loadAoDma (b : AoBuffers) (cmd : Cmd) : Ao → List Glance → Except Unfinished Ao
  | _, [] => .error .draining
  | st, g :: gs =>
    let st := advances g.finished st
    let nextTransferAddr := pciAddress b st g.offset
    if nextTransferAddr ≥ b.busAddr st.aoDmaIndex ∧
        nextTransferAddr < b.busAddr st.aoDmaIndex + dmaBytes then .ok st
    else
      let (numBytes, st) := loadAoDmaBuffer cmd st
      if numBytes ≥ dmaBytes then loadAoDma b cmd st gs else .ok st

def dmaStartSync (st : Ao) : Ao :=
  { st with dma := { st.dma with started := true, enabled := true, done := false } }.fetch

/-- The first half of `prep_ao_dma`: the fifo is filled by hand. -/
def preloadFifo (cmd : Cmd) (st : Ao) : Ao :=
  let st := { st with fifo := [] }
  let numBytes := dacFifoSize / 2 * bytesInSample
  let numBytes :=
    if cmd.stopSrc = trigCount ∧ numBytes / bytesInSample > st.aoCount.toNat then
      st.aoCount.toNat * bytesInSample
    else numBytes
  let (bytes, st) := cfcReadArrayFromBuffer st numBytes
  spendCount { st with fifo := bytes.take (bytes.length / bytesInSample * bytesInSample) }
    bytes.length

/-- `prep_ao_dma`, and whether it succeeds. -/
def prepAoDma (b : AoBuffers) (cmd : Cmd) (st : Ao) (gs : List Glance) :
    Except Unfinished (Bool × Ao) :=
  let st := preloadFifo cmd st
  if cmd.stopSrc = trigCount ∧ st.aoCount = 0 then .ok (true, st)
  else
    let (numBytes, st) := loadAoDmaBuffer cmd st
    if numBytes = 0 then .ok (false, st)
    else do
      let st ← loadAoDma b cmd st gs
      return (true, dmaStartSync st)

/-- `ao_inttrig`, as the core calls it while `async->inttrig` is set. -/
def aoInttrig (b : AoBuffers) (cmd : Cmd) (st : Ao) (trigNum : U32) (gs : List Glance) :
    Except Unfinished Ao :=
  if st.inttrig ∧ trigNum = 0 then do
    let (ok, st) ← prepAoDma b cmd st gs
    return if ok then { st with inttrig := false } else st
  else .ok st

def lastAoDmaLoadCompleted (b : AoBuffers) (st : Ao) (offset : Fin dmaBytes) : Bool :=
  st.dma.done ∧ pciAddress b st offset = b.busAddr (prevAoDmaIndex st)

/-- `restart_ao_dma`: the descriptor register is written back without the end-of-chain bit. -/
def restartAoDma (st : Ao) : Ao :=
  dmaStartSync { st with dma := { st.dma with started := false } }

def icsDma0A : U32 := 0x00200000
def dacDoneBit : BitVec 16 := 0x40

/-- What an interrupt finds: the status words, the channel in each round of `load_ao_dma`, and
where the channel is in its buffer afterwards. -/
structure AoInterrupt where
  status : BitVec 16
  plxStatus : U32
  glances : List Glance
  offset : Fin dmaBytes

def aoCancel (st : Ao) : Ao := { st with dma := { st.dma with enabled := false } }

def handleAoDma (b : AoBuffers) (cmd : Cmd) (st : Ao) (i : AoInterrupt) : Except Unfinished Ao :=
  if i.plxStatus &&& icsDma0A = 0 then .ok st
  else
    let enabled := st.dma.enabled
    let done := st.dma.done
    let st := { st with dma := { st.dma with enabled := enabled && !done } }
    if enabled then do
      let st ← loadAoDma b cmd st i.glances
      return if done ∧ ¬ lastAoDmaLoadCompleted b st i.offset then restartAoDma st else st
    else .ok st

/-- `handle_ao_interrupt`. A DAC that is done raises `COMEDI_CB_EOA`, which cancels. -/
def handleAoInterrupt (b : AoBuffers) (cmd : Cmd) (st : Ao) (i : AoInterrupt) :
    Except Unfinished Ao := do
  let st ← handleAoDma b cmd st i
  return if i.status &&& dacDoneBit ≠ 0 then aoCancel st else st

/-- What `ao_cmdtest` leaves of `stop_src`. -/
def AoAccepted (cmd : Cmd) : Prop := cmd.stopSrc = trigNone ∧ cmd.chanlistLen ≠ 0

/-- `ao_cmd`, where the last command may have left anything in descriptors and buffers. -/
def aoCmd (cmd : Cmd) (desc : Nat → AoDesc) (buffer : Nat → List Byte) (fetched : AoDesc) : Ao where
  aoDmaIndex := 0
  aoCount := (cmd.stopArg * cmd.chanlistLen).setWidth 64
  aoDmaDesc := desc
  aoBuffer := buffer
  inttrig := true
  available := []
  dma := ⟨false, false, false, 0, fetched, 0⟩
  consumed := []
  fifo := []
  sent := []
  waiting := fun _ => false
  newest := none
  overwritten := false

/-- What happens to a command: data written by the user, an internal trigger, the channel that
finishes a descriptor, an interrupt, and `COMEDI_CANCEL`, behind which no trigger is left. -/
inductive AoStep where
  | write (bytes : List Byte)
  | trigger (trigNum : U32) (glances : List Glance)
  | finish
  | interrupt (i : AoInterrupt)
  | cancel

def aoStep (b : AoBuffers) (cmd : Cmd) (st : Ao) : AoStep → Except Unfinished Ao
  | .write bytes => .ok { st with available := st.available ++ bytes }
  | .trigger trigNum gs => aoInttrig b cmd st trigNum gs
  | .finish => .ok st.advance
  | .interrupt i => handleAoInterrupt b cmd st i
  | .cancel => .ok { aoCancel st with inttrig := false }

end Comedi.Pcidas64Ring
