import Comedi.FakeWaveform
import Comedi.NiChanGain
import Comedi.Pci230

namespace Comedi.Me4000

open ChanlistCheck FakeWaveform
open Pci230 (crAref arefDiff)
open NiChanGain (arefGround arefCommon)

/-- `me4000_ai_info_t`, of which the analog input uses the numbers of channels. -/
structure AiInfo where
  count : U32
  diffCount : U32
  deriving DecidableEq

/-- The `ai` entries of `me4000_boards`. -/
def me4000Boards : List AiInfo :=
  [⟨16, 0⟩, ⟨32, 16⟩, ⟨32, 16⟩, ⟨32, 16⟩, ⟨32, 16⟩, ⟨32, 16⟩, ⟨32, 16⟩, ⟨32, 16⟩, ⟨32, 16⟩,
    ⟨32, 16⟩, ⟨32, 16⟩, ⟨32, 16⟩, ⟨32, 16⟩]

def me4000AiChannelListCount : U32 := 1024

def listInputSingleEnded : U32 := 0x000
def listInputDifferential : U32 := 0x020
def listRangeBipolar10 : U32 := 0x000
def listRangeBipolar25 : U32 := 0x040
def listRangeUnipolar10 : U32 := 0x080
def listRangeUnipolar25 : U32 := 0x0c0
def listLastEntry : U32 := 0x100

def sdfDiff : U32 := 0x00400000

/-- The entry that `me4000_ai_insn_read` makes for the channel list register. -/
def readEntry (ai : AiInfo) (chanspec : U32) : Option U32 :=
  let chan := crChan chanspec
  let rang := crRange chanspec
  let aref := crAref chanspec
  let range : Option U32 :=
    if rang = 0 then some listRangeUnipolar25
    else if rang = 1 then some listRangeUnipolar10
    else if rang = 2 then some listRangeBipolar25
    else if rang = 3 then some listRangeBipolar10
    else none
  range.bind fun entry =>
    if aref = arefGround ∨ aref = arefCommon then
      if ai.count ≤ chan then none
      else some (entry ||| (listInputSingleEnded ||| chan) ||| listLastEntry)
    else if aref = arefDiff then
      if rang = 0 ∨ rang = 1 then none
      else if ai.diffCount ≤ chan then none
      else some (entry ||| (listInputDifferential ||| chan) ||| listLastEntry)
    else none

/-- The result, the words for the channel list register and `data[0]`. The status register says
whether a value is `ready`, which the data register then has. -/
def me4000AiInsnRead (ai : AiInfo) (n chanspec : U32) (ready : Bool) (lval : U32) :
    Int × List U32 × Option U32 :=
  if n = 0 then (0, [], none)
  else if 1 < n then (-einval, [], none)
  else
    match readEntry ai chanspec with
    | none => (-einval, [], none)
    | some entry =>
      if ready then (1, [entry], some ((lval &&& 0xffff) ^^^ 0x8000)) else (-eio, [entry], none)

def aiCheckChanlist (ai : AiInfo) (cmd : Cmd) : Int :=
  let entries := List.range cmd.chanlistLen.toNat
  let aref := crAref (chanspec cmd 0)
  if cmd.chanlistLen = 0 then -einval
  else if me4000AiChannelListCount < cmd.chanlistLen then -einval
  else if cmd.chanlist = .null then -efault
  else if ∃ i ∈ entries, crAref (chanspec cmd i) ≠ aref then -einval
  else if aref = sdfDiff ∧ ∃ i ∈ entries, ai.diffCount ≤ crChan (chanspec cmd i) then -einval
  else if aref ≠ sdfDiff ∧ ∃ i ∈ entries, ai.count ≤ crChan (chanspec cmd i) then -einval
  else if aref = sdfDiff ∧
      ∃ i ∈ entries, crRange (chanspec cmd i) ≠ 1 ∧ crRange (chanspec cmd i) ≠ 2 then -einval
  else 0

/-- The word that `ai_write_chanlist` makes of an entry. -/
def listWord (chanspec : U32) : U32 :=
  let rang := crRange chanspec
  crChan chanspec |||
    (if rang = 0 then listRangeUnipolar25
      else if rang = 1 then listRangeUnipolar10
      else if rang = 2 then listRangeBipolar25
      else listRangeBipolar10) |||
    (if crAref chanspec = sdfDiff then listInputDifferential else listInputSingleEnded)

/-- The words for the channel list register. -/
def aiWriteChanlist (cmd : Cmd) : List U32 :=
  (List.range cmd.chanlistLen.toNat).map fun i => listWord (chanspec cmd i)

end Comedi.Me4000
