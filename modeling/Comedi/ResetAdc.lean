import Comedi.ChanlistCheck
import Comedi.FakeWaveform
import Comedi.Rps
import Comedi.RtTimer

namespace Comedi.ResetAdc

open ChanlistCheck Rps
open FakeWaveform (chanspec)
open RtTimer (trigNow trigFollow)

abbrev PollItem := BitVec 8

def range5v : PollItem := 0x10
def range10v : PollItem := 0x00
def eopl : PollItem := 0x80

def gselBipolar5v : U32 := 0x00f0
def gselBipolar10v : U32 := 0x00a0

def dmabufSize : Nat := 4096
def rpsclkPerUs : Nat := 33 / 8

/-- The poll list that `s626_ai_load_polllist` makes of the channel list. -/
def s626AiLoadPolllist (cmd : Cmd) : List PollItem :=
  (List.range cmd.chanlistLen.toNat).map fun n =>
    let entry := chanspec cmd n
    let item := (crChan entry).setWidth 8 ||| (if crRange entry = 0 then range5v else range10v)
    if n + 1 = cmd.chanlistLen.toNat then item ||| eopl else item

/-- Wait for a trigger. -/
def waitTrigger : List U32 := [rpsPause ||| rpsSigadc, rpsClrsignal ||| rpsSigadc]

def debiWrite (reg data : U32) : List U32 :=
  [rpsLdreg ||| (pDebicmd >>> 2), debiCmdWrword ||| reg, rpsLdreg ||| (pDebiad >>> 2), data,
    rpsClrsignal ||| rpsDebi, rpsUpload ||| rpsDebi, rpsPause ||| rpsDebi]

def localPpl (item : PollItem) : U32 :=
  (item.setWidth 32 <<< 8) ||| (if item &&& 0x10 ≠ 0 then gselBipolar5v else gselBipolar10v)

/-- Jumps to the next instruction, for the time that they take. -/
def jumps : Nat → U32 → List U32
  | 0, _ => []
  | n + 1, jmpAdrs => rpsJump :: (jmpAdrs + 8) :: jumps n (jmpAdrs + 8)

/-- Pulse GPIO1 and wait until the conversion is done. -/
def convertAdc : List U32 :=
  [rpsLdreg ||| (pGpio >>> 2), gpioBase ||| gpio1Lo, rpsNop, rpsLdreg ||| (pGpio >>> 2),
    gpioBase ||| gpio1Hi, rpsPause ||| rpsGpio2]

def storeAdc (ana : U32) (adcItems : Nat) : List U32 :=
  [rpsStreg ||| ((pFbBuffer1 - 4) >>> 2), ana + (BitVec.ofNat 32 adcItems <<< 2)]

section Program

variable (cmd : Cmd) (base ana : U32)

/-- The code for a slot of the poll list, at the word `off` of the program. -/
def slotCode (off adcItems : Nat) (item : PollItem) : List U32 :=
  debiWrite lpGsel (localPpl item) ++ debiWrite lpIsel (localPpl item) ++
    jumps (10 * rpsclkPerUs / 2) (base + BitVec.ofNat 32 (4 * (off + 14))) ++
    (if cmd.convertSrc ≠ trigNow then waitTrigger else []) ++ convertAdc ++ storeAdc ana adcItems

/-- The code for the poll list, and `AdcItems` after it. -/
def slots : Nat → Nat → List PollItem → List U32 × Nat
  | _, adcItems, [] => ([], adcItems)
  | off, adcItems, item :: ppl =>
    if adcItems < 16 then
      let code := slotCode cmd base ana off adcItems item
      if item &&& eopl ≠ 0 then (code, adcItems + 1)
      else
        let rest := slots (off + code.length) (adcItems + 1) ppl
        (code ++ rest.1, rest.2)
    else ([], adcItems)

def scanCode : List U32 :=
  (if cmd.scanBeginSrc ≠ trigFollow then waitTrigger else []) ++ debiWrite lpGsel gselBipolar5v

/-- The code behind that for the poll list, without the jump to the beginning. -/
def finalCode (adcItems : Nat) (aiCmdRunning : Bool) : List U32 :=
  List.replicate (2 * rpsclkPerUs) rpsNop ++ convertAdc ++ storeAdc ana adcItems ++
    (if aiCmdRunning then [rpsIrq] else [])

/-- The program that `ResetADC` writes to the buffer at `base`, for samples in that at `ana`. -/
def resetAdc (ppl : List PollItem) (aiCmdRunning : Bool) : List U32 :=
  let polled := slots cmd base ana (scanCode cmd).length 0 ppl
  scanCode cmd ++ polled.1 ++ finalCode ana polled.2 aiCmdRunning ++ [rpsJump, base]

end Program

end Comedi.ResetAdc
