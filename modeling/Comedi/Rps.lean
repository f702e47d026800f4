import Comedi.CodeRuns
import Comedi.DataModel
import Mathlib.Logic.Function.Basic

namespace Comedi.Rps

open CodeRuns

def rpsClrsignal : U32 := 0x00000000
def rpsNop : U32 := 0x00000000
def rpsPause : U32 := 0x20000000
def rpsUpload : U32 := 0x40000000
def rpsIrq : U32 := 0x60000000
def rpsJump : U32 := 0x80000000
def rpsLdreg : U32 := 0x90000100
def rpsStreg : U32 := 0xa0000100

def rpsDebi : U32 := 0x00000002
def rpsGpio2 : U32 := 0x00080000
def rpsSigadc : U32 := 0x00200000

def gpioBase : U32 := 0x10004000
def gpio1Lo : U32 := 0x00000000
def gpio1Hi : U32 := 0x00001000

def pDebicmd : U32 := 0x0080
def pDebiad : U32 := 0x0088
def pGpio : U32 := 0x00e0
def pFbBuffer1 : U32 := 0x0144

def debiCmdWrword : U32 := 0x00040000
def lpGsel : U32 := 0x0084
def lpIsel : U32 := 0x0086

/-- A command of the register program sequencer, with its signals or its register. -/
inductive Op where
  | clrsignal (signals : U32)
  | pause (signals : U32)
  | upload (signals : U32)
  | irq
  | jump
  | ldreg (reg : U32)
  | streg (reg : U32)
  deriving DecidableEq

def decode (w : U32) : Option Op :=
  let code := w >>> 28
  let signals := w &&& 0x0fffffff
  let reg := (w &&& 0xff) <<< 2
  if code = 0x0 then some (.clrsignal signals)
  else if code = 0x2 then some (.pause signals)
  else if code = 0x4 then some (.upload signals)
  else if code = 0x6 then some .irq
  else if code = 0x8 then some .jump
  else if code = 0x9 then some (.ldreg reg)
  else if code = 0xa then some (.streg reg)
  else none

/-- A conversion: the gain and the channel that were selected when it was started, and how many
were started before it. -/
structure Conversion where
  gain : U32
  chan : U32
  index : Nat
  deriving DecidableEq

inductive Event where
  | wait
  | clear
  | start (c : Conversion)
  | irq (samples : Nat → Option Conversion)

/-- What the sequencer works on. A conversion is `busy`, then its data waits to be `shifted` out by
the next one, and then it is in `fbBuffer1`. The sample buffer has words. -/
structure Hw where
  debicmd : U32
  debiad : U32
  uploaded : Bool
  gsel : U32
  isel : U32
  gpio : U32
  started : Nat
  busy : Option Conversion
  shifted : Option Conversion
  fbBuffer1 : Option Conversion
  samples : Nat → Option Conversion
  trace : List Event

namespace Hw

variable (hw : Hw)

def selected : Conversion := ⟨hw.gsel &&& 0xff, (hw.isel >>> 8) &&& 0xf, hw.started⟩

/-- The falling edge of GPIO1 starts a conversion. -/
def writeGpio (value : U32) : Hw :=
  if hw.gpio &&& gpio1Hi ≠ 0 ∧ value &&& gpio1Hi = 0 then
    { hw with
      gpio := value
      started := hw.started + 1
      busy := some hw.selected
      trace := hw.trace ++ [.start hw.selected] }
  else { hw with gpio := value }

def ldreg (reg value : U32) : Hw :=
  if reg = pDebicmd then { hw with debicmd := value }
  else if reg = pDebiad then { hw with debiad := value }
  else if reg = pGpio then hw.writeGpio value
  else hw

/-- The immediate data is written to the address on the local bus. -/
def writeDebi : Hw :=
  if hw.debicmd = debiCmdWrword ||| lpGsel then { hw with gsel := hw.debiad }
  else if hw.debicmd = debiCmdWrword ||| lpIsel then { hw with isel := hw.debiad }
  else hw

def upload (signals : U32) : Hw :=
  if signals = rpsDebi then { hw.writeDebi with uploaded := true } else hw

/-- The end of a conversion shifts the data of the one before into the feedback buffer. -/
def finish : Hw :=
  match hw.busy with
  | none => hw
  | some c => { hw with busy := none, shifted := some c, fbBuffer1 := hw.shifted }

/-- Goes on when the signal is there, which for an upload that was not made is never. -/
def pause (signals : U32) : Option Hw :=
  if signals = rpsSigadc then some { hw with trace := hw.trace ++ [.wait] }
  else if signals = rpsDebi then if hw.uploaded then some hw else none
  else if signals = rpsGpio2 then some hw.finish
  else none

def clrsignal (signals : U32) : Hw :=
  if signals = rpsSigadc then { hw with trace := hw.trace ++ [.clear] }
  else if signals = rpsDebi then { hw with uploaded := false }
  else hw

/-- The sequencer stores the register behind the one that is named. -/
def streg (ana reg addr : U32) : Hw :=
  if reg + 4 = pFbBuffer1 then
    { hw with samples := Function.update hw.samples ((addr - ana).toNat / 4) hw.fbBuffer1 }
  else hw

def irq : Hw := { hw with trace := hw.trace ++ [.irq hw.samples] }

end Hw

/-- The word of the program at an address. -/
def place (base addr : U32) : Option Nat :=
  if (addr - base).toNat % 4 = 0 then some ((addr - base).toNat / 4) else none

def Op.run (base ana : U32) (fetch : Nat → Option U32) (pc : Nat) (hw : Hw) :
    Op → Option (Nat × Hw)
  | .clrsignal signals => some (pc + 1, hw.clrsignal signals)
  | .pause signals => (hw.pause signals).map (pc + 1, ·)
  | .upload signals => some (pc + 1, hw.upload signals)
  | .irq => some (pc + 1, hw.irq)
  | .jump => (fetch (pc + 1)).bind fun addr => (place base addr).map (·, hw)
  | .ldreg reg => (fetch (pc + 1)).map fun value => (pc + 2, hw.ldreg reg value)
  | .streg reg => (fetch (pc + 1)).map fun addr => (pc + 2, hw.streg ana reg addr)

/-- The sequencer, with a program from the address `base` on and samples from `ana` on. There is
nothing to run at an address outside of the program. -/
def rps (base ana : U32) : Machine U32 Hw := fun fetch x =>
  ((fetch x.1).bind decode).bind (Op.run base ana fetch x.1 x.2)

section Steps

variable {base ana w value addr reg signals : U32} {off : Nat} {hw hw' : Hw} {op : Op}

theorem rps_eq {fetch : Nat → Option U32} (hfetch : fetch off = some w)
    (h : decode w = some op) : rps base ana fetch (off, hw) = op.run base ana fetch off hw := by
  unfold rps
  rw [hfetch, Option.bind_some, h, Option.bind_some]

theorem executes_one (h : decode w = some op)
    (hrun : ∀ fetch, op.run base ana fetch off hw = some (off + 1, hw')) :
    Executes (rps base ana) off [w] hw hw' :=
  executes_of_step fun fetch hfetch =>
    (rps_eq (hfetch 0 Nat.one_pos) h).trans (hrun fetch)

theorem executes_two (h : decode w = some op)
    (hrun : ∀ fetch, fetch (off + 1) = some value →
      op.run base ana fetch off hw = some (off + 2, hw')) :
    Executes (rps base ana) off [w, value] hw hw' :=
  executes_of_step fun fetch hfetch =>
    (rps_eq (hfetch 0 Nat.two_pos) h).trans (hrun fetch (hfetch 1 Nat.one_lt_two))

theorem executes_clrsignal (h : decode w = some (.clrsignal signals)) :
    Executes (rps base ana) off [w] hw (hw.clrsignal signals) :=
  executes_one h fun _ => rfl

theorem executes_pause (h : decode w = some (.pause signals))
    (hpause : hw.pause signals = some hw') : Executes (rps base ana) off [w] hw hw' :=
  executes_one h fun fetch => by
    change (hw.pause signals).map (off + 1, ·) = _
    rw [hpause]
    rfl

theorem executes_upload (h : decode w = some (.upload signals)) :
    Executes (rps base ana) off [w] hw (hw.upload signals) :=
  executes_one h fun _ => rfl

theorem executes_irq (h : decode w = some .irq) : Executes (rps base ana) off [w] hw hw.irq :=
  executes_one h fun _ => rfl

theorem executes_ldreg (h : decode w = some (.ldreg reg)) :
    Executes (rps base ana) off [w, value] hw (hw.ldreg reg value) :=
  executes_two h fun fetch hvalue => by
    change (fetch (off + 1)).map _ = _
    rw [hvalue]
    rfl

theorem executes_streg (h : decode w = some (.streg reg)) :
    Executes (rps base ana) off [w, addr] hw (hw.streg ana reg addr) :=
  executes_two h fun fetch hvalue => by
    change (fetch (off + 1)).map _ = _
    rw [hvalue]
    rfl

/-- A jump to the word behind it. -/
theorem executes_jump (h : decode w = some .jump) (hplace : place base addr = some (off + 2)) :
    Executes (rps base ana) off [w, addr] hw hw :=
  executes_two h fun fetch haddr => by
    change (fetch (off + 1)).bind _ = _
    rw [haddr, Option.bind_some, hplace]
    rfl

theorem place_word (base : U32) {k : Nat} (hk : 4 * k < 2 ^ 32) :
    place base (base + BitVec.ofNat 32 (4 * k)) = some k := by
  have hoffset : (base + BitVec.ofNat 32 (4 * k) - base).toNat = 4 * k := by
    rw [BitVec.add_comm, BitVec.add_sub_cancel, BitVec.toNat_ofNat]
    exact Nat.mod_eq_of_lt hk
  unfold place
  rw [hoffset, if_pos (Nat.mul_mod_right 4 k), Nat.mul_div_cancel_left k (by decide)]

end Steps

end Comedi.Rps
