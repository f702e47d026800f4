import Comedi.BitFlags
import Comedi.DataModel
import Comedi.I2cBus

namespace Comedi.Pcidas64I2c

open I2cBus ShiftRegister

abbrev U16 := BitVec 16

def ctlUsero : U32 := 0x00010000
def ctlEeClk : U32 := 0x01000000
def ctlEeCs : U32 := 0x02000000
def ctlEeW : U32 := 0x04000000
def ctlEeR : U32 := 0x08000000

/-- `plx_control_bits`, and all that has been written to the control register. -/
structure Dev where
  plxControlBits : U32
  control : List U32 := []

section Driver

variable (dev : Dev)

def writeControl (bits : U32) : Dev := ⟨bits, dev.control ++ [bits]⟩

/-- Sets the data line: a set bit drives it low. -/
def i2cSetSda (state : Bool) : Dev :=
  writeControl dev
    (if state then dev.plxControlBits &&& ~~~ctlEeW else dev.plxControlBits ||| ctlEeW)

def i2cSetScl (state : Bool) : Dev :=
  writeControl dev
    (if state then dev.plxControlBits &&& ~~~ctlUsero else dev.plxControlBits ||| ctlUsero)

def i2cWriteBit (bit : Bool) : Dev := i2cSetScl (i2cSetSda (i2cSetScl dev false) bit) true

def i2cWriteByte (byte : Byte) : Dev := (sent 8 byte.toNat).foldl i2cWriteBit dev

/-- The acknowledge is not read, and what is returned is that there was one. -/
def i2cReadAck : Int × Dev := (0, i2cSetScl (i2cSetSda (i2cSetScl dev false) true) true)

def i2cStart : Dev := i2cSetSda (i2cSetSda (i2cSetScl dev true) true) false

def i2cStop : Dev := i2cSetSda (i2cSetScl (i2cSetSda (i2cSetScl dev false) false) true) true

/-- Bytes and their acknowledges, and the stop. -/
def i2cWriteBytes : Dev → List Byte → Dev
  | dev, [] => i2cStop dev
  | dev, byte :: data =>
    let ack := i2cReadAck (i2cWriteByte dev byte)
    if ack.1 ≠ 0 then i2cStop ack.2 else i2cWriteBytes ack.2 data

def addressByte (address : U32) : Byte := ((address <<< 1) &&& ~~~1).setWidth 8

def i2cWrite (address : U32) (data : List Byte) : Dev :=
  let dev := { dev with plxControlBits := dev.plxControlBits &&& ~~~ctlEeCs }
  i2cWriteBytes (i2cStart (i2cStop dev)) (addressByte address :: data)

def eepromClock : Dev :=
  let dev := writeControl dev (dev.plxControlBits ||| ctlEeClk)
  writeControl dev (dev.plxControlBits &&& ~~~ctlEeClk)

def eepromWriteBit (bit : Bool) : Dev :=
  eepromClock (writeControl dev
    (if bit then dev.plxControlBits ||| ctlEeW else dev.plxControlBits &&& ~~~ctlEeW))

def readCommand : U32 := 0x6

/-- `read_eeprom`, where `lines` is what each read of the control register gives. -/
def readEeprom (lines : Nat → U32) (address : Byte) : U16 × Dev :=
  let dev := writeControl dev
    ((dev.plxControlBits &&& (~~~ctlEeClk &&& ~~~ctlEeCs)) ||| ctlUsero)
  let dev := writeControl dev (dev.plxControlBits ||| ctlEeCs)
  let bitstream := (readCommand <<< 8) ||| address.setWidth 32
  let dev := (sent 11 bitstream.toNat).foldl eepromWriteBit dev
  let read := (List.range 16).foldl (fun (read : U16 × Dev) k =>
    (if lines k &&& ctlEeR ≠ 0 then read.1 ||| ((0x8000 : U16) >>> k) else read.1,
      eepromClock read.2))
    (0, dev)
  (read.1, writeControl read.2 (read.2.plxControlBits &&& ~~~ctlEeCs))

/-- A call of one of the two functions that change the register. -/
inductive Call
  | eeprom (lines : Nat → U32) (address : Byte)
  | i2c (address : U32) (data : List Byte)

def call : Call → Dev
  | .eeprom lines address => (readEeprom dev lines address).2
  | .i2c address data => i2cWrite dev address data

def run (calls : List Call) : Dev := calls.foldl call dev

end Driver

/-- The levels of the I2C lines: both bits are inverted. -/
def lines (bits : U32) : Lines := ⟨bits &&& ctlUsero = 0, bits &&& ctlEeW = 0⟩

section Levels

variable {bits m z : U32}

theorem set_flag (hm : m ≠ 0) : ¬ (bits ||| m) &&& m = 0 := by
  rw [BitFlags.or_self_and]
  exact hm

theorem lines_scl (bits : U32) (state : Bool) :
    lines (if state then bits &&& ~~~ctlUsero else bits ||| ctlUsero) =
      ⟨state, (lines bits).sda⟩ := by
  cases state with
  | true =>
    have hscl : bits &&& ~~~ctlUsero &&& ctlUsero = 0 := BitFlags.cleared (by decide)
    have hsda : bits &&& ~~~ctlUsero &&& ctlEeW = bits &&& ctlEeW :=
      BitFlags.clear_keeps (by decide)
    simp only [if_true, lines, hscl, hsda, decide_true]
  | false =>
    have hscl : ¬ (bits ||| ctlUsero) &&& ctlUsero = 0 := set_flag (by decide)
    have hsda : (bits ||| ctlUsero) &&& ctlEeW = bits &&& ctlEeW :=
      BitFlags.and_or_of_disjoint (by decide)
    simp only [Bool.false_eq_true, if_false, lines, hscl, hsda, decide_false]

theorem lines_sda (bits : U32) (state : Bool) :
    lines (if state then bits &&& ~~~ctlEeW else bits ||| ctlEeW) =
      ⟨(lines bits).scl, state⟩ := by
  cases state with
  | true =>
    have hsda : bits &&& ~~~ctlEeW &&& ctlEeW = 0 := BitFlags.cleared (by decide)
    have hscl : bits &&& ~~~ctlEeW &&& ctlUsero = bits &&& ctlUsero :=
      BitFlags.clear_keeps (by decide)
    simp only [if_true, lines, hscl, hsda, decide_true]
  | false =>
    have hsda : ¬ (bits ||| ctlEeW) &&& ctlEeW = 0 := set_flag (by decide)
    have hscl : (bits ||| ctlEeW) &&& ctlUsero = bits &&& ctlUsero :=
      BitFlags.and_or_of_disjoint (by decide)
    simp only [Bool.false_eq_true, if_false, lines, hscl, hsda, decide_false]

end Levels

section Heard

/-- What a listener has heard of all that was written, and what it knows now. -/
structure Heard (first : Listener) (dev : Dev) (events : List Event) (now : Listener) : Prop where
  heard : hearAll first (dev.control.map lines) = (events, now)
  level : lines dev.plxControlBits = now.lines

variable {first now : Listener} {dev : Dev} {events : List Event} {held : Bool} {level : Lines}

theorem hear_lines (l : Listener) (next : Lines) : (hear l next).2.lines = next := by
  unfold hear
  split
  · split <;> rfl
  · rfl
  · rfl
  · rfl

theorem Heard.write (h : Heard first dev events now) (bits : U32) :
    Heard first (writeControl dev bits) (events ++ (hear now (lines bits)).1)
      (hear now (lines bits)).2 where
  heard := by
    unfold writeControl
    rw [List.map_append, hearAll_append, h.heard]
    simp [hearAll]
  level := (hear_lines now (lines bits)).symm

theorem Heard.scl (h : Heard first dev events now) (state : Bool) :
    Heard first (i2cSetScl dev state) (events ++ (hear now ⟨state, now.lines.sda⟩).1)
      (hear now ⟨state, now.lines.sda⟩).2 := by
  have hwrite := h.write
    (if state then dev.plxControlBits &&& ~~~ctlUsero else dev.plxControlBits ||| ctlUsero)
  rw [lines_scl, h.level] at hwrite
  exact hwrite

theorem Heard.sda (h : Heard first dev events now) (state : Bool) :
    Heard first (i2cSetSda dev state) (events ++ (hear now ⟨now.lines.scl, state⟩).1)
      (hear now ⟨now.lines.scl, state⟩).2 := by
  have hwrite := h.write
    (if state then dev.plxControlBits &&& ~~~ctlEeW else dev.plxControlBits ||| ctlEeW)
  rw [lines_sda, h.level] at hwrite
  exact hwrite

/-- The clock is high, and with the bit that is on the data line `seen` has been sent. -/
def Clocked (first : Listener) (dev : Dev) (seen : List Event) : Prop :=
  ∃ events sda pending, Heard first dev events ⟨⟨true, sda⟩, pending⟩ ∧
    events ++ pending.toList.map .bit = seen

variable {seen : List Event}

/-- The clock falls after the last bit. -/
theorem Clocked.low (h : Clocked first dev seen) :
    ∃ sda, Heard first (i2cSetScl dev false) seen ⟨⟨false, sda⟩, none⟩ := by
  obtain ⟨events, sda, pending, hheard, rfl⟩ := h
  exact ⟨sda, hheard.scl false⟩

/-- A level is put on the data line while the clock is low. -/
theorem Heard.clock (h : Heard first dev seen ⟨⟨false, held⟩, none⟩) (b : Bool) :
    Heard first (i2cSetScl (i2cSetSda dev b) true) seen ⟨⟨true, b⟩, some b⟩ := by
  have hlevel := (h.sda b).scl true
  dsimp only [hear] at hlevel
  rw [List.append_nil, List.append_nil] at hlevel
  exact hlevel

theorem Clocked.bit (h : Clocked first dev seen) (b : Bool) :
    Clocked first (i2cWriteBit dev b) (seen ++ [.bit b]) := by
  obtain ⟨sda, hlow⟩ := h.low
  exact ⟨seen, b, some b, hlow.clock b, rfl⟩

theorem Clocked.bits (h : Clocked first dev seen) (bits : List Bool) :
    Clocked first (bits.foldl i2cWriteBit dev) (seen ++ bits.map .bit) := by
  induction bits generalizing dev seen with
  | nil =>
    rw [List.map_nil, List.append_nil]
    exact h
  | cons b bits ih =>
    rw [List.map_cons, List.append_cons]
    exact ih (h.bit b)

theorem Heard.stop (h : Heard first dev seen ⟨⟨false, held⟩, none⟩) :
    Heard first (i2cSetSda (i2cSetScl (i2cSetSda dev false) true) true) (seen ++ [.stop])
      ⟨⟨true, true⟩, none⟩ :=
  (h.clock false).sda true

theorem Clocked.stop (h : Clocked first dev seen) :
    Heard first (i2cStop dev) (seen ++ [.stop]) ⟨⟨true, true⟩, none⟩ := by
  obtain ⟨sda, hlow⟩ := h.low
  exact hlow.stop

/-- A stop from any levels of the lines. -/
theorem Heard.stopIdle (h : Heard first dev seen ⟨level, none⟩) :
    Heard first (i2cStop dev) (seen ++ [.stop]) ⟨⟨true, true⟩, none⟩ := by
  have hlow := h.scl false
  have hnone : hear ⟨level, none⟩ ⟨false, level.sda⟩ =
      ([], ⟨⟨false, level.sda⟩, none⟩) := by
    unfold hear
    cases level.scl <;> rfl
  rw [hnone, List.append_nil] at hlow
  exact hlow.stop

theorem Heard.start (h : Heard first dev seen ⟨⟨true, true⟩, none⟩) :
    Clocked first (i2cStart dev) (seen ++ [.start]) := by
  have hstart : Heard first (i2cStart dev) (seen ++ [] ++ [] ++ [.start])
      ⟨⟨true, false⟩, none⟩ := ((h.scl true).sda true).sda false
  rw [List.append_nil, List.append_nil] at hstart
  exact ⟨_, _, none, hstart, List.append_nil _⟩

/-- The bits of bytes that are all acknowledged. -/
def frames (data : List Byte) : List Bool :=
  (data.map (·.toNat)).flatMap fun x => sent 8 x ++ [true]

theorem Clocked.bytes (h : Clocked first dev seen) (data : List Byte) :
    Heard first (i2cWriteBytes dev data) (seen ++ (frames data).map .bit ++ [.stop])
      ⟨⟨true, true⟩, none⟩ := by
  induction data generalizing dev seen with
  | nil =>
    rw [frames, List.map_nil, List.flatMap_nil, List.map_nil, List.append_nil]
    exact h.stop
  | cons byte data ih =>
    have hack := (h.bits (sent 8 byte.toNat)).bit true
    have hrest := ih hack
    have hframes : seen ++ (sent 8 byte.toNat).map .bit ++ [.bit true] ++
        (frames data).map .bit = seen ++ (frames (byte :: data)).map .bit := by
      simp only [frames, List.map_cons, List.flatMap_cons, List.map_append, List.append_assoc,
        List.map_nil]
    rw [hframes] at hrest
    exact hrest

/-- What the bus is told by a write. -/
def writeEvents (address : U32) (data : List Byte) : List Event :=
  .stop :: .start :: ((frames (addressByte address :: data)).map .bit ++ [.stop])

theorem lines_chipSelect (bits : U32) : lines (bits &&& ~~~ctlEeCs) = lines bits := by
  have hscl : bits &&& ~~~ctlEeCs &&& ctlUsero = bits &&& ctlUsero :=
    BitFlags.clear_keeps (by decide)
  have hsda : bits &&& ~~~ctlEeCs &&& ctlEeW = bits &&& ctlEeW := BitFlags.clear_keeps (by decide)
  simp only [lines, hscl, hsda]

theorem Heard.i2cWrite (h : Heard first dev seen ⟨level, none⟩) (address : U32)
    (data : List Byte) :
    Heard first (i2cWrite dev address data) (seen ++ writeEvents address data)
      ⟨⟨true, true⟩, none⟩ := by
  have hselect : Heard first { dev with plxControlBits := dev.plxControlBits &&& ~~~ctlEeCs } seen
      ⟨level, none⟩ := ⟨h.heard, (lines_chipSelect _).trans h.level⟩
  have hbytes := hselect.stopIdle.start.bytes (addressByte address :: data)
  have hevents : seen ++ [.stop] ++ [.start] ++ (frames (addressByte address :: data)).map .bit ++
      [.stop] = seen ++ writeEvents address data := by
    simp only [writeEvents, List.append_assoc, List.cons_append, List.nil_append]
  rw [hevents] at hbytes
  exact hbytes

/-- The clock is low, and nothing is pending. -/
def Low (first : Listener) (dev : Dev) (seen : List Event) : Prop :=
  ∃ sda, Heard first dev seen ⟨⟨false, sda⟩, none⟩

/-- What is written while the clock stays low is no event. -/
theorem Low.write (h : Low first dev seen) {bits : U32}
    (hscl : bits &&& ctlUsero = dev.plxControlBits &&& ctlUsero) :
    Low first (writeControl dev bits) seen := by
  obtain ⟨sda, hheard⟩ := h
  have hlow : (lines bits).scl = false := by
    have hlevel := congrArg Lines.scl hheard.level
    unfold lines at hlevel ⊢
    dsimp only at hlevel ⊢
    rw [hscl]
    exact hlevel
  have hlines : lines bits = ⟨false, (lines bits).sda⟩ := by
    rw [← hlow]
  have hwrite := hheard.write bits
  rw [hlines] at hwrite
  exact ⟨_, (List.append_nil seen) ▸ hwrite⟩

theorem Low.set (h : Low first dev seen) {flag : U32} (hflag : flag &&& ctlUsero = 0) :
    Low first (writeControl dev (dev.plxControlBits ||| flag)) seen :=
  h.write (BitFlags.and_or_of_disjoint hflag)

theorem Low.clear (h : Low first dev seen) {flag : U32} (hflag : ctlUsero &&& flag = 0) :
    Low first (writeControl dev (dev.plxControlBits &&& ~~~flag)) seen :=
  h.write (BitFlags.clear_keeps hflag)

theorem Low.eepromClock (h : Low first dev seen) : Low first (eepromClock dev) seen := by
  have hset : Low first (writeControl dev (dev.plxControlBits ||| ctlEeClk)) seen :=
    h.set (by decide)
  exact hset.clear (by decide)

theorem Low.eepromWriteBits (h : Low first dev seen) (bits : List Bool) :
    Low first (bits.foldl eepromWriteBit dev) seen := by
  induction bits generalizing dev with
  | nil => exact h
  | cons b bits ih =>
    have hbit : Low first (writeControl dev
        (if b then dev.plxControlBits ||| ctlEeW else dev.plxControlBits &&& ~~~ctlEeW)) seen := by
      cases b with
      | true => exact h.set (by decide)
      | false => exact h.clear (by decide)
    exact ih hbit.eepromClock

/-- The clock falls, and nothing is sent while the EEPROM is read. -/
theorem Heard.readEeprom (h : Heard first dev seen ⟨level, none⟩) (lines : Nat → U32)
    (address : Byte) : Low first (readEeprom dev lines address).2 seen := by
  have hfirst : Low first (writeControl dev
      ((dev.plxControlBits &&& (~~~ctlEeClk &&& ~~~ctlEeCs)) ||| ctlUsero)) seen := by
    have hwrite := h.write ((dev.plxControlBits &&& (~~~ctlEeClk &&& ~~~ctlEeCs)) ||| ctlUsero)
    have hlines := lines_scl (dev.plxControlBits &&& (~~~ctlEeClk &&& ~~~ctlEeCs)) false
    rw [if_neg Bool.false_ne_true] at hlines
    have hnone : ∀ sda, hear ⟨level, none⟩ ⟨false, sda⟩ = ([], ⟨⟨false, sda⟩, none⟩) := by
      intro sda
      unfold hear
      cases level.scl <;> rfl
    rw [hlines, hnone, List.append_nil] at hwrite
    exact ⟨_, hwrite⟩
  have hread : ∀ (ks : List Nat) (read : U16 × Dev), Low first read.2 seen →
      Low first (ks.foldl (fun (read : U16 × Dev) k =>
        (if lines k &&& ctlEeR ≠ 0 then read.1 ||| ((0x8000 : U16) >>> k) else read.1,
          Pcidas64I2c.eepromClock read.2)) read).2 seen := by
    intro ks
    induction ks with
    | nil => exact fun _ h => h
    | cons k ks ih => exact fun read h => ih _ h.eepromClock
  exact (hread _ _ ((hfirst.set (by decide)).eepromWriteBits _)).clear (by decide)

/-- What the bus is told by a call. -/
def callEvents : Call → List Event
  | .eeprom _ _ => []
  | .i2c address data => writeEvents address data

theorem Heard.run (h : Heard first dev seen ⟨level, none⟩) (calls : List Call) :
    ∃ lines, Heard first (run dev calls) (seen ++ calls.flatMap callEvents) ⟨lines, none⟩ := by
  induction calls generalizing dev seen level with
  | nil =>
    rw [List.flatMap_nil, List.append_nil]
    exact ⟨level, h⟩
  | cons next calls ih =>
    rw [List.flatMap_cons, ← List.append_assoc]
    cases next with
    | eeprom lines address =>
      obtain ⟨sda, hlow⟩ := h.readEeprom lines address
      have hlow' : Heard first (call dev (.eeprom lines address))
          (seen ++ callEvents (.eeprom lines address)) ⟨⟨false, sda⟩, none⟩ := by
        rw [callEvents, List.append_nil]
        exact hlow
      exact ih hlow'
    | i2c address data => exact ih (h.i2cWrite address data)

end Heard

section ChipSelect

/-- The chip select of the EEPROM is inactive, and has been in all that was written. -/
structure Off (dev : Dev) : Prop where
  now : dev.plxControlBits &&& ctlEeCs = 0
  before : ∀ bits ∈ dev.control, bits &&& ctlEeCs = 0

variable {dev : Dev}

theorem Off.write (h : Off dev) {bits : U32}
    (hbits : bits &&& ctlEeCs = dev.plxControlBits &&& ctlEeCs) : Off (writeControl dev bits) := by
  refine ⟨hbits.trans h.now, fun b hb => ?_⟩
  rcases List.mem_append.mp hb with hb | hb
  · exact h.before b hb
  · rw [List.mem_singleton.mp hb]
    exact hbits.trans h.now

theorem Off.scl (h : Off dev) (state : Bool) : Off (i2cSetScl dev state) := by
  cases state with
  | true => exact h.write (BitFlags.clear_keeps (by decide))
  | false => exact h.write (BitFlags.and_or_of_disjoint (by decide))

theorem Off.sda (h : Off dev) (state : Bool) : Off (i2cSetSda dev state) := by
  cases state with
  | true => exact h.write (BitFlags.clear_keeps (by decide))
  | false => exact h.write (BitFlags.and_or_of_disjoint (by decide))

theorem Off.bit (h : Off dev) (b : Bool) : Off (i2cWriteBit dev b) :=
  ((h.scl false).sda b).scl true

theorem Off.bits (h : Off dev) (bits : List Bool) : Off (bits.foldl i2cWriteBit dev) := by
  induction bits generalizing dev with
  | nil => exact h
  | cons b bits ih => exact ih (h.bit b)

theorem Off.stop (h : Off dev) : Off (i2cStop dev) :=
  (((h.scl false).sda false).scl true).sda true

theorem Off.start (h : Off dev) : Off (i2cStart dev) := ((h.scl true).sda true).sda false

theorem Off.bytes (h : Off dev) (data : List Byte) : Off (i2cWriteBytes dev data) := by
  induction data generalizing dev with
  | nil => exact h.stop
  | cons byte data ih => exact ih ((h.bits _).bit true)

theorem off_i2cWrite (bits : U32) (address : U32) (data : List Byte) :
    Off (i2cWrite ⟨bits, []⟩ address data) := by
  have hselect : Off ⟨bits &&& ~~~ctlEeCs, []⟩ := ⟨BitFlags.cleared (by decide), nofun⟩
  exact hselect.stop.start.bytes _

end ChipSelect

section Transactions

variable {address : U32}

theorem addressByte_toNat (h : address.toNat < 128) :
    (addressByte address).toNat = address.toNat * 2 := by
  have hall : ∀ k < 128, (addressByte (BitVec.ofNat 32 k)).toNat = k * 2 := by decide
  have haddress := hall address.toNat h
  rwa [BitVec.ofNat_toNat, BitVec.setWidth_eq] at haddress

theorem bytes_sent (data : List Byte) :
    bytes (frames data) = some (data.map (·.toNat)) := by
  have hmod : ∀ byte : Byte, byte.toNat % 256 = byte.toNat :=
    fun byte => Nat.mod_eq_of_lt byte.isLt
  unfold frames
  rw [bytes_frames, List.map_map]
  simp only [Function.comp_def, hmod]

theorem transactions_write (address : U32) (data : List Byte) (events : List Event) :
    transactions none (writeEvents address data ++ events) =
      some ((addressByte address :: data).map (·.toNat)) :: transactions none events := by
  have hframe := transactions_frame (frames (addressByte address :: data)) events
  rw [bytes_sent] at hframe
  rw [writeEvents, List.cons_append, List.cons_append, List.append_assoc, transactions]
  exact hframe

/-- The transaction of a call. -/
def callTransactions : Call → List (Option (List Nat))
  | .eeprom _ _ => []
  | .i2c address data => [some ((addressByte address :: data).map (·.toNat))]

/-- Over any run the bus carries the transactions of the writes and nothing else. -/
theorem run_transactions (initial : U32) (calls : List Call) :
    transactions none (hearAll ⟨lines initial, none⟩
      ((run ⟨initial, []⟩ calls).control.map lines)).1 = calls.flatMap callTransactions := by
  have hstart : Heard ⟨lines initial, none⟩ ⟨initial, []⟩ [] ⟨lines initial, none⟩ := ⟨rfl, rfl⟩
  obtain ⟨_, hrun⟩ := hstart.run calls
  rw [hrun.heard, List.nil_append]
  clear hrun hstart
  induction calls with
  | nil => rfl
  | cons next calls ih =>
    rw [List.flatMap_cons, List.flatMap_cons]
    cases next with
    | eeprom lines address => exact ih
    | i2c address data =>
      rw [callEvents, transactions_write, ih]
      rfl

/-- The control bits after some calls. -/
def reached (initial : U32) (calls : List Call) : U32 := (run ⟨initial, []⟩ calls).plxControlBits

/-- After any calls, a write drives the lines so that the bus carries one transaction, of the
address and the data, and the EEPROM is not selected. -/
theorem i2c_write_transaction (initial : U32) (calls : List Call) (h : address.toNat < 128)
    (data : List Byte) :
    transactions none (hearAll ⟨lines (reached initial calls), none⟩
      ((i2cWrite ⟨reached initial calls, []⟩ address data).control.map lines)).1 =
        [some (address.toNat * 2 :: data.map (·.toNat))] ∧
    ∀ bits ∈ (i2cWrite ⟨reached initial calls, []⟩ address data).control,
      bits &&& ctlEeCs = 0 := by
  refine ⟨?_, (off_i2cWrite (reached initial calls) address data).before⟩
  have htransaction := run_transactions (reached initial calls) [.i2c address data]
  rw [← addressByte_toNat h]
  exact htransaction

theorem i2c_write_transaction_calls :
    transactions none (hearAll ⟨lines (reached 0 [.eeprom (fun _ => 0) 7]), none⟩
      ((i2cWrite ⟨reached 0 [.eeprom (fun _ => 0) 7], []⟩ 0x0c [0x01, 0x2f]).control.map
        lines)).1 = [some [0x18, 0x01, 0x2f]] :=
  (@i2c_write_transaction 0x0c 0 [.eeprom (fun _ => 0) 7] (by decide) [0x01, 0x2f]).1

end Transactions

end Comedi.Pcidas64I2c
