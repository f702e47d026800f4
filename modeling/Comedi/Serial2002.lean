import Mathlib.Data.BitVec

namespace Comedi.Serial2002

inductive SerialKind
  | isInvalid
  | isDigital
  | isChannel
deriving Repr, DecidableEq

structure SerialData where
  kind : SerialKind
  index : BitVec 32
  value : BitVec 64
deriving Repr, DecidableEq

/-- The byte that ends a message, the `length`-th one read. -/
def lastByte (result : SerialData) (length : Nat) (data : BitVec 32) : SerialData :=
  let result :=
    if length = 1 then
      if (data.sshiftRight 5) &&& 0x03 = 0 then { result with value := 0, kind := .isDigital }
      else if (data.sshiftRight 5) &&& 0x03 = 1 then { result with value := 1, kind := .isDigital }
      else result
    else
      { result with
        value := (result.value <<< 2) ||| (((data &&& 0x60).sshiftRight 5).signExtend 64)
        kind := .isChannel }
  { result with index := data &&& 0x1f }

/-- The read loop, `length` bytes into the message. On an empty line `tty_read` times out
with -1, and what was read so far is the result. -/
def readLoop (result : SerialData) (length : Nat) : List (BitVec 8) → SerialData × List (BitVec 8)
  | [] => (result, [])
  | ch :: tty =>
    let data := ch.setWidth 32
    if data &&& 0x80 ≠ 0 then
      readLoop { result with value := (result.value <<< 7) ||| ((data &&& 0x7f).signExtend 64) }
        (length + 1) tty
    else (lastByte result (length + 1) data, tty)

def serialRead (tty : List (BitVec 8)) : SerialData × List (BitVec 8) :=
  readLoop ⟨.isInvalid, 0, 0⟩ 0 tty

/-- A leading group of the value, sent only from `bound` on. -/
def leadingByte (value bound : BitVec 64) (shift : Nat) (mask : BitVec 64) : List (BitVec 8) :=
  if value ≥ bound then [((0x80 : BitVec 64) ||| ((value >>> shift) &&& mask)).setWidth 8] else []

/-- The leading groups, each sent only when the value reaches it. -/
def leadingBytes (value : BitVec 64) : List (BitVec 8) :=
  let one : BitVec 64 := 1
  leadingByte value (one <<< 30) 30 0x03 ++ (leadingByte value (one <<< 23) 23 0x7f ++
    (leadingByte value (one <<< 16) 16 0x7f ++ leadingByte value (one <<< 9) 9 0x7f))

def serialWrite (data : SerialData) : List (BitVec 8) :=
  if data.kind = .isDigital then
    [(((data.value <<< 5) &&& 0x20) ||| (data.index.signExtend 64 &&& 0x1f)).setWidth 8]
  else
    leadingBytes data.value ++
      [((0x80 : BitVec 64) ||| ((data.value >>> 2) &&& 0x7f)).setWidth 8,
        (((data.value <<< 5) &&& 0x60) ||| (data.index.signExtend 64 &&& 0x1f)).setWidth 8]

end Comedi.Serial2002
