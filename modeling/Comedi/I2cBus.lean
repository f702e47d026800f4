import Comedi.ShiftRegister

namespace I2cBus

open Comedi.ShiftRegister

/-- The levels of the clock and of the data line. -/
structure Lines where
  scl : Bool
  sda : Bool
  deriving DecidableEq

inductive Event
  | start
  | stop
  | bit (b : Bool)
  deriving DecidableEq

/-- A listener knows the last levels and, while the clock is high, the bit on the data line. -/
structure Listener where
  lines : Lines
  pending : Option Bool := none

/-- While the clock is high, a change of the data line is a start or a stop; a level that stays
until the clock falls is a bit. -/
def hear (l : Listener) (next : Lines) : List Event × Listener :=
  match l.lines.scl, next.scl with
  | true, true =>
    if l.lines.sda = next.sda then ([], ⟨next, l.pending⟩)
    else ([if next.sda then .stop else .start], ⟨next, none⟩)
  | false, true => ([], ⟨next, some next.sda⟩)
  | true, false => (l.pending.toList.map .bit, ⟨next, none⟩)
  | false, false => ([], ⟨next, none⟩)

def hearAll : Listener → List Lines → List Event × Listener
  | l, [] => ([], l)
  | l, next :: trace => ((hear l next).1 ++ (hearAll (hear l next).2 trace).1,
      (hearAll (hear l next).2 trace).2)

/-- The bytes of the bits in a transaction, each sent from its highest bit on and followed by an
acknowledge. -/
def bytes : List Bool → Option (List Nat)
  | [] => some []
  | b7 :: b6 :: b5 :: b4 :: b3 :: b2 :: b1 :: b0 :: _ :: bits =>
    (bytes bits).map (word 8 (shiftIn [b7, b6, b5, b4, b3, b2, b1, b0] []) :: ·)
  | _ => none

/-- The transactions on the bus, where a start within a transaction breaks it, as does the end of
the trace. -/
def transactions : Option (List Bool) → List Event → List (Option (List Nat))
  | none, [] => []
  | some _, [] => [none]
  | none, .start :: events => transactions (some []) events
  | none, .stop :: events => transactions none events
  | none, .bit _ :: events => transactions none events
  | some _, .start :: events => none :: transactions (some []) events
  | some bits, .stop :: events => bytes bits :: transactions none events
  | some bits, .bit b :: events => transactions (some (bits ++ [b])) events

variable {l : Listener} {trace more : List Lines} {bits : List Bool} {events : List Event}

theorem hearAll_append (l : Listener) (trace more : List Lines) :
    hearAll l (trace ++ more) = ((hearAll l trace).1 ++ (hearAll (hearAll l trace).2 more).1,
      (hearAll (hearAll l trace).2 more).2) := by
  induction trace generalizing l with
  | nil => rfl
  | cons next trace ih => simp only [List.cons_append, hearAll, ih, List.append_assoc]

theorem bytes_sent (x : Nat) (ack : Bool) (bits : List Bool) :
    bytes (sent 8 x ++ ack :: bits) = (bytes bits).map (x % 256 :: ·) := by
  have hword := word_shiftIn_sent 8 x []
  exact congrArg (fun byte => (bytes bits).map (byte :: ·)) hword

theorem bytes_frames (xs : List Nat) (ack : Bool) :
    bytes (xs.flatMap fun x => sent 8 x ++ [ack]) = some (xs.map (· % 256)) := by
  induction xs with
  | nil => rfl
  | cons x xs ih =>
    rw [List.flatMap_cons, List.append_assoc, List.singleton_append, bytes_sent, ih]
    rfl

theorem transactions_bits (seen bits : List Bool) (events : List Event) :
    transactions (some seen) (bits.map .bit ++ events) =
      transactions (some (seen ++ bits)) events := by
  induction bits generalizing seen with
  | nil => rw [List.append_nil]; rfl
  | cons b bits ih =>
    rw [List.map_cons, List.cons_append, transactions, ih, List.append_assoc,
      List.singleton_append]

/-- A start, bits and a stop are one transaction. -/
theorem transactions_frame (bits : List Bool) (events : List Event) :
    transactions none (.start :: (bits.map .bit ++ .stop :: events)) =
      bytes bits :: transactions none events := by
  rw [transactions, transactions_bits, List.nil_append, transactions]

end I2cBus
