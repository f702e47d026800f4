import Mathlib.Data.Nat.Bitwise

namespace Comedi.ShiftRegister

/-- The low `n` bits of a word in the order in which they are sent, the highest first. -/
def sent : Nat → Nat → List Bool
  | 0, _ => []
  | n + 1, x => x.testBit n :: sent n x

/-- The word in the first `n` stages of a shift register, whose first stage has the last bit. -/
def word : Nat → List Bool → Nat
  | 0, _ => 0
  | _ + 1, [] => 0
  | n + 1, b :: bits => b.toNat + 2 * word n bits

def shiftIn (bits : List Bool) (register : List Bool) : List Bool :=
  bits.foldl (fun register b => b :: register) register

variable {n m x : Nat} {bits register : List Bool}

@[simp] theorem sent_length (n x : Nat) : (sent n x).length = n := by
  induction n with
  | zero => rfl
  | succ n ih => exact congrArg (· + 1) ih

theorem shiftIn_eq (bits register : List Bool) :
    shiftIn bits register = bits.reverse ++ register := by
  induction bits generalizing register with
  | nil => rfl
  | cons b bits ih =>
    rw [List.reverse_cons, List.append_assoc]
    exact ih (b :: register)

theorem word_append (bits register : List Bool) (m : Nat) :
    word (bits.length + m) (bits ++ register) =
      word bits.length bits + 2 ^ bits.length * word m register := by
  induction bits with
  | nil => simp [word]
  | cons b bits ih =>
    rw [List.length_cons, Nat.succ_add]
    simp only [List.cons_append, word]
    rw [ih, pow_succ, Nat.mul_add, Nat.mul_right_comm, Nat.mul_comm (2 ^ bits.length * _) 2,
      Nat.add_assoc]

/-- A word that is sent is what the register holds. -/
theorem word_shiftIn_sent (n x : Nat) (register : List Bool) :
    word n (shiftIn (sent n x) register) = x % 2 ^ n := by
  rw [shiftIn_eq]
  induction n generalizing register with
  | zero => simp [word, Nat.mod_one]
  | succ n ih =>
    have hlow := ih []
    rw [List.append_nil] at hlow
    have happend := word_append (sent n x).reverse (x.testBit n :: register) 1
    rw [List.length_reverse, sent_length, hlow] at happend
    rw [sent, List.reverse_cons, List.append_assoc, List.singleton_append, happend, pow_succ,
      Nat.mod_mul, ← Nat.toNat_testBit]
    rfl

end Comedi.ShiftRegister
