import Mathlib.Data.List.Basic

namespace WireStreams

variable {α β : Type} (read : List β → α × List β) (write : α → List β)

/-- `n` reads in a row, with what they leave of the stream. -/
def reads : Nat → List β → List α × List β
  | 0, bytes => ([], bytes)
  | n + 1, bytes =>
    let first := read bytes
    let others := reads n first.2
    (first.1 :: others.1, others.2)

/-- The stream that carries the given messages. -/
def wire (msgs : List α) : List β := msgs.flatMap write

@[simp] theorem wire_cons (m : α) (msgs : List α) :
    wire write (m :: msgs) = write m ++ wire write msgs := rfl

/-- A reader that takes back one message whatever follows it takes back every stream of
messages, and after any number of reads it stands between two of them. -/
theorem reads_wire {msgs : List α} (rest : List β)
    (h : ∀ m ∈ msgs, ∀ tail, read (write m ++ tail) = (m, tail)) :
    ∀ n ≤ msgs.length,
      reads read n (wire write msgs ++ rest) = (msgs.take n, wire write (msgs.drop n) ++ rest) := by
  induction msgs with
  | nil =>
    intro n hn
    obtain rfl := Nat.le_zero.mp hn
    rfl
  | cons m msgs ih =>
    have hm := h m List.mem_cons_self
    have hms := ih (fun m' hm' => h m' (List.mem_cons_of_mem m hm'))
    intro n hn
    cases n with
    | zero => rfl
    | succ n =>
      have hn' : n ≤ msgs.length := Nat.le_of_succ_le_succ hn
      rw [wire_cons, List.append_assoc, reads, hm]
      simp only [hms n hn', List.take_succ_cons, List.drop_succ_cons]

end WireStreams
