import Mathlib.Logic.Function.Basic
import Mathlib.Data.List.Basic

namespace Tables

variable {α β : Type} [DecidableEq α] {f : α → Option β} {a b : α} {v w : β}

theorem update_some_eq : Function.update f a (some v) b = some w ↔
    b = a ∧ v = w ∨ b ≠ a ∧ f b = some w := by
  by_cases h : b = a
  · rw [h, Function.update_self, Option.some_inj]
    simp
  · rw [Function.update_of_ne h]
    simp [h]

theorem update_none_eq : Function.update f a none b = some w ↔ b ≠ a ∧ f b = some w := by
  by_cases h : b = a
  · rw [h, Function.update_self]
    simp
  · rw [Function.update_of_ne h]
    simp [h]

/-- The first free place of a table from `lo` on and below `hi`. -/
def firstFree (table : Nat → Option β) (lo hi : Nat) : Option Nat :=
  (List.range' lo (hi - lo)).find? fun i => (table i).isNone

theorem firstFree_spec {table : Nat → Option β} {lo hi i : Nat}
    (h : firstFree table lo hi = some i) : table i = none ∧ lo ≤ i ∧ i < hi := by
  have hmem := List.mem_of_find?_eq_some h
  have hnone := List.find?_some h
  rw [List.mem_range'_1] at hmem
  exact ⟨Option.isNone_iff_eq_none.mp hnone, hmem.1, by omega⟩

end Tables
