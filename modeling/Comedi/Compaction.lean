import Mathlib.Data.List.Range
import Mathlib.Logic.Function.Basic

namespace Compaction

variable {α : Type} (p : α → Bool)

/-- An array that is filled from the front. -/
structure Slots (α : Type) where
  count : Nat
  slot : Nat → α

def Slots.push (s : Slots α) (a : α) : Slots α := ⟨s.count + 1, Function.update s.slot s.count a⟩

/-- The elements with `p`, in order, behind those that are there. -/
def compact (s : Slots α) (l : List α) : Slots α :=
  l.foldl (fun s a => if p a then s.push a else s) s

variable {p} {s : Slots α} {l : List α} {a : α}

theorem compact_cons_of_pos (h : p a = true) :
    compact p s (a :: l) = compact p (s.push a) l := by
  rw [compact, List.foldl_cons, if_pos h]
  rfl

theorem compact_cons_of_neg (h : ¬ p a = true) : compact p s (a :: l) = compact p s l := by
  rw [compact, List.foldl_cons, if_neg h]
  rfl

theorem compact_count : (compact p s l).count = s.count + (l.filter p).length := by
  induction l generalizing s with
  | nil => rfl
  | cons a l ih =>
    by_cases h : p a
    · rw [compact_cons_of_pos h, ih, List.filter_cons_of_pos h, List.length_cons]
      exact Nat.succ_add_eq_add_succ ..
    · rw [compact_cons_of_neg h, ih, List.filter_cons_of_neg h]

theorem compact_slot_of_lt {k : Nat} (hk : k < s.count) : (compact p s l).slot k = s.slot k := by
  induction l generalizing s with
  | nil => rfl
  | cons a l ih =>
    by_cases h : p a
    · rw [compact_cons_of_pos h, ih (Nat.lt_succ_of_lt hk)]
      exact Function.update_of_ne (Nat.ne_of_lt hk) ..
    · rw [compact_cons_of_neg h, ih hk]

theorem compact_slot (k : Nat) (hk : k < (l.filter p).length) :
    (compact p s l).slot (s.count + k) = (l.filter p)[k] := by
  induction l generalizing s k with
  | nil => exact absurd hk (Nat.not_lt_zero k)
  | cons a l ih =>
    by_cases h : p a
    · simp only [List.filter_cons_of_pos h] at hk ⊢
      rw [compact_cons_of_pos h]
      cases k with
      | zero =>
        rw [compact_slot_of_lt (Nat.lt_succ_self _)]
        exact Function.update_self ..
      | succ k =>
        have hs := @ih (s.push a) k (Nat.lt_of_succ_lt_succ hk)
        rwa [show (s.push a).count + k = s.count + (k + 1) from Nat.succ_add_eq_add_succ ..] at hs
    · simp only [List.filter_cons_of_neg h] at hk ⊢
      rw [compact_cons_of_neg h]
      exact ih k hk

/-- The filled slots enumerate the numbers with `q`, in increasing order. -/
structure Enumerates (n : Nat) (slot : Nat → Nat) (q : Nat → Prop) : Prop where
  increasing : ∀ k k', k < k' → k' < n → slot k < slot k'
  sound : ∀ k < n, q (slot k)
  complete : ∀ j, q j → ∃ k < n, slot k = j

theorem enumerates_compact (p : Nat → Bool) (slot : Nat → Nat) (size : Nat) :
    Enumerates (compact p ⟨0, slot⟩ (List.range size)).count
      (compact p ⟨0, slot⟩ (List.range size)).slot (fun j => j < size ∧ p j = true) := by
  have hcount : (compact p ⟨0, slot⟩ (List.range size)).count =
      ((List.range size).filter p).length := by
    rw [compact_count, Nat.zero_add]
  have hslot : ∀ k (hk : k < ((List.range size).filter p).length),
      (compact p ⟨0, slot⟩ (List.range size)).slot k = ((List.range size).filter p)[k] := by
    intro k hk
    have h := @compact_slot _ p ⟨0, slot⟩ _ k hk
    rwa [Nat.zero_add] at h
  rw [hcount]
  constructor
  · intro k k' hlt hk'
    rw [hslot k (hlt.trans hk'), hslot k' hk']
    exact List.pairwise_iff_getElem.mp (List.Pairwise.filter _ List.pairwise_lt_range) k k' _ _ hlt
  · intro k hk
    have h := List.mem_filter.mp (List.getElem_mem hk)
    rw [hslot k hk]
    exact ⟨List.mem_range.mp h.1, h.2⟩
  · rintro j ⟨hj, hp⟩
    obtain ⟨k, hk, hkj⟩ := List.mem_iff_getElem.mp
      (List.mem_filter.mpr ⟨List.mem_range.mpr hj, hp⟩)
    exact ⟨k, hk, (hslot k hk).trans hkj⟩

variable {n : Nat} {slot : Nat → Nat} {q : Nat → Prop}

theorem Enumerates.injective (h : Enumerates n slot q) {k k' : Nat} (hk : k < n) (hk' : k' < n)
    (he : slot k = slot k') : k = k' := by
  rcases Nat.lt_trichotomy k k' with hlt | heq | hlt
  · exact absurd he (Nat.ne_of_lt (h.increasing k k' hlt hk'))
  · exact heq
  · exact absurd he.symm (Nat.ne_of_lt (h.increasing k' k hlt hk))

theorem Enumerates.le_slot (h : Enumerates n slot q) {k : Nat} (hk : k < n) : k ≤ slot k := by
  induction k with
  | zero => exact Nat.zero_le _
  | succ k ih =>
    have hlt := h.increasing k (k + 1) (Nat.lt_succ_self k) hk
    have hle := ih ((Nat.lt_succ_self k).trans hk)
    omega

/-- Slot `k` holds `k` throughout when the numbers with `q` are an initial segment, and only
then. -/
theorem Enumerates.slot_eq_iff (h : Enumerates n slot q) :
    (∀ k < n, slot k = k) ↔ ∀ j, q j → ∀ i < j, q i := by
  constructor
  · intro hid j hj i hi
    obtain ⟨k, hk, rfl⟩ := h.complete j hj
    rw [hid k hk] at hi
    rw [← hid i (hi.trans hk)]
    exact h.sound i (hi.trans hk)
  · intro hseg k
    induction k using Nat.strong_induction_on with
    | _ k ih =>
      intro hk
      by_contra hne
      have hlt : k < slot k := Nat.lt_of_le_of_ne (h.le_slot hk) (Ne.symm hne)
      obtain ⟨k', hk', he⟩ := h.complete k (hseg _ (h.sound k hk) k hlt)
      have hless : k' < k := by
        by_contra hge
        rcases Nat.lt_or_eq_of_le (Nat.not_lt.mp hge) with hgt | heq
        · have := h.increasing k k' hgt hk'
          omega
        · rw [← heq] at he
          exact hne he
      exact absurd (ih k' hless hk') (by omega)

end Compaction
