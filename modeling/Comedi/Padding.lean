import Mathlib.Data.List.Induction
import Mathlib.Tactic.Ring

namespace Padding

variable {α : Type} (front n period : Nat)

/-- The elements in the window of each period, from a position on. -/
def unpad (pos : Nat) : List α → List α
  | [] => []
  | x :: xs =>
    if front ≤ pos ∧ pos < front + n then x :: unpad ((pos + 1) % period) xs
    else unpad ((pos + 1) % period) xs

/-- How many of the first `m` elements are in a window. -/
def kept (m : Nat) : Nat := m / period * n + min n (m % period - front)

/-- Where the `k`-th element of a window has been. -/
def place (k : Nat) : Nat := k / n * period + front + k % n

variable {front n period} {pos m k : Nat} {x : α} {xs ys : List α}

theorem unpad_cons : unpad front n period pos (x :: xs) =
    (if front ≤ pos ∧ pos < front + n then [x] else []) ++
      unpad front n period ((pos + 1) % period) xs := by
  rw [unpad]
  split
  · rfl
  · rfl

theorem unpad_sublist : (unpad front n period pos xs).Sublist xs := by
  induction xs generalizing pos with
  | nil => exact List.Sublist.refl _
  | cons x xs ih =>
    rw [unpad]
    split
    · exact ih.cons_cons x
    · exact ih.cons x

theorem unpad_append (hpos : pos < period) : unpad front n period pos (xs ++ ys) =
    unpad front n period pos xs ++ unpad front n period ((pos + xs.length) % period) ys := by
  induction xs generalizing pos with
  | nil =>
    rw [List.nil_append, List.length_nil, Nat.add_zero, Nat.mod_eq_of_lt hpos]
    rfl
  | cons x xs ih =>
    have hnext : (pos + 1) % period < period := Nat.mod_lt _ (by omega)
    rw [List.cons_append, unpad_cons, unpad_cons, ih hnext, List.append_assoc, List.length_cons,
      Nat.mod_add_mod, Nat.add_right_comm, Nat.add_assoc]

theorem unpad_concat (hperiod : 0 < period) : unpad front n period 0 (xs ++ [x]) =
    unpad front n period 0 xs ++
      if front ≤ xs.length % period ∧ xs.length % period < front + n then [x] else [] := by
  rw [unpad_append hperiod, Nat.zero_add, unpad_cons]
  exact congrArg _ (List.append_nil _)

theorem mod_succ (hperiod : 0 < period) (m : Nat) :
    (m % period + 1 < period ∧ (m + 1) / period = m / period ∧
        (m + 1) % period = m % period + 1) ∨
      (m % period + 1 = period ∧ (m + 1) / period = m / period + 1 ∧ (m + 1) % period = 0) := by
  have hlt := Nat.mod_lt m hperiod
  have hm := Nat.div_add_mod m period
  rcases Nat.lt_or_ge (m % period + 1) period with hmore | hlast
  · left
    have hsum : m + 1 = m % period + 1 + period * (m / period) := by omega
    have hdiv : (m % period + 1 + period * (m / period)) / period = m / period := by
      rw [Nat.add_mul_div_left _ _ hperiod, Nat.div_eq_of_lt hmore, Nat.zero_add]
    have hmod : (m % period + 1 + period * (m / period)) % period = m % period + 1 := by
      rw [Nat.add_mul_mod_self_left, Nat.mod_eq_of_lt hmore]
    exact ⟨hmore, (congrArg (· / period) hsum).trans hdiv, (congrArg (· % period) hsum).trans hmod⟩
  · right
    have heq : m % period + 1 = period := by omega
    have hsum : m + 1 = period * (m / period + 1) := by
      rw [Nat.mul_add, Nat.mul_one]
      omega
    have hdiv : period * (m / period + 1) / period = m / period + 1 :=
      Nat.mul_div_cancel_left _ hperiod
    exact ⟨heq, (congrArg (· / period) hsum).trans hdiv,
      (congrArg (· % period) hsum).trans (Nat.mul_mod_right ..)⟩

theorem kept_succ (hperiod : 0 < period) (hfits : front + n ≤ period) (m : Nat) :
    kept front n period (m + 1) = kept front n period m +
      if front ≤ m % period ∧ m % period < front + n then 1 else 0 := by
  unfold kept
  rcases mod_succ hperiod m with ⟨hmore, hdiv, hmod⟩ | ⟨hlast, hdiv, hmod⟩
  · rw [hdiv, hmod]
    split <;> omega
  · rw [hdiv, hmod, Nat.add_mul, Nat.one_mul, Nat.zero_sub, Nat.min_zero, Nat.add_zero]
    split <;> omega

/-- Nothing else is kept. -/
theorem unpad_length (hperiod : 0 < period) (hfits : front + n ≤ period) :
    (unpad front n period 0 xs).length = kept front n period xs.length := by
  induction xs using List.reverseRecOn with
  | nil => simp [unpad, kept]
  | append_singleton xs x ih =>
    rw [unpad_concat hperiod, List.length_append, ih, List.length_append, List.length_singleton,
      kept_succ hperiod hfits]
    split <;> rfl

theorem place_kept (hinside : front ≤ m % period ∧ m % period < front + n) :
    place front n period (kept front n period m) = m := by
  obtain ⟨hle, hlt⟩ := hinside
  have hm := Nat.div_add_mod m period
  have hn : 0 < n := by omega
  have hsum : kept front n period m = m % period - front + n * (m / period) := by
    unfold kept
    rw [Nat.min_eq_right (by omega), Nat.mul_comm n, Nat.add_comm]
  unfold place
  rw [hsum, Nat.add_mul_div_left _ _ hn, Nat.add_mul_mod_self_left, Nat.div_eq_of_lt (by omega),
    Nat.mod_eq_of_lt (by omega), Nat.zero_add, Nat.mul_comm (m / period)]
  omega

/-- The elements that are kept are those of the windows, in order. -/
theorem unpad_getElem (hperiod : 0 < period) (hfits : front + n ≤ period)
    (hk : k < (unpad front n period 0 xs).length) : place front n period k < xs.length ∧
      (unpad front n period 0 xs)[k]? = xs[place front n period k]? := by
  induction xs using List.reverseRecOn with
  | nil => exact absurd hk (Nat.not_lt_zero k)
  | append_singleton xs x ih =>
    rw [unpad_concat hperiod] at hk ⊢
    rw [List.length_append, List.length_singleton]
    by_cases hbefore : k < (unpad front n period 0 xs).length
    · obtain ⟨hplace, hsame⟩ := ih hbefore
      refine ⟨Nat.lt_succ_of_lt hplace, ?_⟩
      rw [List.getElem?_append_left hbefore, List.getElem?_append_left hplace, hsame]
    · by_cases hinside : front ≤ xs.length % period ∧ xs.length % period < front + n
      · rw [if_pos hinside] at hk ⊢
        rw [List.length_append, List.length_singleton] at hk
        have hlast : k = (unpad front n period 0 xs).length := by omega
        have hplace := place_kept hinside
        rw [← unpad_length hperiod hfits, ← hlast] at hplace
        rw [hplace, hlast, List.getElem?_concat_length, List.getElem?_concat_length]
        exact ⟨Nat.lt_succ_self _, rfl⟩
      · rw [if_neg hinside, List.append_nil] at hk
        exact absurd hk hbefore

end Padding
