import Mathlib.Data.List.Basic
import Mathlib.Algebra.Order.Group.Nat

namespace SampleStream

variable {β : Type}

/-- Apply `f` to the complete samples of `size` cells, the first of which has number `k`.
A sample that is cut short at the end is dropped. -/
def mapFrom (f : Nat → List β → List β) (size k : Nat) (xs : List β) : List β :=
  (List.range (xs.length / size)).flatMap fun i => f (k + i) ((xs.drop (i * size)).take size)

variable {f : Nat → List β → List β} {size : Nat}

theorem mapFrom_nil (k : Nat) : mapFrom f size k [] = [] := by
  simp [mapFrom]

theorem flatMap_length_eq (g : Nat → List β) (m n : Nat) (h : ∀ i < n, (g i).length = m) :
    ((List.range n).flatMap g).length = n * m := by
  induction n with
  | zero => simp
  | succ n ih =>
    rw [List.range_succ, List.flatMap_append, List.length_append, ih (fun i hi => h i (by omega))]
    simp [h n (by omega), Nat.succ_mul]

theorem sample_length {xs : List β} {i : Nat} (hi : i < xs.length / size) :
    ((xs.drop (i * size)).take size).length = size := by
  have hm : (i + 1) * size ≤ xs.length :=
    (Nat.mul_le_mul_right size hi).trans (Nat.div_mul_le_self _ _)
  rw [Nat.succ_mul] at hm
  rw [List.length_take, List.length_drop]
  omega

theorem mapFrom_length (hf : ∀ k x, x.length = size → (f k x).length = size) (k : Nat)
    (xs : List β) : (mapFrom f size k xs).length = xs.length / size * size :=
  flatMap_length_eq _ size _ fun _ hi => hf _ _ (sample_length hi)

/-- Cutting the input between two samples cuts the output. -/
theorem mapFrom_append (hs : 0 < size) (k : Nat) {xs : List β} (hx : size ∣ xs.length)
    (ys : List β) :
    mapFrom f size k (xs ++ ys) = mapFrom f size k xs ++ mapFrom f size (k + xs.length / size) ys := by
  obtain ⟨m, hm⟩ := hx
  have hd : xs.length / size = m := by rw [hm, Nat.mul_div_cancel_left m hs]
  have hl : (xs ++ ys).length / size = m + ys.length / size := by
    rw [List.length_append, hm, Nat.mul_add_div hs]
  unfold mapFrom
  rw [hl, hd, List.range_add, List.flatMap_append, List.flatMap_map]
  congr 1
  · apply List.flatMap_congr
    intro i hi
    have him : i < m := List.mem_range.mp hi
    have hb : (i + 1) * size ≤ m * size := Nat.mul_le_mul_right size him
    rw [Nat.succ_mul, Nat.mul_comm m size] at hb
    rw [List.drop_append_of_le_length (by omega), List.take_append_of_le_length]
    rw [List.length_drop]
    omega
  · apply List.flatMap_congr
    intro i _
    have he : (m + i) * size = xs.length + i * size := by rw [hm, Nat.add_mul, Nat.mul_comm m size]
    rw [he, Nat.add_assoc, List.drop_length_add_append]

theorem mapFrom_sample_append (hs : 0 < size) (k : Nat) {x : List β} (hx : x.length = size)
    (ys : List β) : mapFrom f size k (x ++ ys) = f k x ++ mapFrom f size (k + 1) ys := by
  have hone : x.length / size = 1 := by rw [hx, Nat.div_self hs]
  rw [mapFrom_append hs k ⟨1, by rw [hx, Nat.mul_one]⟩, hone]
  congr 1
  rw [mapFrom, hone]
  simp [List.take_of_length_le hx.le]

/-- The output for a stream cut at a sample is a prefix of the output for the stream. -/
theorem mapFrom_take_prefix (hs : 0 < size) (k n : Nat) (xs : List β) (hn : size ∣ n) :
    mapFrom f size k (xs.take n) <+: mapFrom f size k xs := by
  rcases Nat.lt_or_ge n xs.length with hlt | hge
  · have hx : size ∣ (xs.take n).length := by rwa [List.length_take, Nat.min_eq_left hlt.le]
    have h := mapFrom_append (f := f) hs k hx (xs.drop n)
    rw [List.take_append_drop] at h
    exact ⟨_, h.symm⟩
  · exact ⟨[], by rw [List.append_nil, List.take_of_length_le hge]⟩

/-- What is left over behind the last complete sample does not count. -/
theorem mapFrom_take_whole (hs : 0 < size) (k : Nat) (xs : List β) :
    mapFrom f size k (xs.take (xs.length - xs.length % size)) = mapFrom f size k xs := by
  have hlt := Nat.mod_lt xs.length hs
  have hle := Nat.mod_le xs.length size
  have hx : size ∣ (xs.take (xs.length - xs.length % size)).length := by
    rw [List.length_take, Nat.min_eq_left (Nat.sub_le _ _)]
    exact Nat.dvd_sub_mod _
  have h := mapFrom_append (f := f) hs k hx (xs.drop (xs.length - xs.length % size))
  have hnil : mapFrom f size (k + (xs.take (xs.length - xs.length % size)).length / size)
      (xs.drop (xs.length - xs.length % size)) = [] := by
    apply List.eq_nil_of_length_eq_zero
    have hd : (xs.drop (xs.length - xs.length % size)).length / size = 0 := by
      rw [List.length_drop]
      exact Nat.div_eq_of_lt (by omega)
    rw [mapFrom, hd]
    rfl
  rw [List.take_append_drop, hnil, List.append_nil] at h
  exact h.symm

/-- A function that looks at the index modulo `m` does not tell congruent starts apart. -/
theorem mapFrom_mod (g : Nat → List β → List β) (m k : Nat) (xs : List β) :
    mapFrom (fun i => g (i % m)) size (k % m) xs = mapFrom (fun i => g (i % m)) size k xs := by
  simp only [mapFrom, Nat.mod_add_mod]

end SampleStream
