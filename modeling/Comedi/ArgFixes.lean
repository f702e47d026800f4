import Mathlib.Order.Monotone.Basic
import Mathlib.Order.Lattice

namespace Comedi.ArgFixes

section Fixes

variable {α : Type*}

/-- A request's argument is replaced where it is bad; whether it was. -/
def put (bad : Prop) [Decidable bad] (value arg : α) : Bool × α :=
  if bad then (true, value) else (false, arg)

def only [DecidableEq α] (value arg : α) : Bool × α := put (arg ≠ value) value arg

def within [LT α] [DecidableLT α] (lo hi arg : α) : Bool × α :=
  let low := put (arg < lo) lo arg
  let high := put (hi < low.2) hi low.2
  (low.1 || high.1, high.2)

variable {bad : Prop} [Decidable bad] {value arg lo hi : α}

theorem put_of_not (h : ¬ bad) : put bad value arg = (false, arg) := if_neg h

theorem put_of (h : bad) : put bad value arg = (true, value) := if_pos h

theorem put_snd_cases : (put bad value arg).2 = value ∨ ¬ bad ∧ (put bad value arg).2 = arg := by
  by_cases h : bad
  · exact .inl (congrArg Prod.snd (put_of h))
  · exact .inr ⟨h, congrArg Prod.snd (put_of_not h)⟩

theorem put_eq_false : (put bad value arg).1 = false ↔ ¬ bad := by
  unfold put
  split
  next h => exact iff_of_false nofun (not_not.mpr h)
  next h => exact iff_of_true rfl h

theorem put_kept (h : (put bad value arg).1 = false) : (put bad value arg).2 = arg := by
  rw [put_of_not (put_eq_false.mp h)]

theorem only_eq_false [DecidableEq α] : (only value arg).1 = false ↔ arg = value :=
  put_eq_false.trans not_not

theorem only_eq_true [DecidableEq α] : (only value arg).1 = true ↔ arg ≠ value :=
  (Bool.not_eq_false _).to_iff.symm.trans (not_congr only_eq_false)

theorem only_snd [DecidableEq α] : (only value arg).2 = value := by
  unfold only put
  split
  · rfl
  next h => exact not_not.mp h

theorem within_eq_false [LT α] [DecidableLT α] :
    (within lo hi arg).1 = false ↔ ¬ arg < lo ∧ ¬ hi < arg := by
  unfold within
  dsimp only
  rw [Bool.or_eq_false_iff, put_eq_false]
  refine and_congr_right fun h => ?_
  rw [put_of_not h, put_eq_false]

theorem within_kept [LT α] [DecidableLT α] (h : (within lo hi arg).1 = false) :
    (within lo hi arg).2 = arg := by
  obtain ⟨hlow, hhigh⟩ := within_eq_false.mp h
  unfold within
  dsimp only
  rw [put_of_not hlow, put_of_not hhigh]

/-- A fix that tells when it changes the argument, and has nothing to do a second time. -/
structure Sound (fix : α → Bool × α) : Prop where
  kept : ∀ a, (fix a).1 = false → (fix a).2 = a
  done : ∀ a, (fix (fix a).2).1 = false

theorem sound_replace [DecidableEq α] {g : α → α} (h : ∀ a, g (g a) = g a) :
    Sound fun a => only (g a) a where
  kept _ := put_kept
  done a := by
    rw [only_eq_false, only_snd, h]

theorem sound_only [DecidableEq α] (value : α) : Sound (only value) :=
  @sound_replace α _ (fun _ => value) fun _ => rfl

theorem sound_put (bad : α → Prop) [DecidablePred bad] (h : ¬ bad value) :
    Sound fun a => put (bad a) value a where
  kept _ := put_kept
  done a := by
    rw [put_eq_false]
    unfold put
    split
    · exact h
    next hgood => exact hgood

/-- An argument that is brought to the least one allowed. -/
def raise [LT α] [DecidableLT α] (least arg : α) : α := (put (arg < least) least arg).2

theorem raise_of_lt [LT α] [DecidableLT α] (h : arg < lo) : raise lo arg = lo :=
  congrArg Prod.snd (put_of h)

theorem raise_of_not [LT α] [DecidableLT α] (h : ¬ arg < lo) : raise lo arg = arg :=
  congrArg Prod.snd (put_of_not h)

theorem not_raise_lt [LT α] [DecidableLT α] (hirr : ¬ lo < lo) (arg : α) : ¬ raise lo arg < lo := by
  by_cases h : arg < lo
  · rwa [raise_of_lt h]
  · rwa [raise_of_not h]

theorem raise_raise [LT α] [DecidableLT α] (hirr : ¬ lo < lo) (arg : α) :
    raise lo (raise lo arg) = raise lo arg := raise_of_not (not_raise_lt hirr arg)

theorem sound_within [LT α] [DecidableLT α] (h : ∀ a, ¬ (within lo hi a).2 < lo)
    (h' : ∀ a, ¬ hi < (within lo hi a).2) : Sound (within lo hi) where
  kept _ := within_kept
  done a := within_eq_false.mpr ⟨h a, h' a⟩

theorem sound_ite {p : Prop} [Decidable p] {f g : α → Bool × α} (hf : Sound f) (hg : Sound g) :
    Sound fun a => if p then f a else g a := by
  by_cases hp : p
  · simpa only [if_pos hp] using hf
  · simpa only [if_neg hp] using hg

theorem sound_keep : Sound fun a : α => (false, a) := ⟨fun _ _ => rfl, fun _ => rfl⟩

end Fixes

section Limits

variable {α : Type*} [LinearOrder α] {lo hi x x' : α} {round : α → α}

def clamp (lo hi x : α) : α := min (max x lo) hi

section Ordered

variable {β : Type*} [LT β] [DecidableLT β] {f : β → α} (hf : ∀ a b, f a < f b ↔ a < b)

include hf

theorem put_low (low arg : β) : f (put (arg < low) low arg).2 = max (f arg) (f low) := by
  unfold put
  split
  next h => exact (max_eq_right ((hf _ _).mpr h).le).symm
  next h => exact (max_eq_left (not_lt.mp (mt (hf _ _).mp h))).symm

theorem put_high (high arg : β) : f (put (high < arg) high arg).2 = min (f arg) (f high) := by
  unfold put
  split
  next h => exact (min_eq_right ((hf _ _).mpr h).le).symm
  next h => exact (min_eq_left (not_lt.mp (mt (hf _ _).mp h))).symm

theorem within_snd (low high arg : β) :
    f (within low high arg).2 = clamp (f low) (f high) (f arg) := by
  unfold within clamp
  rw [← put_low hf]
  exact put_high hf _ _

end Ordered

theorem clamp_le (lo hi x : α) : clamp lo hi x ≤ hi := min_le_right _ _

theorem le_clamp (h : lo ≤ hi) (x : α) : lo ≤ clamp lo hi x := le_min (le_max_right x lo) h

theorem clamp_of_mem (hlo : lo ≤ x) (hhi : x ≤ hi) : clamp lo hi x = x := by
  unfold clamp
  rw [max_eq_left hlo, min_eq_left hhi]

theorem clamp_of_le (h : x ≤ lo) (hle : lo ≤ hi) : clamp lo hi x = lo := by
  unfold clamp
  rw [max_eq_right h, min_eq_left hle]

theorem clamp_of_ge (h : hi ≤ x) : clamp lo hi x = hi := min_eq_right (h.trans (le_max_left x lo))

theorem clamp_clamp : clamp lo hi (clamp lo hi x) = clamp lo hi x := by
  rcases le_total lo hi with h | h
  · exact clamp_of_mem (le_clamp h x) (clamp_le lo hi x)
  · have hall : ∀ y, clamp lo hi y = hi := fun y => min_eq_right (h.trans (le_max_right y lo))
    rw [hall, hall]

/-- One test of an argument: it is brought within the limits or, within them, it is rounded. -/
def Tested (round : α → α) (lo hi x x' : α) : Prop :=
  x' = clamp lo hi x ∨ clamp lo hi x = x ∧ x' = round x

/-- Where the tested argument is rounded to one within the limits, so is the argument before. -/
theorem Tested.round_clamp (hmono : Monotone round) (hround : ∀ y, round (round y) = round y)
    (h : Tested round lo hi x x') (hlo : lo ≤ round (clamp lo hi x'))
    (hhi : round (clamp lo hi x') ≤ hi) : round (clamp lo hi x) = round (clamp lo hi x') := by
  rcases h with rfl | ⟨hx, rfl⟩
  · rw [clamp_clamp]
  · have hle : x ≤ hi := hx ▸ clamp_le lo hi x
    have hlohi : lo ≤ hi := hlo.trans hhi
    rw [hx]
    rcases lt_or_ge (round x) lo with hlow | hlow
    · rw [clamp_of_le hlow.le hlohi] at hlo
      have hlox : lo ≤ x := hx ▸ le_clamp hlohi x
      exact absurd (hlo.trans (hmono hlox)) (not_le.mpr hlow)
    rcases lt_or_ge hi (round x) with hhigh | hhigh
    · rw [clamp_of_ge hhigh.le] at hhi
      exact absurd ((hmono hle).trans hhi) (not_le.mpr hhigh)
    · rw [clamp_of_mem hlow hhigh, hround]

/-- An argument that the limits bring back after it was rounded was not rounded past them. -/
theorem round_le_of_le (hmono : Monotone round) (hx : x ≤ hi) (hle : round x ≤ x')
    (hhi : round (clamp lo hi x') ≤ hi) : round x ≤ hi := by
  by_contra hgt
  have hround : hi < round x := not_le.mp hgt
  rw [clamp_of_ge (hround.le.trans hle)] at hhi
  exact hgt ((hmono hx).trans hhi)

end Limits

end Comedi.ArgFixes
