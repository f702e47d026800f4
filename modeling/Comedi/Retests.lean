import Mathlib.Logic.Function.Iterate

namespace Comedi.Retests

variable {α β : Type*} {test : α → Int × α} {test' : β → Int × β} {P : α → Prop} {Q : β → Prop}
  {x : α}

/-- The request after `n` tests, each given what the one before made of the request. -/
def again (test : α → Int × α) (n : Nat) : α → α := (fun x => (test x).2)^[n]

/-- One of the first `n` tests accepts the request, and `P` holds of it there. -/
def Settles (test : α → Int × α) (P : α → Prop) (n : Nat) (x : α) : Prop :=
  ∃ k < n, (test (again test k x)).1 = 0 ∧ P (again test k x)

/-- An accepted request is left as it is. -/
def Stable (test : α → Int × α) : Prop := ∀ x, (test x).1 = 0 → (test x).2 = x

@[simp] theorem again_zero (x : α) : again test 0 x = x := rfl

@[simp] theorem again_succ (n : Nat) (x : α) :
    again test (n + 1) x = again test n (test x).2 := rfl

@[simp] theorem not_settles_zero (x : α) : ¬ Settles test P 0 x := fun ⟨_, hk, _⟩ => by omega

theorem settles_now (h : (test x).1 = 0) (hP : P x) (n : Nat) : Settles test P (n + 1) x :=
  ⟨0, Nat.succ_pos n, h, hP⟩

theorem Settles.next {n : Nat} (h : Settles test P n (test x).2) : Settles test P (n + 1) x := by
  obtain ⟨k, hk, hret, hP⟩ := h
  exact ⟨k + 1, by omega, hret, hP⟩

theorem Settles.mono {n n' : Nat} (h : Settles test P n x) (hle : n ≤ n') :
    Settles test P n' x := by
  obtain ⟨k, hk, hret, hP⟩ := h
  exact ⟨k, by omega, hret, hP⟩

theorem Stable.again_eq (hstable : Stable test) {x : α} (h : (test x).1 = 0) (n : Nat) :
    again test n x = x := by
  induction n with
  | zero => rfl
  | succ n ih => rw [again_succ, hstable x h, ih]

theorem settles_of_accepted (hstable : Stable test) {x : α} (h : (test x).1 = 0) (n : Nat) :
    Settles test P (n + 1) x ↔ P x := by
  constructor
  · rintro ⟨k, -, -, hP⟩
    rwa [hstable.again_eq h] at hP
  · exact fun hP => ⟨0, by omega, h, hP⟩

theorem settles_of_amended {x : α} (h : (test x).1 ≠ 0) (n : Nat) :
    Settles test P (n + 1) x ↔ Settles test P n (test x).2 := by
  constructor
  · rintro ⟨k, hk, hret, hP⟩
    cases k with
    | zero => exact absurd hret h
    | succ k => exact ⟨k, by omega, hret, hP⟩
  · rintro ⟨k, hk, hret, hP⟩
    exact ⟨k + 1, by omega, hret, hP⟩

/-- What no test makes hold, and what holds of the requests that are accepted, holds of those that
settle. -/
theorem reach_of_settles {Ok Reach : α → Prop} (hok : ∀ x, Ok x → Ok (test x).2)
    (hback : ∀ x, Ok x → Reach (test x).2 → Reach x)
    (hdone : ∀ x, Ok x → (test x).1 = 0 → P x → Reach x) {n : Nat} (hx : Ok x)
    (h : Settles test P n x) : Reach x := by
  obtain ⟨k, -, hret, hP⟩ := h
  induction k generalizing x with
  | zero => exact hdone x hx hret hP
  | succ k ih => exact hback x hx (ih (hok x hx) hret hP)

/-- Two tests that go step by step together settle together. -/
theorem settles_iff_of_simulation {R : α → β → Prop}
    (hret : ∀ x y, R x y → ((test x).1 = 0 ↔ (test' y).1 = 0))
    (hstep : ∀ x y, R x y → R (test x).2 (test' y).2)
    (hP : ∀ x y, R x y → (test x).1 = 0 → (P x ↔ Q y)) {x : α} {y : β} (h : R x y) (n : Nat) :
    Settles test P n x ↔ Settles test' Q n y := by
  have hagain : ∀ k, R (again test k x) (again test' k y) := by
    intro k
    induction k generalizing x y with
    | zero => exact h
    | succ k ih => exact ih (hstep x y h)
  constructor
  · rintro ⟨k, hk, hx, hPx⟩
    exact ⟨k, hk, (hret _ _ (hagain k)).mp hx, (hP _ _ (hagain k) hx).mp hPx⟩
  · rintro ⟨k, hk, hy, hQy⟩
    have hx := (hret _ _ (hagain k)).mpr hy
    exact ⟨k, hk, hx, (hP _ _ (hagain k) hx).mpr hQy⟩

/-- One of the first `n` tests accepts the request, and `P` holds wherever it is accepted. -/
def Sure (test : α → Int × α) (P : α → Prop) (n : Nat) (x : α) : Prop :=
  Settles test P n x ∧ ∀ k, (test (again test k x)).1 = 0 → P (again test k x)

theorem sure_of_amended {x : α} (h : (test x).1 ≠ 0) (n : Nat) :
    Sure test P (n + 1) x ↔ Sure test P n (test x).2 := by
  refine and_congr (settles_of_amended h n) ⟨fun hall k => hall (k + 1), fun hall k => ?_⟩
  cases k with
  | zero => exact fun hret => absurd hret h
  | succ k => exact hall k

theorem not_sure {x : α} (h : (test x).1 = 0) (hP : ¬ P x) (n : Nat) : ¬ Sure test P n x :=
  fun hsure => hP (hsure.2 0 h)

theorem sure_of_kept {x : α} (h : (test x).1 = 0) (hkept : (test x).2 = x) (n : Nat) :
    Sure test P (n + 1) x ↔ P x := by
  have hagain : ∀ k, again test k x = x := by
    intro k
    induction k with
    | zero => rfl
    | succ k ih => rw [again_succ, hkept, ih]
  refine ⟨fun hsure => hsure.2 0 h, fun hP => ⟨settles_now h hP n, fun k _ => ?_⟩⟩
  rwa [hagain k]

section Lasting

variable {Ok : α → Prop} (hok : ∀ x, Ok x → Ok (test x).2)
  (hkept : ∀ x, Ok x → (test x).1 = 0 → (test x).2 = x)

include hok hkept

/-- What is accepted lasts, so that it is enough to look at a later request. -/
theorem sure_of_later {k n : Nat} (hk : k < n) (hx : Ok x)
    (hret : (test (again test k x)).1 = 0) : Sure test P n x ↔ P (again test k x) := by
  induction k generalizing x n with
  | zero =>
    obtain ⟨n, rfl⟩ : ∃ m, n = m + 1 := ⟨n - 1, by omega⟩
    exact sure_of_kept hret (hkept x hx hret) n
  | succ k ih =>
    obtain ⟨n, rfl⟩ : ∃ m, n = m + 1 := ⟨n - 1, by omega⟩
    by_cases hnow : (test x).1 = 0
    · have hsame := hkept x hx hnow
      rw [again_succ, hsame] at hret ⊢
      exact ih (by omega) hx hret
    · rw [sure_of_amended hnow, again_succ]
      exact ih (by omega) (hok x hx) hret

/-- A request that is sent back as it is was not accepted before. -/
theorem not_settles_of_later {k : Nat} (hx : Ok x) (hret : (test (again test k x)).1 ≠ 0)
    (hsame : (test (again test k x)).2 = again test k x) (n : Nat) : ¬ Settles test P n x := by
  induction k generalizing x n with
  | zero =>
    induction n with
    | zero => exact not_settles_zero x
    | succ n ih =>
      have hnow : (test x).1 ≠ 0 := hret
      have hfixed : (test x).2 = x := hsame
      rwa [settles_of_amended hnow, hfixed]
  | succ k ih =>
    by_cases hnow : (test x).1 = 0
    · rw [again_succ, hkept x hx hnow] at hret hsame
      exact ih hx hret hsame n
    · cases n with
      | zero => exact not_settles_zero x
      | succ n =>
        rw [settles_of_amended hnow]
        exact ih (hok x hx) hret hsame n

end Lasting

/-- A test that puts arguments right in a first stage and, where there was nothing wrong, rounds
them in a second one. A request for which `Reach` holds is then accepted. -/
structure Stages (test : α → Int × α) (fix round : α → Bool × α) (Ok P Reach : α → Prop) : Prop where
  test_eq : ∀ x, Ok x → test x =
    if (fix x).1 then (3, (fix x).2) else (if (round x).1 then 4 else 0, (round x).2)
  ok_fix : ∀ x, Ok x → Ok (fix x).2
  ok_round : ∀ x, Ok x → Ok (round x).2
  reach_fix : ∀ x, Ok x → Reach x → Reach (fix x).2
  fixed : ∀ x, Ok x → Reach x → (fix (fix x).2).1 = false
  rounded : ∀ x, Ok x → (fix x).1 = false → Reach x →
    (fix (round x).2).1 = false ∧ (round (round x).2).1 = false ∧ P (round x).2

/-- No stage makes `Reach` hold, and it holds of what is accepted. -/
structure Tight (fix round : α → Bool × α) (Ok P Reach : α → Prop) : Prop where
  reach_of_fix : ∀ x, Ok x → Reach (fix x).2 → Reach x
  reach_of_round : ∀ x, Ok x → (fix x).1 = false → Reach (round x).2 → Reach x
  reach_of_passed : ∀ x, Ok x → (fix x).1 = false → (round x).1 = false → P x → Reach x

namespace Stages

variable {fix round : α → Bool × α} {Ok Reach : α → Prop}
  (h : Stages test fix round Ok P Reach)

include h

theorem accepted_iff (hx : Ok x) :
    (test x).1 = 0 ↔ (fix x).1 = false ∧ (round x).1 = false := by
  rw [h.test_eq x hx]
  cases hfix : (fix x).1 with
  | true => exact iff_of_false (by decide : ¬ (3 : Int) = 0) nofun
  | false =>
    cases hround : (round x).1 with
    | true => exact iff_of_false (by decide : ¬ (4 : Int) = 0) nofun
    | false => exact iff_of_true rfl ⟨rfl, rfl⟩

theorem ok_test (hx : Ok x) : Ok (test x).2 := by
  rw [h.test_eq x hx]
  split
  · exact h.ok_fix x hx
  · exact h.ok_round x hx

/-- Two tests are enough for a request that needs no more than rounding. -/
theorem settles_of_fixed (hx : Ok x) (hfix : (fix x).1 = false) (hreach : Reach x) :
    Settles test P 2 x := by
  obtain ⟨hfix', hround', hP⟩ := h.rounded x hx hfix hreach
  refine Settles.next ?_
  rw [h.test_eq x hx, hfix]
  exact settles_now ((h.accepted_iff (h.ok_round x hx)).mpr ⟨hfix', hround'⟩) hP 0

theorem settles_of_reach (hx : Ok x) (hreach : Reach x) : Settles test P 3 x := by
  by_cases hfix : (fix x).1 = true
  · refine Settles.next ?_
    rw [h.test_eq x hx, if_pos hfix]
    exact h.settles_of_fixed (h.ok_fix x hx) (h.fixed x hx hreach) (h.reach_fix x hx hreach)
  · exact (h.settles_of_fixed hx (Bool.eq_false_iff.mpr hfix) hreach).mono (Nat.le_succ 2)

theorem reach_of_test (ht : Tight fix round Ok P Reach) (hx : Ok x) (hreach : Reach (test x).2) :
    Reach x := by
  rw [h.test_eq x hx] at hreach
  split at hreach
  · exact ht.reach_of_fix x hx hreach
  next hfix => exact ht.reach_of_round x hx (Bool.eq_false_iff.mpr hfix) hreach

/-- Three tests accept a request, or none ever does. -/
theorem settles_iff_reach (ht : Tight fix round Ok P Reach) (hx : Ok x) {n : Nat} (hn : 3 ≤ n) :
    Settles test P n x ↔ Reach x := by
  refine ⟨reach_of_settles (fun _ => h.ok_test) (fun _ => h.reach_of_test ht) ?_ hx,
    fun hreach => (h.settles_of_reach hx hreach).mono hn⟩
  intro y hy hret hP
  obtain ⟨hfix, hround⟩ := (h.accepted_iff hy).mp hret
  exact ht.reach_of_passed y hy hfix hround hP

end Stages

end Comedi.Retests
