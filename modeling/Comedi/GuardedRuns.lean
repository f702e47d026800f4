import Mathlib.Data.List.Basic

namespace GuardedRuns

variable {σ ι ε : Type} {step : σ → ι → Except ε σ} {fits : σ → ι → Prop}

theorem bind_eq_ok {α β : Type} {x : Except ε α} {f : α → Except ε β} {r : β}
    (h : x >>= f = .ok r) : ∃ y, x = .ok y ∧ f y = .ok r := by
  cases x with
  | ok y => exact ⟨y, rfl, h⟩
  | error e => cases h

theorem bind_ok {α β : Type} {x : Except ε α} {y : α} (h : x = .ok y) (f : α → Except ε β) :
    x >>= f = f y := by
  rw [h]
  rfl

/-- The computation ends without a fault. -/
def Returns {α : Type} (x : Except ε α) : Prop := ∃ y, x = .ok y

theorem returns_ok {α : Type} (y : α) : Returns (.ok y : Except ε α) := ⟨y, rfl⟩

theorem Returns.bind {α β : Type} {x : Except ε α} {f : α → Except ε β} (h : Returns x)
    (hf : ∀ y, x = .ok y → Returns (f y)) : Returns (x >>= f) := by
  obtain ⟨y, hy⟩ := h
  rw [bind_ok hy]
  exact hf y hy

theorem Returns.ite {α : Type} {c : Prop} [Decidable c] {x y : Except ε α} (hx : c → Returns x)
    (hy : ¬ c → Returns y) : Returns (if c then x else y) := by
  split
  · exact hx ‹_›
  · exact hy ‹_›

/-- One step after the other, up to the first fault. -/
def run (step : σ → ι → Except ε σ) : σ → List ι → Except ε σ
  | st, [] => .ok st
  | st, i :: is =>
    match step st i with
    | .ok st' => run step st' is
    | .error e => .error e

/-- Every step of the run fits the state it is taken in. -/
def AllFit (step : σ → ι → Except ε σ) (fits : σ → ι → Prop) : σ → List ι → Prop
  | _, [] => True
  | st, i :: is => fits st i ∧ ∀ st', step st i = .ok st' → AllFit step fits st' is

theorem run_cons_ok {st st' : σ} {i : ι} {is : List ι} (h : step st i = .ok st') :
    run step st (i :: is) = run step st' is := by
  rw [run, h]

theorem run_append (st : σ) (is js : List ι) :
    run step st (is ++ js) =
      match run step st is with
      | .ok st' => run step st' js
      | .error e => .error e := by
  induction is generalizing st with
  | nil => rfl
  | cons i is ih =>
    rw [List.cons_append, run, run]
    cases step st i with
    | ok st' => exact ih st'
    | error e => rfl

/-- A run of steps that act on a part of the state alone can be looked at on that part. -/
theorem run_part {τ : Type} {part : σ → τ} {step' : τ → ι → Except ε τ}
    (h : ∀ st i t, step' (part st) i = .ok t → ∃ st', step st i = .ok st' ∧ part st' = t)
    {st : σ} {is : List ι} {t : τ} (hrun : run step' (part st) is = .ok t) :
    ∃ st', run step st is = .ok st' ∧ part st' = t := by
  induction is generalizing st with
  | nil =>
    cases hrun
    exact ⟨st, rfl, rfl⟩
  | cons i is ih =>
    cases hst : step' (part st) i with
    | error e => simp [run, hst] at hrun
    | ok t₁ =>
      rw [run_cons_ok hst] at hrun
      obtain ⟨st₁, he, rfl⟩ := h st i t₁ hst
      rw [run_cons_ok he]
      exact ih hrun

theorem AllFit.cons {st st' : σ} {i : ι} {is : List ι} (hi : fits st i) (h : step st i = .ok st')
    (his : AllFit step fits st' is) : AllFit step fits st (i :: is) := by
  refine ⟨hi, fun st₁ h₁ => ?_⟩
  rw [h] at h₁
  cases h₁
  exact his

theorem AllFit.of_forall {is : List ι} (h : ∀ i ∈ is, ∀ st, fits st i) (st : σ) :
    AllFit step fits st is := by
  induction is generalizing st with
  | nil => trivial
  | cons i is ih =>
    rw [List.forall_mem_cons] at h
    exact ⟨h.1 st, fun st' _ => ih h.2 st'⟩

theorem AllFit.congr {fits' : σ → ι → Prop} (h : ∀ st i, fits st i ↔ fits' st i) (st : σ)
    (is : List ι) : AllFit step fits st is ↔ AllFit step fits' st is := by
  induction is generalizing st with
  | nil => exact Iff.rfl
  | cons i is ih =>
    exact and_congr (h st i) (forall_congr' fun st' => imp_congr Iff.rfl (ih st'))

/-- If a step that fits neither faults nor breaks the invariant, so does a run of them. -/
theorem run_total (inv : σ → Prop)
    (hstep : ∀ st i, inv st → fits st i → ∃ st', step st i = .ok st' ∧ inv st')
    {st : σ} (hinv : inv st) {is : List ι} (hfit : AllFit step fits st is) :
    ∃ st', run step st is = .ok st' ∧ inv st' := by
  induction is generalizing st with
  | nil => exact ⟨st, rfl, hinv⟩
  | cons i is ih =>
    obtain ⟨st₁, hst, hinv₁⟩ := hstep st i hinv hfit.1
    rw [run_cons_ok hst]
    exact ih hinv₁ (hfit.2 st₁ hst)

/-- If a step that fits and does not fault keeps the invariant, so does a run of them. -/
theorem run_keeps (inv : σ → Prop)
    (hstep : ∀ st i st', inv st → fits st i → step st i = .ok st' → inv st')
    {st : σ} (hinv : inv st) {is : List ι} (hfit : AllFit step fits st is) {st' : σ}
    (hrun : run step st is = .ok st') : inv st' := by
  induction is generalizing st with
  | nil =>
    cases hrun
    exact hinv
  | cons i is ih =>
    cases hst : step st i with
    | error e => simp [run, hst] at hrun
    | ok st₁ =>
      rw [run_cons_ok hst] at hrun
      exact ih (hstep st i st₁ hinv hfit.1 hst) (hfit.2 st₁ hst) hrun

/-- If every step of a run establishes something that the others leave, it all holds in the end. -/
theorem run_establishes (inv : σ → Prop) {P : ι → σ → Prop} {is : List ι}
    (hstep : ∀ st, inv st → ∀ i ∈ is,
      ∃ st', step st i = .ok st' ∧ inv st' ∧ P i st' ∧ ∀ j, P j st → P j st')
    {st : σ} (hinv : inv st) :
    ∃ st', run step st is = .ok st' ∧ inv st' ∧ (∀ i ∈ is, P i st') ∧ ∀ j, P j st → P j st' := by
  induction is generalizing st with
  | nil => exact ⟨st, rfl, hinv, List.forall_mem_nil _, fun _ h => h⟩
  | cons i is ih =>
    obtain ⟨st₁, hst, hinv₁, hi, hkeep⟩ := hstep st hinv i List.mem_cons_self
    obtain ⟨st', hrun, hinv', his, hkeep'⟩ :=
      ih (fun st hst j hj => hstep st hst j (List.mem_cons_of_mem i hj)) hinv₁
    refine ⟨st', (run_cons_ok hst).trans hrun, hinv', fun j hj => ?_, fun j h => hkeep' j (hkeep j h)⟩
    rcases List.mem_cons.mp hj with rfl | hj
    · exact hkeep' j hi
    · exact his j hj

/-- If a step faults exactly where it does not fit, so does a run. -/
theorem run_returns_iff (inv : σ → Prop) (good : ι → Prop)
    (hiff : ∀ st i, inv st → good i → (Returns (step st i) ↔ fits st i))
    (hkeep : ∀ st i st', inv st → step st i = .ok st' → inv st') {st : σ} (hinv : inv st)
    {is : List ι} (hgood : ∀ i ∈ is, good i) :
    Returns (run step st is) ↔ AllFit step fits st is := by
  induction is generalizing st with
  | nil => exact ⟨fun _ => trivial, fun _ => returns_ok st⟩
  | cons i is ih =>
    rw [List.forall_mem_cons] at hgood
    have hi := hiff st i hinv hgood.1
    cases hst : step st i with
    | error e =>
      rw [hst] at hi
      have hn : ¬ Returns (.error e : Except ε σ) := fun ⟨_, h⟩ => by cases h
      rw [run, hst, AllFit]
      exact ⟨fun h => absurd h hn, fun h => absurd (hi.mpr h.1) hn⟩
    | ok st₁ =>
      have hfit : fits st i := hi.mp ⟨st₁, hst⟩
      rw [run_cons_ok hst, ih (hkeep st i st₁ hinv hst) hgood.2]
      exact ⟨AllFit.cons hfit hst, fun h => h.2 st₁ hst⟩

/-- What holds of every step that fits in a state of the invariant holds of every step of a run. -/
theorem AllFit.of_invariant {fits' : σ → ι → Prop} (inv : σ → Prop)
    (hkeep : ∀ st i st', inv st → fits st i → step st i = .ok st' → inv st')
    (hfits : ∀ st i, inv st → fits st i → fits' st i) {st : σ} (hinv : inv st) {is : List ι}
    (h : AllFit step fits st is) : AllFit step fits' st is := by
  induction is generalizing st with
  | nil => trivial
  | cons i is ih =>
    exact ⟨hfits st i hinv h.1, fun st' hst => ih (hkeep st i st' hinv h.1 hst) (h.2 st' hst)⟩

/-- If two conditions agree in the states of an invariant and keep it, they agree on a run. -/
theorem AllFit.iff_of_invariant {fits' : σ → ι → Prop} (inv : σ → Prop) (good : ι → Prop)
    (hiff : ∀ st i, inv st → good i → (fits st i ↔ fits' st i))
    (hkeep : ∀ st i st', inv st → good i → fits' st i → step st i = .ok st' → inv st') {st : σ}
    (hinv : inv st) {is : List ι} (hgood : ∀ i ∈ is, good i) :
    AllFit step fits st is ↔ AllFit step fits' st is := by
  induction is generalizing st with
  | nil => exact Iff.rfl
  | cons i is ih =>
    rw [List.forall_mem_cons] at hgood
    have hi := hiff st i hinv hgood.1
    constructor
    · rintro ⟨hfit, hrest⟩
      have hfit' := hi.mp hfit
      exact ⟨hfit', fun st' hst =>
        (ih (hkeep st i st' hinv hgood.1 hfit' hst) hgood.2).mp (hrest st' hst)⟩
    · rintro ⟨hfit', hrest⟩
      exact ⟨hi.mpr hfit', fun st' hst =>
        (ih (hkeep st i st' hinv hgood.1 hfit' hst) hgood.2).mpr (hrest st' hst)⟩

end GuardedRuns
