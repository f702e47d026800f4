import Mathlib.Logic.Relation

namespace Comedi.CodeRuns

variable {ι σ : Type*}

/-- One step of a machine, given the words of its program and the place of the next one. -/
abbrev Machine (ι σ : Type*) := (Nat → Option ι) → Nat × σ → Option (Nat × σ)

variable (machine : Machine ι σ)

def Runs (program : List ι) : Nat × σ → Nat × σ → Prop :=
  Relation.ReflTransGen fun x y => machine (fun place => program[place]?) x = some y

/-- The code runs from its first word to behind its last one, at the place `off` of any program. -/
def Executes (off : Nat) (code : List ι) (s s' : σ) : Prop :=
  ∀ before after, before.length = off →
    Runs machine (before ++ code ++ after) (off, s) (off + code.length, s')

variable {machine} {off : Nat} {code code' : List ι} {s s' s'' : σ}

theorem Executes.nil : Executes machine off [] s s := fun _ _ _ => .refl

theorem Executes.append (h : Executes machine off code s s')
    (h' : Executes machine (off + code.length) code' s' s'') :
    Executes machine off (code ++ code') s s'' := by
  intro before after hoff
  have hfirst := h before (code' ++ after) hoff
  have hsecond := h' (before ++ code) after (by rw [List.length_append, hoff])
  have hleft : before ++ code ++ (code' ++ after) = before ++ (code ++ code') ++ after := by
    simp only [List.append_assoc]
  have hright : before ++ code ++ code' ++ after = before ++ (code ++ code') ++ after := by
    simp only [List.append_assoc]
  rw [hleft] at hfirst
  rw [hright] at hsecond
  rw [List.length_append, ← Nat.add_assoc]
  exact Relation.ReflTransGen.trans hfirst hsecond

theorem Executes.cons {w : ι} (h : Executes machine off [w] s s')
    (h' : Executes machine (off + 1) code s' s'') : Executes machine off (w :: code) s s'' :=
  h.append h'

/-- A single step that sees no more than the code. -/
theorem executes_of_step (h : ∀ fetch : Nat → Option ι,
    (∀ i < code.length, fetch (off + i) = code[i]?) →
      machine fetch (off, s) = some (off + code.length, s')) :
    Executes machine off code s s' := by
  intro before after hoff
  refine .single (h _ fun i hi => ?_)
  rw [List.append_assoc, ← hoff, List.getElem?_append_right (Nat.le_add_right _ _),
    Nat.add_sub_cancel_left, List.getElem?_append_left hi]

/-- Code that is a whole program up to its last words. -/
theorem Executes.runs (h : Executes machine 0 code s s') (after : List ι) :
    Runs machine (code ++ after) (0, s) (code.length, s') := by
  have hrun := h [] after rfl
  rwa [List.nil_append, Nat.zero_add] at hrun

theorem Runs.step {program : List ι} {x y z : Nat × σ} (h : Runs machine program x y)
    (h' : machine (fun place => program[place]?) y = some z) : Runs machine program x z :=
  Relation.ReflTransGen.tail h h'

end Comedi.CodeRuns
