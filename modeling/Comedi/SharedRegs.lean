import Mathlib.Data.BitVec
import Mathlib.Logic.Function.Basic

namespace SharedRegs

variable {ι : Type} [DecidableEq ι] {w : Nat} {regs regs' regs'' : ι → BitVec w}
variable {owned : ι → BitVec w} {r : ι} {mask values : BitVec w}

/-- Set the bits of `mask` in a register to those of `values`. -/
def setBits (regs : ι → BitVec w) (r : ι) (mask values : BitVec w) : ι → BitVec w :=
  Function.update regs r (regs r &&& ~~~mask ||| values &&& mask)

/-- Two sets of registers differ in the bits of `owned` only. -/
def Within (owned : ι → BitVec w) (regs regs' : ι → BitVec w) : Prop :=
  ∀ r, regs' r &&& ~~~owned r = regs r &&& ~~~owned r

@[simp] theorem setBits_self (regs : ι → BitVec w) (r : ι) (mask values : BitVec w) :
    setBits regs r mask values r = regs r &&& ~~~mask ||| values &&& mask :=
  Function.update_self r _ _

theorem setBits_of_ne {r' : ι} (h : r' ≠ r) : setBits regs r mask values r' = regs r' :=
  Function.update_of_ne h _ _

theorem and_setBits_of_disjoint {x field : BitVec w} (h : mask &&& field = 0) :
    (x &&& ~~~mask ||| values &&& mask) &&& field = x &&& field := by
  ext i hi
  have hb := congrArg (·.getLsbD i) h
  simp only [BitVec.getLsbD_and] at hb
  simp only [BitVec.getElem_and, BitVec.getElem_or, BitVec.getElem_not, ← BitVec.getLsbD_eq_getElem]
  cases hm : mask.getLsbD i <;> cases hf : field.getLsbD i <;> simp_all

theorem and_setBits_of_subset {x field : BitVec w} (h : field &&& ~~~mask = 0) :
    (x &&& ~~~mask ||| values &&& mask) &&& field = values &&& field := by
  ext i hi
  have hb := congrArg (·.getLsbD i) h
  simp only [BitVec.getLsbD_and, BitVec.getLsbD_not, hi] at hb
  simp only [BitVec.getElem_and, BitVec.getElem_or, BitVec.getElem_not, ← BitVec.getLsbD_eq_getElem]
  cases hm : mask.getLsbD i <;> cases hf : field.getLsbD i <;> simp_all

/-- Words with one field in common have the parts of it in common. -/
theorem and_eq_of_subset {x y m f : BitVec w} (h : x &&& m = y &&& m) (hf : f &&& ~~~m = 0) :
    x &&& f = y &&& f := by
  have hm : m &&& f = f := by
    ext i hi
    have hb := congrArg (·.getLsbD i) hf
    simp only [BitVec.getLsbD_and, BitVec.getLsbD_not, hi] at hb
    simp only [BitVec.getElem_and, ← BitVec.getLsbD_eq_getElem]
    cases hm : m.getLsbD i <;> cases hf : f.getLsbD i <;> simp_all
  rw [← hm, ← BitVec.and_assoc, h, BitVec.and_assoc]

/-- Setting bits changes nothing exactly if they are so already. -/
theorem set_eq_self_iff {x : BitVec w} :
    x &&& ~~~mask ||| values &&& mask = x ↔ x &&& mask = values &&& mask := by
  constructor
  · intro h
    calc x &&& mask = (x &&& ~~~mask ||| values &&& mask) &&& mask := by rw [h]
      _ = values &&& mask := and_setBits_of_subset (by simp)
  · intro h
    rw [← h]
    ext i hi
    simp only [BitVec.getElem_or, BitVec.getElem_and, BitVec.getElem_not]
    cases x[i] <;> cases mask[i] <;> rfl

namespace Within

theorem refl (owned regs : ι → BitVec w) : Within owned regs regs := fun _ => rfl

theorem trans (h : Within owned regs regs') (h' : Within owned regs' regs'') :
    Within owned regs regs'' := fun r => (h' r).trans (h r)

theorem setBits (regs : ι → BitVec w) (h : mask &&& ~~~owned r = 0) (values : BitVec w) :
    Within owned regs (setBits regs r mask values) := by
  intro r'
  by_cases hr : r' = r
  · subst hr
    rw [setBits_self]
    exact and_setBits_of_disjoint h
  · rw [setBits_of_ne hr]

theorem mono {owned' : ι → BitVec w} (h : Within owned regs regs')
    (ho : ∀ r, owned r &&& ~~~owned' r = 0) : Within owned' regs regs' := by
  intro r
  have hr := h r
  ext i hi
  have hb := congrArg (·.getLsbD i) (ho r)
  have hi' := congrArg (·.getLsbD i) hr
  simp only [BitVec.getLsbD_and, BitVec.getLsbD_not, hi] at hb hi'
  simp only [BitVec.getElem_and, BitVec.getElem_not, ← BitVec.getLsbD_eq_getElem]
  cases hf : (owned r).getLsbD i <;> cases hg : (owned' r).getLsbD i <;> simp_all

/-- A field outside the bits that may change. -/
theorem field (h : Within owned regs regs') {f : BitVec w} (hf : f &&& owned r = 0) :
    regs' r &&& f = regs r &&& f := by
  have hr := h r
  ext i hi
  have hb := congrArg (·.getLsbD i) hf
  have hi' := congrArg (·.getLsbD i) hr
  simp only [BitVec.getLsbD_and, BitVec.getLsbD_not, hi] at hb hi'
  simp only [BitVec.getElem_and, ← BitVec.getLsbD_eq_getElem]
  cases ho : (owned r).getLsbD i <;> cases hfi : f.getLsbD i <;> simp_all

end Within

end SharedRegs
