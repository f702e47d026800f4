import Comedi.DataModel

namespace Comedi.ChanlistCheck

def crChan (a : U32) : U32 := a &&& 0xffff

def crRange (a : U32) : U32 := (a >>> 16) &&& 0xff

/-- The reporting of invalid references is switched off in the source by an early return. -/
def arefInvalid (_ : Subdevice) (_ : U32) : Bool := false

def rangeLength (s : Subdevice) (chanspec : U32) : Nat :=
  match s.rangeTable with
  | some table => table.length
  | none =>
    match s.rangeTableList with
    | some tables => (tables[(crChan chanspec).toNat]?).elim 0 fun table => table.length
    | none => 0

def chanspecOk (s : Subdevice) (chanspec : U32) : Bool :=
  (crChan chanspec).toNat < s.nChan ∧ (crRange chanspec).toNat < rangeLength s chanspec ∧
    ¬ arefInvalid s chanspec

/-- `check_chanlist`. A subdevice without any range table has length 0 ranges only, so that the
separate branch for it is part of the test of each entry, and lists are never empty. -/
def checkChanlist (s : Subdevice) (chanlist : List U32) : Int :=
  if chanlist.all (chanspecOk s) then 0 else -einval

theorem checkChanlist_nonneg {s : Subdevice} {chanlist : List U32} :
    ¬ checkChanlist s chanlist < 0 ↔ ∀ x ∈ chanlist, chanspecOk s x := by
  rw [← List.all_eq_true]
  unfold checkChanlist
  split
  · next h => exact ⟨fun _ => h, fun _ => by decide⟩
  · next h => exact ⟨fun hn => absurd (by decide) hn, fun hall => absurd hall h⟩

end Comedi.ChanlistCheck
