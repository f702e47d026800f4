import Comedi.BitFlags
import Comedi.Instructions

namespace Comedi.S626Dio

open Instructions Function

abbrev U16 := BitVec 16

def comediInput : U32 := 0
def comediOutput : U32 := 1

/-- A bank of digital channels: the two words of the subdevice, and what has been written last to
`LP_WRDOUT`. -/
structure Bank where
  ioBits : U32 := 0
  state : U32 := 0
  wrDOut : U16 := 0

inductive Request where
  /-- `pins` is what `LP_RDDIN` reads. -/
  | bits (n mask data : U32) (pins : U16)
  | config (n : U32) (chan : Nat) (data0 : U32)

/-- The result, `data[1]` and the bank. -/
def s626DioInsnBits (n mask data : U32) (pins : U16) (b : Bank) : Int × U32 × Bank :=
  if n = 0 then (0, data, b)
  else if n ≠ 2 then (-einval, data, b)
  else if mask ≠ 0 ∧ b.ioBits &&& mask ≠ mask then (-eio, data, b)
  else
    let b :=
      if mask ≠ 0 then
        let state := b.state &&& ~~~mask ||| mask &&& data
        { b with state := state, wrDOut := state.setWidth 16 }
      else b
    (2, pins.setWidth 32, b)

/-- The result, `data[1]` where it is set, and the bank. -/
def s626DioInsnConfig (n : U32) (chan : Nat) (data0 : U32) (b : Bank) :
    Int × Option U32 × Bank :=
  if data0 = insnConfigDioQuery then
    (n.toInt, some (if b.ioBits &&& (1 : U32) <<< chan ≠ 0 then comediOutput else comediInput), b)
  else if data0 = comediInput then
    let ioBits := b.ioBits &&& ~~~((1 : U32) <<< chan)
    (1, none, { b with ioBits := ioBits, wrDOut := ioBits.setWidth 16 })
  else if data0 = comediOutput then
    let ioBits := b.ioBits ||| (1 : U32) <<< chan
    (1, none, { b with ioBits := ioBits, wrDOut := ioBits.setWidth 16 })
  else (-einval, none, b)

def Bank.step (b : Bank) : Request → Bank
  | .bits n mask data pins => (s626DioInsnBits n mask data pins b).2.2
  | .config n chan data0 => (s626DioInsnConfig n chan data0 b).2.2

/-- What a bank is for: every channel has a direction, and an output level that stays until the next
one is written. -/
structure Port where
  output : Nat → Bool := fun _ => false
  level : Nat → Bool := fun _ => false

/-- A write is accepted if all its channels are outputs. -/
def Port.accepts (p : Port) (n mask : U32) : Bool :=
  n == 2 && (List.range 32).all fun i => !mask.getLsbD i || p.output i

def Port.step (p : Port) : Request → Port
  | .bits n mask data _ =>
    if p.accepts n mask then
      { p with level := fun i => if mask.getLsbD i then data.getLsbD i else p.level i }
    else p
  | .config _ chan data0 =>
    if data0 = comediInput then { p with output := update p.output chan false }
    else if data0 = comediOutput then { p with output := update p.output chan true }
    else p

def bankOf (requests : List Request) : Bank := requests.foldl Bank.step {}

def portOf (requests : List Request) : Port := requests.foldl Port.step {}

structure Refines (b : Bank) (p : Port) : Prop where
  output : ∀ i < 32, b.ioBits.getLsbD i = p.output i
  level : ∀ i < 32, b.state.getLsbD i = p.level i

/-- The register has the levels of the channels. -/
def Shows (b : Bank) (p : Port) : Prop := ∀ i < 16, b.wrDOut.getLsbD i = p.level i

/-- A direction is set only where the levels of the channels are then their directions. -/
def Fits (p : Port) (r : Request) : Prop :=
  match r with
  | .bits _ _ _ _ => True
  | .config _ _ data0 => data0 = comediInput ∨ data0 = comediOutput →
    ∀ i < 16, (p.step r).output i = p.level i

/-- What a bank owes to its user in one state: the levels are out, the directions can be queried,
and what is refused with `-EIO` changes nothing. -/
structure Kept (b : Bank) (p : Port) : Prop where
  shows : Shows b p
  query : ∀ n, ∀ chan < 16, s626DioInsnConfig n chan insnConfigDioQuery b =
    (n.toInt, some (if p.output chan then comediOutput else comediInput), b)
  refused : ∀ n mask data pins, (s626DioInsnBits n mask data pins b).1 = -eio →
    (s626DioInsnBits n mask data pins b).2.2 = b

variable {b : Bank} {p : Port} {requests : List Request}

section Steps

variable {n mask data : U32} {chan i : Nat}

theorem accepts_iff (h : Refines b p) :
    p.accepts n mask = true ↔ n = 2 ∧ b.ioBits &&& mask = mask := by
  unfold Port.accepts
  rw [Bool.and_eq_true, beq_iff_eq, List.all_eq_true]
  refine and_congr_right fun _ => ?_
  constructor
  · intro hall
    apply BitVec.eq_of_getLsbD_eq
    intro i hi
    have hbit := hall i (List.mem_range.mpr hi)
    rw [BitVec.getLsbD_and, h.output i hi]
    cases hmask : mask.getLsbD i with
    | false => rw [Bool.and_false]
    | true =>
      rw [hmask] at hbit
      simpa using hbit
  · intro heq i hi
    rw [List.mem_range] at hi
    have hbit : (b.ioBits &&& mask).getLsbD i = mask.getLsbD i := by rw [heq]
    rw [BitVec.getLsbD_and, h.output i hi] at hbit
    cases hmask : mask.getLsbD i with
    | false => rfl
    | true =>
      rw [hmask, Bool.and_true] at hbit
      rw [hbit]
      rfl

theorem written_bit (hi : i < 32) :
    (b.state &&& ~~~mask ||| mask &&& data).getLsbD i =
      if mask.getLsbD i then data.getLsbD i else b.state.getLsbD i := by
  simp only [BitVec.getLsbD_or, BitVec.getLsbD_and, BitVec.getLsbD_not, hi, decide_true,
    Bool.true_and]
  cases mask.getLsbD i <;> simp

theorem set_bit (hi : i < 32) (x : U32) :
    (x ||| (1 : U32) <<< chan).getLsbD i = update (fun i => x.getLsbD i) chan true i := by
  rw [BitVec.getLsbD_or, show (1 : U32) = 1#32 from rfl, BitFlags.one_shiftLeft_bit hi]
  by_cases heq : i = chan
  · subst heq
    simp
  · simp [heq]

theorem clear_bit (hi : i < 32) (x : U32) :
    (x &&& ~~~((1 : U32) <<< chan)).getLsbD i = update (fun i => x.getLsbD i) chan false i := by
  rw [BitVec.getLsbD_and, BitVec.getLsbD_not, show (1 : U32) = 1#32 from rfl,
    BitFlags.one_shiftLeft_bit hi]
  by_cases heq : i = chan
  · subst heq
    simp
  · simp [heq, hi]

/-- What an instruction that writes does to the bank. -/
theorem bits_eq (h : Refines b p) (pins : U16) :
    (s626DioInsnBits n mask data pins b).2.2 =
      if p.accepts n mask = true ∧ mask ≠ 0 then
        { b with
          state := b.state &&& ~~~mask ||| mask &&& data
          wrDOut := (b.state &&& ~~~mask ||| mask &&& data).setWidth 16 }
      else b := by
  have haccepts : p.accepts n mask = true ↔ n = 2 ∧ b.ioBits &&& mask = mask := accepts_iff h
  unfold s626DioInsnBits
  by_cases hn : n = 2
  · rw [if_neg (by rw [hn]; decide), if_neg (not_not.mpr hn)]
    by_cases hmask : mask ≠ 0
    · by_cases hdir : b.ioBits &&& mask = mask
      · rw [if_neg fun hno => hno.2 hdir, if_pos hmask,
          if_pos ⟨haccepts.mpr ⟨hn, hdir⟩, hmask⟩]
      · rw [if_pos ⟨hmask, hdir⟩, if_neg fun hyes => hdir (haccepts.mp hyes.1).2]
    · rw [if_neg fun hno => hmask hno.1, if_neg hmask, if_neg fun hyes => hmask hyes.2]
  · have hno : ¬ (p.accepts n mask = true ∧ mask ≠ 0) := fun hyes => hn (haccepts.mp hyes.1).1
    rw [if_neg hno]
    split
    · rfl
    · rfl

theorem refines_bits (h : Refines b p) (n mask data : U32) (pins : U16) :
    Refines (b.step (.bits n mask data pins)) (p.step (.bits n mask data pins)) := by
  unfold Bank.step Port.step
  dsimp only
  rw [bits_eq h pins]
  by_cases haccepts : p.accepts n mask = true
  · rw [if_pos haccepts]
    by_cases hmask : mask ≠ 0
    · rw [if_pos ⟨haccepts, hmask⟩]
      refine ⟨h.output, fun i hi => ?_⟩
      rw [written_bit hi, h.level i hi]
    · rw [if_neg fun hyes => hmask hyes.2]
      refine ⟨h.output, fun i hi => ?_⟩
      rw [not_not.mp hmask, h.level i hi]
      exact (if_neg (by simp)).symm
  · rw [if_neg haccepts, if_neg fun hyes => haccepts hyes.1]
    exact h

theorem shows_bits (h : Refines b p) (hshows : Shows b p) (n mask data : U32) (pins : U16) :
    Shows (b.step (.bits n mask data pins)) (p.step (.bits n mask data pins)) := by
  intro i hi
  have hlevel := (refines_bits h n mask data pins).level i (by omega)
  unfold Bank.step at hlevel ⊢
  dsimp only at hlevel ⊢
  rw [bits_eq h pins] at hlevel ⊢
  by_cases hwrites : p.accepts n mask = true ∧ mask ≠ 0
  · rw [if_pos hwrites] at hlevel ⊢
    refine Eq.trans ?_ hlevel
    rw [BitVec.getLsbD_setWidth, decide_eq_true hi, Bool.true_and]
  · rw [if_neg hwrites] at hlevel ⊢
    rw [hshows i hi, ← h.level i (by omega)]
    exact hlevel

/-- A direction that is set goes to the register as if it were the levels. -/
theorem config_eq (h : Refines b p) (n : U32) (chan : Nat) (data0 : U32) :
    Refines (b.step (.config n chan data0)) (p.step (.config n chan data0)) ∧
      (data0 = comediInput ∨ data0 = comediOutput →
        ∀ i < 16, (b.step (.config n chan data0)).wrDOut.getLsbD i =
          (p.step (.config n chan data0)).output i) ∧
      (¬ (data0 = comediInput ∨ data0 = comediOutput) →
        b.step (.config n chan data0) = b ∧ p.step (.config n chan data0) = p) := by
  have hupdate : ∀ output i, i < 32 →
      update (fun i => b.ioBits.getLsbD i) chan output i = update p.output chan output i := by
    intro output i hi
    by_cases heq : i = chan
    · rw [heq, update_self, update_self]
    · rw [update_of_ne heq, update_of_ne heq]
      exact h.output i hi
  unfold Bank.step Port.step s626DioInsnConfig
  by_cases hquery : data0 = insnConfigDioQuery
  · have hin : ¬ data0 = comediInput := by rw [hquery]; decide
    have hout : ¬ data0 = comediOutput := by rw [hquery]; decide
    dsimp only
    rw [if_pos hquery, if_neg hin, if_neg hout]
    exact ⟨h, fun hset => absurd hset (not_or.mpr ⟨hin, hout⟩), fun _ => ⟨rfl, rfl⟩⟩
  by_cases hin : data0 = comediInput
  · dsimp only
    rw [if_neg hquery, if_pos hin, if_pos hin]
    have hbits : ∀ i < 32, (b.ioBits &&& ~~~((1 : U32) <<< chan)).getLsbD i =
        update p.output chan false i := fun i hi => (clear_bit hi _).trans (hupdate false i hi)
    refine ⟨⟨hbits, h.level⟩, fun _ i hi => ?_, fun hno => absurd (.inl hin) hno⟩
    rw [BitVec.getLsbD_setWidth, decide_eq_true hi, Bool.true_and]
    exact hbits i (by omega)
  by_cases hout : data0 = comediOutput
  · dsimp only
    rw [if_neg hquery, if_neg hin, if_pos hout, if_neg hin, if_pos hout]
    have hbits : ∀ i < 32, (b.ioBits ||| (1 : U32) <<< chan).getLsbD i =
        update p.output chan true i := fun i hi => (set_bit hi _).trans (hupdate true i hi)
    refine ⟨⟨hbits, h.level⟩, fun _ i hi => ?_, fun hno => absurd (.inr hout) hno⟩
    rw [BitVec.getLsbD_setWidth, decide_eq_true hi, Bool.true_and]
    exact hbits i (by omega)
  · dsimp only
    rw [if_neg hquery, if_neg hin, if_neg hout, if_neg hin, if_neg hout]
    exact ⟨h, fun hset => absurd hset (not_or.mpr ⟨hin, hout⟩), fun _ => ⟨rfl, rfl⟩⟩

theorem query_eq (h : Refines b p) (n : U32) (hc : chan < 32) :
    s626DioInsnConfig n chan insnConfigDioQuery b =
      (n.toInt, some (if p.output chan then comediOutput else comediInput), b) := by
  unfold s626DioInsnConfig
  rw [if_pos rfl, ← h.output chan hc]
  have hiff : b.ioBits &&& (1 : U32) <<< chan ≠ 0 ↔ b.ioBits.getLsbD chan = true :=
    BitFlags.and_one_shiftLeft_ne hc
  by_cases hbit : b.ioBits.getLsbD chan = true
  · rw [if_pos (hiff.mpr hbit), if_pos hbit]
  · rw [if_neg (mt hiff.mp hbit), if_neg hbit]

theorem refused_eq (pins : U16) (h : (s626DioInsnBits n mask data pins b).1 = -eio) :
    (s626DioInsnBits n mask data pins b).2.2 = b := by
  unfold s626DioInsnBits at h ⊢
  split
  · rfl
  · split
    · rfl
    · split
      · rfl
      next hzero htwo hdir =>
        rw [if_neg hzero, if_neg htwo, if_neg hdir] at h
        exact absurd h (by decide : ¬ (2 : Int) = -eio)

end Steps

section Runs

theorem refines_step (h : Refines b p) (r : Request) : Refines (b.step r) (p.step r) := by
  cases r with
  | bits n mask data pins => exact refines_bits h n mask data pins
  | config n chan data0 => exact (config_eq h n chan data0).1

theorem shows_step_iff (h : Refines b p) (r : Request) (hshows : Shows b p) :
    Shows (b.step r) (p.step r) ↔ Fits p r := by
  cases r with
  | bits n mask data pins => exact iff_of_true (shows_bits h hshows n mask data pins) trivial
  | config n chan data0 =>
    obtain ⟨-, hset, hkeep⟩ := config_eq h n chan data0
    have hlevel : (p.step (.config n chan data0)).level = p.level := by
      unfold Port.step
      dsimp only
      split
      · rfl
      · split <;> rfl
    unfold Fits Shows
    rw [hlevel]
    constructor
    · intro hafter hdir i hi
      rw [← hset hdir i hi]
      exact hafter i hi
    · intro hfits i hi
      by_cases hdir : data0 = comediInput ∨ data0 = comediOutput
      · rw [hset hdir i hi]
        exact hfits hdir i hi
      · rw [(hkeep hdir).1]
        exact hshows i hi

theorem refines_run (requests : List Request) : Refines (bankOf requests) (portOf requests) := by
  induction requests using List.reverseRecOn with
  | nil => exact ⟨fun i _ => BitVec.getLsbD_zero, fun i _ => BitVec.getLsbD_zero⟩
  | append_singleton requests r ih =>
    unfold bankOf portOf
    rw [List.foldl_append, List.foldl_append]
    exact refines_step ih r

theorem kept_iff (h : Refines b p) : Kept b p ↔ Shows b p :=
  ⟨Kept.shows, fun hshows => ⟨hshows, fun n chan hc => query_eq h n (by omega),
    fun _ _ _ pins => refused_eq pins⟩⟩

theorem step_at {k : Nat} (hk : k < requests.length) :
    bankOf (requests.take (k + 1)) = (bankOf (requests.take k)).step requests[k] ∧
      portOf (requests.take (k + 1)) = (portOf (requests.take k)).step requests[k] := by
  unfold bankOf portOf
  rw [List.take_succ_eq_append_getElem hk, List.foldl_append, List.foldl_append]
  exact ⟨rfl, rfl⟩

end Runs

end Comedi.S626Dio
