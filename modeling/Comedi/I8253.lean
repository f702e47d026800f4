import Comedi.RtTimer

namespace Comedi.I8253

def trigRoundMask : U32 := 0x00030000
def trigRoundDown : U32 := 0x00010000
def trigRoundUp : U32 := 0x00020000

def maxCount : U32 := 0x10000

/-- A bound that the search has found, with its divisors. -/
structure Found where
  ns : U32
  div1 : U32 := 0
  div2 : U32 := 0

/-- The greatest lower bound and the least upper bound. -/
structure Bounds where
  glb : Found := ⟨0, 0, 0⟩
  lub : Found := ⟨0xffffffff, 0, 0⟩

section Search

variable (base nanosec : U32)

/-- The body of the inner loop of `i8253_cascade_ns_to_timer_2div`. -/
def tryPair (div1 div2 : U32) (b : Bounds) : Bounds :=
  let ns := base * div1 * div2
  { glb := if ns ≤ nanosec ∧ b.glb.ns < ns then ⟨ns, div1, div2⟩ else b.glb
    lub := if nanosec ≤ ns ∧ ns < b.lub.ns then ⟨ns, div1, div2⟩ else b.lub }

/-- The inner loop, which leaves off when `div2` is past `max_count`. -/
def searchDiv2 (divider div1 : U32) : Nat → U32 → Bounds → Bounds
  | 0, _, b => b
  | fuel + 1, div2, b =>
    if div1 * div2 ≤ divider + div1 + 1 ∧ div2 ≤ maxCount then
      searchDiv2 divider div1 fuel (div2 + 1) (tryPair base nanosec div1 div2 b)
    else b

/-- The outer loop. -/
def searchDiv1 (divider : U32) : Nat → U32 → Bounds → Bounds
  | 0, _, b => b
  | fuel + 1, div1, b =>
    if div1 ≤ divider / div1 + 1 ∧ div1 ≤ maxCount then
      searchDiv1 divider fuel (div1 + 1)
        (searchDiv2 base nanosec divider div1 (maxCount.toNat + 1) (divider / div1) b)
    else b

def search : Bounds :=
  let divider := nanosec / base
  let start := divider / maxCount
  searchDiv1 base nanosec divider (maxCount.toNat + 1) (if start < 2 then 2 else start) {}

def roundTo (roundMode : U32) (b : Bounds) : U32 × U32 :=
  if roundMode &&& trigRoundMask = trigRoundUp then (b.lub.div1, b.lub.div2)
  else if roundMode &&& trigRoundMask = trigRoundDown then (b.glb.div1, b.glb.div2)
  else
    let nsHigh := b.lub.div1 * b.lub.div2 * base
    let nsLow := b.glb.div1 * b.glb.div2 * base
    if nsHigh - nanosec < nanosec - nsLow then (b.lub.div1, b.lub.div2)
    else (b.glb.div1, b.glb.div2)

end Search

/-- A divisor as the counter reads it. -/
def divisor (d : U32) : U32 := if d ≠ 0 then d else maxCount

/-- The test for an early exit. -/
def alreadyCorrect (base d1 d2 nanosec : U32) : Prop :=
  let div1 := divisor d1
  let div2 := divisor d2
  let divider := div1 * div2
  div1 * div2 * base = nanosec ∧ 1 < div1 ∧ div1 ≤ maxCount ∧ 1 < div2 ∧ div2 ≤ maxCount ∧
    div1 < divider ∧ div2 < divider ∧ divider < divider * base ∧ base < divider * base

instance (base d1 d2 nanosec : U32) : Decidable (alreadyCorrect base d1 d2 nanosec) := by
  unfold alreadyCorrect
  infer_instance

/-- `*d1`, `*d2` and `*nanosec`. -/
structure Timer where
  d1 : U32
  d2 : U32
  nanosec : U32
  deriving DecidableEq, Repr

/-- `i8253_cascade_ns_to_timer_2div`. -/
def cascadeNsToTimer2div (base : U32) (t : Timer) (roundMode : U32) : Timer :=
  if alreadyCorrect base t.d1 t.d2 t.nanosec then t
  else
    let (div1, div2) := roundTo base t.nanosec roundMode (search base t.nanosec)
    ⟨div1 &&& 0xffff, div2 &&& 0xffff, div1 * div2 * base⟩

variable {base nanosec divider div1 div2 : U32} {b : Bounds}

theorem searchDiv2_rule (divider div1 : U32) {P : U32 → Bounds → Prop}
    (step : ∀ d b, P d b → div1 * d ≤ divider + div1 + 1 → d ≤ maxCount →
      P (d + 1) (tryPair base nanosec div1 d b)) (fuel : Nat) (div2 : U32) (h : P div2 b) :
    ∃ d, P d (searchDiv2 base nanosec divider div1 fuel div2 b) := by
  induction fuel generalizing div2 b with
  | zero => exact ⟨div2, h⟩
  | succ fuel ih =>
    rw [searchDiv2]
    split
    · next hgo => exact ih _ (step div2 b h hgo.1 hgo.2)
    · exact ⟨div2, h⟩

theorem searchDiv1_rule (divider : U32) {P : U32 → Bounds → Prop}
    (step : ∀ d b, P d b → d ≤ divider / d + 1 → d ≤ maxCount →
      P (d + 1) (searchDiv2 base nanosec divider d (maxCount.toNat + 1) (divider / d) b))
    (fuel : Nat) (div1 : U32) (h : P div1 b) :
    ∃ d, P d (searchDiv1 base nanosec divider fuel div1 b) := by
  induction fuel generalizing div1 b with
  | zero => exact ⟨div1, h⟩
  | succ fuel ih =>
    rw [searchDiv1]
    split
    · next hgo => exact ih _ (step div1 b h hgo.1 hgo.2)
    · exact ⟨div1, h⟩

theorem next_toNat {d : U32} (h : d ≤ maxCount) : (d + 1).toNat = d.toNat + 1 := by
  have hle : d.toNat ≤ 65536 := h
  rw [BitVec.toNat_add]
  exact Nat.mod_eq_of_lt (by change d.toNat + 1 < _; omega)

theorem searchDiv2_succ (fuel : Nat) (div2 : U32) (b : Bounds) :
    searchDiv2 base nanosec divider div1 (fuel + 1) div2 b =
      if div1 * div2 ≤ divider + div1 + 1 ∧ div2 ≤ maxCount then
        searchDiv2 base nanosec divider div1 fuel (div2 + 1) (tryPair base nanosec div1 div2 b)
      else b := rfl

theorem searchDiv1_succ (fuel : Nat) (div1 : U32) (b : Bounds) :
    searchDiv1 base nanosec divider (fuel + 1) div1 b =
      if div1 ≤ divider / div1 + 1 ∧ div1 ≤ maxCount then
        searchDiv1 base nanosec divider fuel (div1 + 1)
          (searchDiv2 base nanosec divider div1 (maxCount.toNat + 1) (divider / div1) b)
      else b := rfl

/-- The loops come to their ends before `max_count + 1` rounds. -/
theorem searchDiv2_fuel {fuel : Nat} (h : maxCount.toNat < div2.toNat + fuel) :
    searchDiv2 base nanosec divider div1 (fuel + 1) div2 b =
      searchDiv2 base nanosec divider div1 fuel div2 b := by
  induction fuel generalizing div2 b with
  | zero =>
    rw [searchDiv2_succ, if_neg fun hgo => Nat.lt_irrefl _ (Nat.lt_of_lt_of_le h hgo.2)]
    rfl
  | succ fuel ih =>
    rw [searchDiv2_succ (fuel + 1) div2 b, searchDiv2_succ fuel div2 b]
    split
    · next hgo =>
      have hnext := next_toNat hgo.2
      exact ih (by omega)
    · rfl

theorem searchDiv1_fuel {fuel : Nat} (h : maxCount.toNat < div1.toNat + fuel) :
    searchDiv1 base nanosec divider (fuel + 1) div1 b =
      searchDiv1 base nanosec divider fuel div1 b := by
  induction fuel generalizing div1 b with
  | zero =>
    rw [searchDiv1_succ, if_neg fun hgo => Nat.lt_irrefl _ (Nat.lt_of_lt_of_le h hgo.2)]
    rfl
  | succ fuel ih =>
    rw [searchDiv1_succ (fuel + 1) div1 b, searchDiv1_succ fuel div1 b]
    split
    · next hgo =>
      have hnext := next_toNat hgo.2
      exact ih (by omega)
    · rfl

end Comedi.I8253
