import Comedi.NiTioFaults

namespace Comedi.NiTioArm

open SharedRegs GuardedRuns NiTio NiTioInsn NiTioFaults NiTioFootprints
open Function (update)

/-- The width of the field by which a variant selects the trigger of an arm. -/
def hwArmFieldBits : NiGpctVariant → Nat
  | .eSeries => 0
  | .mSeries => 5
  | .ni660x => 3

/-- A start trigger without `NI_GPCT_HW_ARM`. -/
def armSelect (startTrigger : U32) : U32 := startTrigger &&& ~~~niGpctHwArm

def Fits (variant : NiGpctVariant) (select : U32) : Prop :=
  select.toNat < 2 ^ hwArmFieldBits variant

instance (variant : NiGpctVariant) (select : U32) : Decidable (Fits variant select) :=
  inferInstanceAs (Decidable (_ < _))

def countingModeReg (d : NiGpctDevice) (c : Nat) : NiGpctRegister :=
  ⟨.countingMode, (d.counters c).counterIndex⟩

/-- The bits that `ni_tio_arm` may change. -/
def hwArmBits (variant : NiGpctVariant) : U32 := giHwArmSelectMask variant ||| giHwArmEnableBit

/-- The counter has been armed by the trigger, or nothing has been written. -/
structure ArmExact (d : NiGpctDevice) (c : Nat) (startTrigger : U32) (r : Int × NiGpctDevice) :
    Prop where
  succeeds : r.1 = 0 ↔ Fits d.variant (armSelect startTrigger)
  selected : r.1 = 0 →
    (r.2.regs (countingModeReg d c) &&& giHwArmSelectMask d.variant) >>> giHwArmSelectShift =
        armSelect startTrigger ∧
      r.2.regs (countingModeReg d c) &&& giHwArmEnableBit = giHwArmEnableBit ∧
      r.2.regs (countingModeReg d c) &&& ~~~hwArmBits d.variant =
        d.regs (countingModeReg d c) &&& ~~~hwArmBits d.variant ∧
      r.2.written (d.counters c).chipIndex (countingModeReg d c) =
        some (r.2.regs (countingModeReg d c))
  refused : r.1 ≠ 0 → r.2 = d

/-- The bits of a trigger that are left after the shift. -/
def lowPart (startTrigger : U32) : U32 := startTrigger &&& 0xffffff

variable {d : NiGpctDevice} {c : Nat} {v : NiGpctVariant} {x startTrigger : U32}

theorem xor_hwArm (h : startTrigger &&& niGpctHwArm ≠ 0) :
    startTrigger ^^^ niGpctHwArm = armSelect startTrigger := by
  have hset : startTrigger &&& niGpctHwArm = niGpctHwArm :=
    (BitFlags.and_twoPow_cases startTrigger 12).resolve_left h
  apply BitVec.eq_of_getLsbD_eq
  intro i hi
  have hbit := congrArg (·.getLsbD i) hset
  unfold armSelect
  simp only [BitVec.getLsbD_and, BitVec.getLsbD_xor, BitVec.getLsbD_not] at hbit ⊢
  cases hx : startTrigger.getLsbD i <;> cases hy : niGpctHwArm.getLsbD i <;> simp_all

theorem mask_getLsbD (v : NiGpctVariant) {i : Nat} (hi : i < 32) :
    (giHwArmSelectMask v).getLsbD i = decide (8 ≤ i ∧ i < 8 + hwArmFieldBits v) := by
  revert i
  cases v <;> decide

theorem lt_twoPow_iff (x : U32) (n : Nat) :
    x.toNat < 2 ^ n ↔ ∀ i, n ≤ i → i < 32 → x.getLsbD i = false := by
  constructor
  · intro h i hi _
    exact Nat.testBit_lt_two_pow (Nat.lt_of_lt_of_le h (Nat.pow_le_pow_right Nat.two_pos hi))
  · intro h
    apply Nat.lt_pow_two_of_testBit
    intro i hi
    rcases Nat.lt_or_ge i 32 with hlt | hge
    · exact h i hi hlt
    · exact BitVec.getLsbD_of_ge x i hge

theorem lowPart_getLsbD (x : U32) {i : Nat} (hi : i < 32) :
    (lowPart x).getLsbD i = (x.getLsbD i && decide (i < 24)) := by
  have hmask : ∀ i < 32, (0xffffff : U32).getLsbD i = decide (i < 24) := by decide
  unfold lowPart
  rw [BitVec.getLsbD_and, hmask i hi]

/-- What is tested after the shift. -/
theorem shifted_within (v : NiGpctVariant) (x : U32) :
    (x <<< giHwArmSelectShift) &&& ~~~giHwArmSelectMask v = 0 ↔ Fits v (lowPart x) := by
  unfold Fits
  rw [lt_twoPow_iff]
  constructor
  · intro h i hle hi
    rw [lowPart_getLsbD x hi]
    by_cases hlow : i < 24
    · have hbit :
          ((x <<< giHwArmSelectShift) &&& ~~~giHwArmSelectMask v).getLsbD (i + 8) = false := by
        rw [h]
        exact BitVec.getLsbD_zero
      rw [BitVec.getLsbD_and, BitVec.getLsbD_not, mask_getLsbD v (by omega),
        BitVec.getLsbD_shiftLeft] at hbit
      have hout : ¬ (8 ≤ i + 8 ∧ i + 8 < 8 + hwArmFieldBits v) := by omega
      have hshift : ¬ i + 8 < giHwArmSelectShift := Nat.not_lt.mpr (Nat.le_add_left 8 i)
      have hsub : i + 8 - giHwArmSelectShift = i := Nat.add_sub_cancel i 8
      rw [hsub, decide_eq_false hout, decide_eq_false hshift, decide_eq_true (by omega)] at hbit
      simpa [hlow] using hbit
    · rw [decide_eq_false hlow, Bool.and_false]
  · intro h
    apply BitVec.eq_of_getLsbD_eq
    intro i hi
    change _ = (0#32).getLsbD i
    rw [BitVec.getLsbD_and, BitVec.getLsbD_not, mask_getLsbD v hi, BitVec.getLsbD_shiftLeft,
      BitVec.getLsbD_zero]
    by_cases hlow : 8 ≤ i
    · by_cases hin : i < 8 + hwArmFieldBits v
      · simp [hlow, hin]
      · have hbit := h (i - 8) (by omega) (by omega)
        rw [lowPart_getLsbD x (by omega), decide_eq_true (by omega), Bool.and_true] at hbit
        simp [giHwArmSelectShift, hbit]
    · have : i < giHwArmSelectShift := Nat.lt_of_not_le hlow
      simp [this]

theorem lowPart_le (x : U32) : (lowPart x).toNat ≤ x.toNat := by
  unfold lowPart
  rw [BitVec.toNat_and]
  exact Nat.and_le_left

/-- What is in the field is the part that was not shifted out. -/
theorem selected_eq (h : Fits v (lowPart x)) :
    ((x <<< giHwArmSelectShift) &&& giHwArmSelectMask v) >>> giHwArmSelectShift = lowPart x := by
  rw [Fits, lt_twoPow_iff] at h
  apply BitVec.eq_of_getLsbD_eq
  intro i hi
  rw [BitVec.getLsbD_ushiftRight, BitVec.getLsbD_and]
  by_cases hlow : 8 + i < 32
  · rw [show giHwArmSelectShift = 8 from rfl, mask_getLsbD v hlow, BitVec.getLsbD_shiftLeft]
    by_cases hin : i < hwArmFieldBits v
    · rw [lowPart_getLsbD x hi]
      have hsub : i + 8 - 8 = i := Nat.add_sub_cancel i 8
      simp [hlow, hin, show i < 24 by omega]
    · rw [h i (Nat.le_of_not_lt hin) hi]
      simp [hin]
  · rw [lowPart_getLsbD x hi, decide_eq_false (show ¬ i < 24 by omega), Bool.and_false,
      BitVec.getLsbD_of_ge _ _ (show 32 ≤ giHwArmSelectShift + i by change 32 ≤ 8 + i; omega)]
    rfl

/-- The bits that a set of the arm bits leaves in the register. -/
theorem armed_reg (v : NiGpctVariant) (y : U32) (x : U32) :
    let value := y &&& ~~~hwArmBits v ||| (giHwArmEnableBit ||| x) &&& hwArmBits v
    value &&& giHwArmSelectMask v = x &&& giHwArmSelectMask v ∧
      value &&& giHwArmEnableBit = giHwArmEnableBit ∧
      value &&& ~~~hwArmBits v = y &&& ~~~hwArmBits v := by
  have hmask : giHwArmSelectMask v &&& ~~~hwArmBits v = 0 := by cases v <;> decide
  have hmask' : giHwArmEnableBit &&& giHwArmSelectMask v = 0 := by cases v <;> decide
  have henable : giHwArmEnableBit &&& ~~~hwArmBits v = 0 := by cases v <;> decide
  refine ⟨?_, ?_, ?_⟩
  · rw [and_setBits_of_subset hmask, BitVec.or_comm, BitFlags.and_or_of_disjoint hmask']
  · rw [and_setBits_of_subset henable, BitVec.or_comm]
    exact BitFlags.or_self_and
  · exact and_setBits_of_disjoint (by rw [BitVec.and_not_self])

theorem armCommand_eq (d : NiGpctDevice) (transient : U32)
    (h : (d.counters c).counterIndex < 4) :
    armCommand d c transient =
      .ok (0, niTioSetBitsTransient d c ⟨.command, (d.counters c).counterIndex⟩ 0 0 transient) := by
  unfold armCommand
  rw [bind_ok (x := nitioGiCommandReg _) (giReg_of_lt h)]
  rfl

theorem setBitsTransient_of_ne (d : NiGpctDevice) (c : Nat) {r r' : NiGpctRegister} (h : r' ≠ r)
    (mask values transient : U32) :
    (niTioSetBitsTransient d c r mask values transient).regs r' = d.regs r' ∧
      (niTioSetBitsTransient d c r mask values transient).written (d.counters c).chipIndex r' =
        d.written (d.counters c).chipIndex r' :=
  ⟨setBits_of_ne h, writeRegister_of_ne _ _ _ h⟩

theorem niTioSetBits_self (d : NiGpctDevice) (c : Nat) (r : NiGpctRegister) (mask values : U32) :
    (niTioSetBits d c r mask values).regs r = d.regs r &&& ~~~mask ||| values &&& mask ∧
      (niTioSetBits d c r mask values).written (d.counters c).chipIndex r =
        some ((niTioSetBits d c r mask values).regs r) := by
  refine ⟨setBits_self _ _ _ _, (writeRegister_self _ _ _ _).trans ?_⟩
  exact congrArg some BitVec.or_zero

/-- A hardware arm is refused, or selects by what the shift left of the trigger. -/
theorem arm_hw (hx : Indexed d) (hv : d.variant ≠ .eSeries)
    (ht : startTrigger &&& niGpctHwArm ≠ 0) :
    ∃ r, niTioArm d c true startTrigger = .ok r ∧
      if Fits d.variant (lowPart (armSelect startTrigger)) then
        r.1 = 0 ∧
          r.2.regs (countingModeReg d c) =
            (d.regs (countingModeReg d c) &&& ~~~hwArmBits d.variant) ||| ((giHwArmEnableBit ||| armSelect startTrigger <<<
              giHwArmSelectShift) &&& hwArmBits d.variant) ∧
          r.2.written (d.counters c).chipIndex (countingModeReg d c) =
            some (r.2.regs (countingModeReg d c))
      else r = (-einval, d) := by
  have hpresent : niTioCountingModeRegistersPresent d.variant = true := by
    cases hvar : d.variant
    · exact absurd hvar hv
    · rfl
    · rfl
  have hbits : hwArmSelectBits startTrigger = armSelect startTrigger <<< giHwArmSelectShift := by
    rw [hwArmSelectBits, xor_hwArm ht]
  unfold niTioArm
  rw [if_pos rfl, if_pos hpresent]
  unfold armCountingModeBits
  rw [if_neg ht, hbits]
  by_cases hfit : Fits d.variant (lowPart (armSelect startTrigger))
  · rw [if_neg (not_not.mpr ((shifted_within d.variant _).mpr hfit))]
    dsimp only
    rw [bind_ok (x := nitioGiCountingModeReg _) (giReg_of_lt (hx.lt c))]
    rw [armCommand_eq _ _ (by exact hx.lt c)]
    refine ⟨_, rfl, ?_⟩
    rw [if_pos hfit]
    have hset := niTioSetBits_self d c (countingModeReg d c)
      (giHwArmSelectMask d.variant ||| giHwArmEnableBit)
      (giHwArmEnableBit ||| armSelect startTrigger <<< giHwArmSelectShift)
    have hne : countingModeReg d c ≠ ⟨.command, (d.counters c).counterIndex⟩ := fun h =>
      absurd (congrArg NiGpctRegister.name h) (show RegName.countingMode ≠ .command by decide)
    have hkeep := setBitsTransient_of_ne (niTioSetBits d c (countingModeReg d c)
      (giHwArmSelectMask d.variant ||| giHwArmEnableBit)
      (giHwArmEnableBit ||| armSelect startTrigger <<< giHwArmSelectShift)) c hne 0 0
      (if startTrigger = niGpctArmPairedImmediate then giArmBit ||| giArmCopyBit else giArmBit)
    refine ⟨rfl, hkeep.1.trans hset.1, ?_⟩
    exact hkeep.2.trans (hset.2.trans (congrArg some hkeep.1.symm))
  · rw [if_pos (mt (shifted_within d.variant _).mp hfit)]
    refine ⟨_, rfl, ?_⟩
    rw [if_neg hfit]

theorem armSelect_lowPart (x : U32) : armSelect (lowPart x) = lowPart (armSelect x) := by
  unfold armSelect lowPart
  rw [BitVec.and_assoc, BitVec.and_assoc, BitVec.and_comm 0xffffff]

theorem armSelect_getLsbD (x : U32) {i : Nat} (hi : i < 32) (hne : i ≠ 12) :
    (armSelect x).getLsbD i = x.getLsbD i := by
  have hbit : ∀ i < 32, i ≠ 12 → niGpctHwArm.getLsbD i = false := by decide
  unfold armSelect
  rw [BitVec.getLsbD_and, BitVec.getLsbD_not, hbit i hi hne, decide_eq_true hi]
  exact Bool.and_true _

/-- The shift drops nothing of a trigger below bit 24, and nothing else fits then. -/
theorem lt_of_fits (h : Fits v (armSelect x)) : x.toNat < 2 ^ 24 := by
  have hle : hwArmFieldBits v ≤ 24 := by cases v <;> decide
  rw [Fits, lt_twoPow_iff] at h
  rw [lt_twoPow_iff]
  intro i hi hlt
  rw [← armSelect_getLsbD x hlt (by omega)]
  exact h i (Nat.le_trans hle hi) hlt

theorem lowPart_of_lt (h : x.toNat < 2 ^ 24) : lowPart x = x := by
  rw [lt_twoPow_iff] at h
  apply BitVec.eq_of_getLsbD_eq
  intro i hi
  rw [lowPart_getLsbD x hi]
  by_cases hlow : i < 24
  · rw [decide_eq_true hlow, Bool.and_true]
  · rw [h i (Nat.le_of_not_lt hlow) hi]
    rfl

/-- A hardware arm is exact unless the shift drops bits of a trigger whose other bits fit. -/
theorem arm_exact_iff (hx : Indexed d) (hv : d.variant ≠ .eSeries)
    (ht : startTrigger &&& niGpctHwArm ≠ 0) :
    ∃ r, niTioArm d c true startTrigger = .ok r ∧
      (ArmExact d c startTrigger r ↔
        startTrigger.toNat < 2 ^ 24 ∨ ¬ Fits d.variant (armSelect (lowPart startTrigger))) := by
  obtain ⟨r, hr, h⟩ := arm_hw (c := c) hx hv ht
  refine ⟨r, hr, ?_⟩
  rw [armSelect_lowPart]
  split at h
  · next hfit =>
    obtain ⟨hret, hregs, hwritten⟩ := h
    constructor
    · intro he
      exact .inl (lt_of_fits (he.succeeds.mp hret))
    · intro hlt
      have hlt := hlt.resolve_right (not_not.mpr hfit)
      have hall : lowPart (armSelect startTrigger) = armSelect startTrigger := by
        rw [← armSelect_lowPart, lowPart_of_lt hlt]
      have hreg := armed_reg d.variant (d.regs (countingModeReg d c))
        (armSelect startTrigger <<< giHwArmSelectShift)
      rw [← hregs] at hreg
      refine ⟨iff_of_true hret (hall ▸ hfit), fun _ => ⟨?_, hreg.2.1, hreg.2.2, hwritten⟩,
        fun hne => absurd hret hne⟩
      rw [hreg.1, selected_eq hfit, hall]
  · next hfit =>
    subst h
    have hno : ¬ Fits d.variant (armSelect startTrigger) :=
      fun hsel => hfit (Nat.lt_of_le_of_lt (lowPart_le _) hsel)
    refine iff_of_true ⟨iff_of_false ?_ hno, fun h => ?_, fun _ => rfl⟩ (.inr hfit)
    · exact show (-einval : Int) ≠ 0 by decide
    · exact absurd h (show (-einval : Int) ≠ 0 by decide)

/-- One counter, with its counting mode 3. -/
def quadrature (variant : NiGpctVariant) : NiGpctDevice where
  variant := variant
  counters _ := { counterIndex := 0, chipIndex := 0 }
  regs r := if r.name = .countingMode then 3 else 0

theorem quadrature_indexed (variant : NiGpctVariant) : Indexed (quadrature variant) := by
  intro _
  change 0 < if variant = .ni660x then 4 else 2
  split <;> decide

theorem arm_exact_iff_select :
    ∃ r, niTioArm (quadrature .mSeries) 0 true 0x1005 = .ok r ∧
      (ArmExact (quadrature .mSeries) 0 0x1005 r ↔ (0x1005 : U32).toNat < 2 ^ 24 ∨
        ¬ Fits .mSeries (armSelect (lowPart 0x1005))) ∧
      r.1 = 0 ∧ r.2.regs ⟨.countingMode, 0⟩ = 0x583 := by
  obtain ⟨r, hr, h⟩ := arm_exact_iff (c := 0) (quadrature_indexed .mSeries)
    (show NiGpctVariant.mSeries ≠ .eSeries by decide)
    (show (0x1005 : U32) &&& niGpctHwArm ≠ 0 by decide)
  cases hr
  exact ⟨_, rfl, h, rfl, by decide⟩

/-- A bit of the highest byte is not rejected. -/
theorem highBit_accepted :
    Indexed (quadrature .mSeries) ∧ (0x01001005 : U32) &&& niGpctHwArm ≠ 0 ∧
    ¬ Fits .mSeries (armSelect 0x01001005) ∧
    ∃ r, niTioArm (quadrature .mSeries) 0 true 0x01001005 = .ok r ∧ r.1 = 0 ∧
      ¬ ArmExact (quadrature .mSeries) 0 0x01001005 r := by
  have hno : ¬ Fits .mSeries (armSelect 0x01001005) := by decide
  exact ⟨quadrature_indexed .mSeries, by decide, hno, _, rfl, rfl,
    fun h => hno (h.succeeds.mp rfl)⟩

end Comedi.NiTioArm
