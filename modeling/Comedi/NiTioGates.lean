import Comedi.NiTioClock

namespace Comedi.NiTioGates

open Instructions ChanlistCheck SharedRegs NiTio NiTioInsn GuardedRuns NiTioSteps

/-- The search among codes that are all defined finds one of them, or none. -/
theorem searchFrom_ok (code : Nat → U32) (x : U32) (n i : Nat) :
    ∃ r, searchFrom (fun i => .ok (code i)) x n i = .ok r ∧
      ∀ k, r = some k → i ≤ k ∧ k < i + n ∧ x = code k := by
  induction n generalizing i with
  | zero => exact ⟨none, rfl, fun k h => by cases h⟩
  | succ n ih =>
    by_cases h : x = code i
    · refine ⟨some i, ?_, ?_⟩
      · unfold searchFrom
        simp only [bind, Except.bind, if_pos h]
        rfl
      · intro k hk
        cases hk
        exact ⟨Nat.le_refl i, by omega, h⟩
    · obtain ⟨r, hr, hs⟩ := ih (i + 1)
      refine ⟨r, ?_, ?_⟩
      · unfold searchFrom
        simp only [bind, Except.bind, if_neg h]
        exact hr
      · intro k hk
        obtain ⟨h₁, h₂, h₃⟩ := hs k hk
        exact ⟨by omega, by omega, h₃⟩

theorem searchFrom_finds (code : Nat → U32) {x : U32} {n i k : Nat} (hk : x = code k) (hi : i ≤ k)
    (hn : k < i + n) : ∃ j, searchFrom (fun i => .ok (code i)) x n i = .ok (some j) := by
  induction n generalizing i with
  | zero => omega
  | succ n ih =>
    unfold searchFrom
    by_cases h : x = code i
    · refine ⟨i, ?_⟩
      simp only [bind, Except.bind, if_pos h]
      rfl
    · have hne : i ≠ k := fun he => h (he ▸ hk)
      simp only [bind, Except.bind, if_neg h]
      exact ih (by omega) (by omega)

/-- The gates that `gateBits` has a code for. -/
def gateCodes (listed : List U32) (maxChannel : Nat) (channel : Nat → U32) (maxPin : Nat)
    (pin : Nat → U32) : List U32 :=
  listed ++ (List.range (maxChannel + 1)).map channel ++ (List.range (maxPin + 1)).map pin

theorem gateBits_spec (listed : List U32) (maxChannel : Nat) (channel : Nat → U32) (maxPin : Nat)
    (pin : Nat → U32) (selectedGate : U32) :
    ∃ r, gateBits listed maxChannel channel maxPin pin selectedGate = .ok r ∧
      ∀ s, r = some s → s = selectedGate &&& selectedGateMask ∧
        selectedGate ∈ gateCodes listed maxChannel channel maxPin pin := by
  unfold gateBits
  split
  · refine ⟨_, rfl, fun s h => ?_⟩
    cases h
    exact ⟨rfl, List.mem_append_left _ (List.mem_append_left _ ‹_›)⟩
  · obtain ⟨r₁, h₁, hs₁⟩ := searchFrom_ok channel selectedGate (maxChannel + 1) 0
    rw [bind_ok (x := search _ _ _) h₁]
    cases r₁ with
    | some k =>
      refine ⟨_, rfl, fun s h => ?_⟩
      cases h
      obtain ⟨-, hk, hc⟩ := hs₁ k rfl
      refine ⟨rfl, ?_⟩
      simp only [gateCodes, List.mem_append, List.mem_map, List.mem_range]
      exact .inl (.inr ⟨k, by omega, hc.symm⟩)
    | none =>
      obtain ⟨r₂, h₂, hs₂⟩ := searchFrom_ok pin selectedGate (maxPin + 1) 0
      dsimp only
      rw [bind_ok (x := search _ _ _) h₂]
      cases r₂ with
      | some k =>
        refine ⟨_, rfl, fun s h => ?_⟩
        cases h
        obtain ⟨-, hk, hc⟩ := hs₂ k rfl
        refine ⟨rfl, ?_⟩
        simp only [gateCodes, List.mem_append, List.mem_map, List.mem_range]
        exact .inr ⟨k, by omega, hc.symm⟩
      | none => exact ⟨none, rfl, fun s h => by cases h⟩

theorem gateBits_finds {listed : List U32} {maxChannel maxPin : Nat} {channel pin : Nat → U32}
    {gate : U32} (h : gate ∈ gateCodes listed maxChannel channel maxPin pin) :
    ∃ s, gateBits listed maxChannel channel maxPin pin gate = .ok (some s) := by
  unfold gateBits
  split
  · exact ⟨_, rfl⟩
  next hl =>
  obtain ⟨r, hr, -⟩ := searchFrom_ok channel gate (maxChannel + 1) 0
  rw [bind_ok (x := search _ _ _) hr]
  cases r with
  | some k => exact ⟨_, rfl⟩
  | none =>
    have hpin : ∃ k, k < maxPin + 1 ∧ gate = pin k := by
      simp only [gateCodes, List.mem_append, List.mem_map, List.mem_range] at h
      rcases h with (h | ⟨k, hk, hc⟩) | ⟨k, hk, hc⟩
      · exact absurd h hl
      · obtain ⟨j, hj⟩ := searchFrom_finds channel hc.symm (Nat.zero_le k)
          (by omega : k < 0 + (maxChannel + 1))
        rw [hr] at hj
        cases hj
      · exact ⟨k, hk, hc.symm⟩
    obtain ⟨k, hk, hc⟩ := hpin
    obtain ⟨j, hj⟩ := searchFrom_finds pin hc (Nat.zero_le k) (by omega : k < 0 + (maxPin + 1))
    dsimp only
    rw [bind_ok (x := search _ _ _) hj]
    exact ⟨_, rfl⟩

/-- The numbers of the gates that a variant has a code for. On an NI 660x the code of
`NI_GPCT_NEXT_SOURCE_GATE_SELECT` is not in its low bits, and it is not listed here. -/
def firstGateNumbers : NiGpctVariant → List Nat
  | .eSeries | .mSeries =>
    [0x0, 0x12, 0x13, 0x14, 0x1c, 0x1d, 0x1e, 0x1f, 0xb, 0xc, 0xd, 0xe, 0xf, 0x10, 0x11, 0x1b,
      0x1, 0x2, 0x3, 0x4, 0x5, 0x6, 0x7, 0x8, 0x9, 0xa, 0x15, 0x16, 0x17, 0x18, 0x19, 0x1a]
  | .ni660x =>
    [0x14, 0x1f, 0x100, 0x101, 0xb, 0xc, 0xd, 0xe, 0xf, 0x10, 0x11, 0x102, 0x103, 0x104, 0x105,
      0x106, 0x107, 0x108, 0x109]

def secondGateNumbers : List Nat :=
  [0x100, 0x201, 0x21e, 0x14, 0x1f, 0xb, 0xc, 0xd, 0xe, 0xf, 0x10, 0x11, 0x202, 0x203, 0x204,
    0x205, 0x206, 0x207, 0x208, 0x209]

def gateField (x : U32) : U32 := (x &&& giGateSelectMask) >>> giGateSelectShift

def secondGateField (x : U32) : U32 := (x &&& giSecondGateSelectMask) >>> giSecondGateSelectShift

theorem first_table (v : NiGpctVariant) : ∀ n ∈ firstGateNumbers v,
    firstGateToGenericGateSource v
      (gateField (giGateSelectBits (.ofNat 32 n &&& selectedGateMask))) = .ok (.ofNat 32 n) := by
  cases v <;> decide +kernel

theorem second_table : ∀ n ∈ secondGateNumbers,
    ni660xSecondGateToGenericGateSource
      (secondGateField (giSecondGateSelectBits (.ofNat 32 n &&& selectedGateMask))) =
        .ok (.ofNat 32 n) := by
  decide +kernel

/-- The first gates that a variant supports. -/
def firstGates (v : NiGpctVariant) : List U32 :=
  niGpctDisabledGateSelect ::
    (if v = .ni660x then [niGpctNextSourceGateSelect] else []) ++
      (firstGateNumbers v).map (.ofNat 32)

/-- The second gates that an NI 660x supports. -/
def secondGates : List U32 :=
  niGpctDisabledGateSelect :: niGpctNextSourceGateSelect :: secondGateNumbers.map (.ofNat 32)

/-- Where the numbers are those of the table of a decoder, the gate is read back. -/
theorem gateBits_decoded (decode : U32 → Result U32) {numbers : List Nat} {listed : List U32}
    {maxChannel maxPin : Nat} {channel pin : Nat → U32}
    (hn : gateCodes listed maxChannel channel maxPin pin = numbers.map (.ofNat 32))
    (ht : ∀ n ∈ numbers, decode (.ofNat 32 n &&& selectedGateMask) = .ok (.ofNat 32 n))
    (gate : U32) : ∃ r, gateBits listed maxChannel channel maxPin pin gate = .ok r ∧
      ∀ s, r = some s → decode s = .ok gate ∧ gate ∈ numbers.map (.ofNat 32) := by
  obtain ⟨r, hr, hs⟩ := gateBits_spec listed maxChannel channel maxPin pin gate
  refine ⟨r, hr, fun s h => ?_⟩
  obtain ⟨rfl, hmem⟩ := hs s h
  rw [hn] at hmem
  refine ⟨?_, hmem⟩
  obtain ⟨n, hn, rfl⟩ := List.mem_map.mp hmem
  exact ht n hn

theorem niMSeriesGateSelect_spec (gate : U32) :
    ∃ r, niMSeriesGateSelect gate = .ok r ∧ ∀ s, r = some s →
      niMSeriesFirstGateToGenericGateSource (gateField (giGateSelectBits s)) = .ok gate ∧
        gate ∈ firstGates .mSeries := by
  obtain ⟨r, hr, hs⟩ : ∃ r, niMSeriesGateSelect gate = .ok r ∧ _ := gateBits_decoded
    (fun s => niMSeriesFirstGateToGenericGateSource (gateField (giGateSelectBits s))) rfl
    (first_table .mSeries) gate
  exact ⟨r, hr, fun s h => ⟨(hs s h).1, List.mem_cons_of_mem _ (hs s h).2⟩⟩

theorem ni660xGateSelect_spec (gate : U32) :
    ∃ r, ni660xGateSelect gate = .ok r ∧ ∀ s, r = some s →
      ni660xFirstGateToGenericGateSource (gateField (giGateSelectBits s)) = .ok gate ∧
        gate ∈ firstGates .ni660x := by
  by_cases h : gate = niGpctNextSourceGateSelect
  · refine ⟨some 0xa, if_pos h, fun s hs => ?_⟩
    cases hs
    rw [h]
    exact ⟨by decide, List.mem_cons_of_mem _ (List.mem_cons_self)⟩
  · have hn : gateCodes [niGpctNextOutGateSelect, niGpctLogicLowGateSelect,
        niGpctSourcePinIGateSelect, niGpctGatePinIGateSelect] ni660xMaxRtsiChannel
        niGpctRtsiGateSelect ni660xMaxGatePin niGpctGatePinGateSelect =
          (firstGateNumbers .ni660x).map (.ofNat 32) := rfl
    rw [ni660xGateSelect, if_neg h]
    obtain ⟨r, hr, hs⟩ := gateBits_decoded
      (fun s => ni660xFirstGateToGenericGateSource (gateField (giGateSelectBits s))) hn
      (first_table .ni660x) gate
    refine ⟨r, hr, fun s h => ⟨(hs s h).1, ?_⟩⟩
    exact List.mem_cons_of_mem _ (List.mem_cons_of_mem _ (hs s h).2)

/-- A first gate that has a code is read back from it. -/
theorem firstGateSelect_spec (v : NiGpctVariant) (gate : U32) :
    ∃ r, firstGateSelect v gate = .ok r ∧ ∀ s, r = some s →
      firstGateToGenericGateSource v (gateField (giGateSelectBits s)) = .ok gate ∧
        gate ∈ firstGates v := by
  cases v with
  | ni660x => exact ni660xGateSelect_spec gate
  | eSeries => exact niMSeriesGateSelect_spec gate
  | mSeries => exact niMSeriesGateSelect_spec gate

theorem niMSeriesGateSelect_finds {gate : U32} (h : gate ∈ firstGates .mSeries)
    (hne : gate ≠ niGpctDisabledGateSelect) : ∃ s, niMSeriesGateSelect gate = .ok (some s) := by
  rcases List.mem_cons.mp h with h | h
  · exact absurd h hne
  · exact gateBits_finds h

theorem ni660xGateSelect_finds {gate : U32} (h : gate ∈ firstGates .ni660x)
    (hne : gate ≠ niGpctDisabledGateSelect) : ∃ s, ni660xGateSelect gate = .ok (some s) := by
  by_cases hs : gate = niGpctNextSourceGateSelect
  · exact ⟨0xa, if_pos hs⟩
  · rw [ni660xGateSelect, if_neg hs]
    rcases List.mem_cons.mp h with h | h
    · exact absurd h hne
    rcases List.mem_cons.mp h with h | h
    · exact absurd h hs
    · exact gateBits_finds h

/-- Every first gate has a code, but for the one that disables the gate. -/
theorem firstGateSelect_finds {v : NiGpctVariant} {gate : U32} (h : gate ∈ firstGates v)
    (hne : gate ≠ niGpctDisabledGateSelect) : ∃ s, firstGateSelect v gate = .ok (some s) := by
  cases v with
  | ni660x => exact ni660xGateSelect_finds h hne
  | eSeries => exact niMSeriesGateSelect_finds h hne
  | mSeries => exact niMSeriesGateSelect_finds h hne

/-- A second gate of an NI 660x that has a code is read back too. -/
theorem secondGateSelect_spec (gate : U32) :
    ∃ r, ni660xSecondGateSelect gate = .ok r ∧ ∀ s, r = some s →
      ni660xSecondGateToGenericGateSource (secondGateField (giSecondGateSelectBits s)) =
        .ok gate ∧ gate ∈ secondGates := by
  by_cases h : gate = niGpctNextSourceGateSelect
  · refine ⟨some 0xa, if_pos h, fun s hs => ?_⟩
    cases hs
    rw [h]
    exact ⟨by decide, by decide⟩
  · have hn : gateCodes [niGpctSourcePinIGateSelect, niGpctUpDownPinIGateSelect,
        niGpctSelectedGateGateSelect, niGpctNextOutGateSelect, niGpctLogicLowGateSelect]
        ni660xMaxRtsiChannel niGpctRtsiGateSelect ni660xMaxUpDownPin niGpctUpDownPinGateSelect =
          secondGateNumbers.map (.ofNat 32) := rfl
    rw [ni660xSecondGateSelect, if_neg h]
    obtain ⟨r, hr, hs⟩ := gateBits_decoded (fun s =>
      ni660xSecondGateToGenericGateSource (secondGateField (giSecondGateSelectBits s))) hn
      second_table gate
    refine ⟨r, hr, fun s h => ⟨(hs s h).1, ?_⟩⟩
    exact List.mem_cons_of_mem _ (List.mem_cons_of_mem _ (hs s h).2)

end Comedi.NiTioGates
