import Comedi.BitFlags
import Comedi.Ni660xInterrupts

namespace Comedi.Ni660xIsolation

open MiteSync NiTio Ni660xRegisters Ni660xInterrupts GuardedRuns

variable {d d' : NiGpctDevice} {c i chip : Nat} {hw hw' : Hardware} {miteChan : Option MiteChan}
  {s : Subdevice} {a : Async} {x : Ni660xRegister}

/-- The bits of a joint status register that belong to a counter. -/
def ownBits (i : Nat) : U32 := if i % 2 ≠ 0 then 0xaaaa else 0x5555

/-- The states of the chip agree on what belongs to one counter: its status register, its bits of
the joint status registers, and its DMA status. -/
structure Agree (chip i : Nat) (hw hw' : Hardware) : Prop where
  status : ∀ x, genericRegister x = some ⟨.status, i⟩ → hw chip x = hw' chip x
  gxxStatus : ∀ x, genericRegister x = some ⟨.gxxStatus, i / 2⟩ →
    hw chip x &&& ownBits i = hw' chip x &&& ownBits i
  jointStatus2 : ∀ x, genericRegister x = some ⟨.jointStatus2, i / 2⟩ →
    hw chip x &&& ownBits i = hw' chip x &&& ownBits i
  dmaStatus : ∀ x, genericRegister x = some ⟨.dmaStatus, i⟩ → hw chip x = hw' chip x

/-- The driver's own state of the counter is the same. -/
structure SameCounter (c : Nat) (d d' : NiGpctDevice) : Prop where
  variant : d'.variant = d.variant
  counter : d'.counters c = d.counters c
  mode : d'.regs ⟨.mode, (d.counters c).counterIndex⟩ = d.regs ⟨.mode, (d.counters c).counterIndex⟩

/-- The states agree on the bits of the status register of counter 0 that are looked at. -/
def AgreeOnFirst (chip : Nat) (hw hw' : Hardware) : Prop :=
  hw chip .g0StatusRegister &&& giTcBit = hw' chip .g0StatusRegister &&& giTcBit ∧
    hw chip .g0StatusRegister &&& giGateInterruptBit =
      hw' chip .g0StatusRegister &&& giGateInterruptBit

theorem read_gxxStatus (hi : i < 4) :
    ∃ x, genericRegister x = some ⟨.gxxStatus, i / 2⟩ ∧
      ∀ hw chip, niGpctReadRegister hw chip ⟨.gxxStatus, i / 2⟩ = .ok (hw chip x &&& 0xffff) := by
  obtain h | h : i / 2 = 0 ∨ i / 2 = 1 := by omega
  · rw [h]
    exact ⟨.g01StatusRegister, rfl, fun _ _ => rfl⟩
  · rw [h]
    exact ⟨.g23StatusRegister, rfl, fun _ _ => rfl⟩

theorem read_jointStatus2 (hi : i < 4) :
    ∃ x, genericRegister x = some ⟨.jointStatus2, i / 2⟩ ∧
      ∀ hw chip, niGpctReadRegister hw chip ⟨.jointStatus2, i / 2⟩ = .ok (hw chip x &&& 0xffff) := by
  obtain h | h : i / 2 = 0 ∨ i / 2 = 1 := by omega
  · rw [h]
    exact ⟨.g01JointStatus2Register, rfl, fun _ _ => rfl⟩
  · rw [h]
    exact ⟨.g23JointStatus2Register, rfl, fun _ _ => rfl⟩

theorem read_dmaStatus (hi : i < 4) :
    ∃ x, genericRegister x = some ⟨.dmaStatus, i⟩ ∧
      ∀ hw chip, niGpctReadRegister hw chip ⟨.dmaStatus, i⟩ = .ok (hw chip x &&& 0xffff) := by
  obtain rfl | rfl | rfl | rfl : i = 0 ∨ i = 1 ∨ i = 2 ∨ i = 3 := by omega
  · exact ⟨.g0DmaStatusRegister, rfl, fun _ _ => rfl⟩
  · exact ⟨.g1DmaStatusRegister, rfl, fun _ _ => rfl⟩
  · exact ⟨.g2DmaStatusRegister, rfl, fun _ _ => rfl⟩
  · exact ⟨.g3DmaStatusRegister, rfl, fun _ _ => rfl⟩

/-- The status register that is read is that of counter 0. -/
theorem read_status (hi : i < 4) (hw : Hardware) (chip : Nat) :
    niGpctReadRegister hw chip ⟨.status, i⟩ = .ok (hw chip .g0StatusRegister &&& 0xffff) := by
  obtain h | h | h | h : i = 0 ∨ i = 1 ∨ i = 2 ∨ i = 3 := by omega
  all_goals
    rw [h]
    rfl

theorem ackRegister (hi : i < 4) :
    ∃ x, genericRegister x = some ⟨.interruptAcknowledge, i⟩ ∧
      niGpctTo660xRegister ⟨.interruptAcknowledge, i⟩ = .ok x := by
  obtain rfl | rfl | rfl | rfl : i = 0 ∨ i = 1 ∨ i = 2 ∨ i = 3 := by omega
  · exact ⟨.g0InterruptAcknowledge, rfl, rfl⟩
  · exact ⟨.g1InterruptAcknowledge, rfl, rfl⟩
  · exact ⟨.g2InterruptAcknowledge, rfl, rfl⟩
  · exact ⟨.g3InterruptAcknowledge, rfl, rfl⟩

theorem giReg_ok (name : RegName) (hi : i < 4) : giReg name 4 i = .ok ⟨name, i⟩ := if_pos hi

theorem gxxReg_ok (name : RegName) (hi : i < 4) : gxxReg name i = .ok ⟨name, i / 2⟩ := if_pos hi

/-- The events that are raised before the buffer is looked at. -/
def events (stale drq : Bool) (a : Async) : Async :=
  raise (raise (raise a false comediCbOverflow) stale comediCbError) drq comediCbOverflow

def handled (write : Option (Ni660xRegister × U32)) (miteChan : Option MiteChan) (s : Subdevice)
    (a : Async) : Handled :=
  match miteChan with
  | none => ⟨write, false, .ok a⟩
  | some m => ⟨write, m.chsr &&& chsrLinkc ≠ 0, (·.2) <$> miteSyncInputDma s a m.reads⟩

/-- The permanent staleness that is found in the second joint status. -/
def stale (loading : Bool) (i : Nat) (status2 : U32) : Bool :=
  loading && decide (status2 &&& giPermanentStaleBit i ≠ 0)

def ackOf (x : Ni660xRegister) (ack : U32) : Option (Ni660xRegister × U32) :=
  if ack ≠ 0 then some (x, ack) else none

/-- What the handler makes of the registers that it reads. -/
theorem handle_eq (miteChan : Option MiteChan) (s : Subdevice) (a : Async)
    (hv : d.variant = .ni660x) (hi : (d.counters c).counterIndex < 4) :
    let i := (d.counters c).counterIndex
    let chip := (d.counters c).chipIndex
    ∃ xg xs xd xa, genericRegister xg = some ⟨.gxxStatus, i / 2⟩ ∧
      genericRegister xs = some ⟨.jointStatus2, i / 2⟩ ∧ genericRegister xd = some ⟨.dmaStatus, i⟩ ∧
      genericRegister xa = some ⟨.interruptAcknowledge, i⟩ ∧ ∀ d', SameCounter c d d' → ∀ hw,
        niTioHandleInterrupt d' c hw miteChan s a =
          .ok (handled
            (ackOf xa (ackBits .ni660x i miteChan (hw chip xg &&& 0xffff)
              (hw chip .g0StatusRegister &&& 0xffff)))
            miteChan s
            (events
              (stale (decide (d.regs ⟨.mode, i⟩ &&& giLoadingOnGateBit ≠ 0)) i
                (hw chip xs &&& 0xffff))
              (decide (hw chip xd &&& 0xffff &&& giDrqErrorBit ≠ 0)) a)) := by
  intro i chip
  obtain ⟨xg, hxg, hg⟩ := read_gxxStatus hi
  obtain ⟨xs, hxs, hs⟩ := read_jointStatus2 hi
  obtain ⟨xd, hxd, hd⟩ := read_dmaStatus hi
  obtain ⟨xa, hxa, ha⟩ := ackRegister hi
  refine ⟨xg, xs, xd, xa, hxg, hxs, hxd, hxa, fun d' hd' hw => ?_⟩
  have hwrite (ack : U32) : ackWrite d' c ack = .ok (ackOf xa ack) := by
    unfold ackWrite ackOf
    rw [hd'.counter]
    split
    · rw [nitioGiInterruptAcknowledgeReg, bind_ok (giReg_ok _ hi), bind_ok ha]
      rfl
    · rfl
  have hstale (gxx : U32) : ∃ st, staleness d' c hw gxx = .ok (st,
      stale (decide (d.regs ⟨.mode, i⟩ &&& giLoadingOnGateBit ≠ 0)) i (hw chip xs &&& 0xffff)) := by
    unfold staleness stale
    dsimp only
    rw [hd'.counter, nitioGiModeReg, bind_ok (giReg_ok _ hi), hd'.mode]
    split
    · next hl =>
      rw [nitioGxxJointStatus2Reg, bind_ok (gxxReg_ok _ hi), bind_ok (hs hw chip), decide_eq_true hl]
      exact ⟨_, rfl⟩
    · next hl =>
      rw [decide_eq_false hl]
      exact ⟨false, rfl⟩
  have hdrq : drqError d' c hw = .ok (decide (hw chip xd &&& 0xffff &&& giDrqErrorBit ≠ 0)) := by
    unfold drqError
    rw [hd'.variant, hv, hd'.counter]
    dsimp only
    rw [nitioGiDmaStatusReg, bind_ok (giReg_ok _ hi), bind_ok (hd hw chip)]
    rfl
  obtain ⟨st, hst⟩ := hstale (hw chip xg &&& 0xffff)
  unfold niTioHandleInterrupt niTioAcknowledgeAndConfirm
  dsimp only
  rw [hd'.counter, hd'.variant, hv, nitioGxxStatusReg, bind_ok (gxxReg_ok _ hi), bind_ok (hg hw chip),
    nitioGiStatusReg, bind_ok (giReg_ok _ hi), bind_ok (read_status hi hw chip), bind_ok (hwrite _),
    bind_ok hst]
  rw [pure_bind, bind_ok hdrq]
  -- the gate errors of a 660x are bogus
  simp only [ne_eq, not_true_eq_false, and_false, decide_false]
  cases miteChan with
  | none => rfl
  | some m => rfl

theorem ackOf_inj {ack ack' : U32} (h : ackOf x ack = ackOf x ack') : ack = ack' := by
  unfold ackOf at h
  split at h
  · split at h
    · exact (Prod.ext_iff.mp (Option.some.inj h)).2
    · cases h
  · next hz =>
    split at h
    · cases h
    · next hz' => exact (not_not.mp hz).trans (not_not.mp hz').symm

/-- The bits that are acknowledged, by the flags that are found. -/
def ackFlags (odd gateError tcError tc gate : Bool) : U32 :=
  let ack : U32 := 0
  let ack := if gateError = true then ack ||| (if odd = true then 0x2 else 0x20) else ack
  let ack := if tcError = true then ack ||| (if odd = true then 0x4 else 0x40) else ack
  let ack := if tc = true then ack ||| giTcInterruptAckBit else ack
  if gate = true then ack ||| giGateInterruptAckBit else ack

theorem ackBits_eq (i : Nat) (miteChan : Option MiteChan) (gxx gi : U32) :
    ackBits .ni660x i miteChan gxx gi =
      ackFlags (decide (i % 2 ≠ 0)) (decide (gxx &&& giGateErrorBit i ≠ 0))
        (decide (gxx &&& giTcErrorBit i ≠ 0)) (decide (gi &&& giTcBit ≠ 0))
        (decide (gi &&& giGateInterruptBit ≠ 0)) := by
  unfold ackBits ackFlags giGateErrorConfirmBit giTcErrorConfirmBit
  simp only [decide_eq_true_eq, shouldAckGate, and_true]

theorem ackFlags_status : ∀ odd gateError tcError tc gate tc' gate' : Bool,
    ackFlags odd gateError tcError tc gate = ackFlags odd gateError tcError tc' gate' →
      tc = tc' ∧ gate = gate' := by
  decide

/-- A single bit that is zero in both words or in neither is the same in both. -/
theorem bit_eq_iff (x y : U32) (n : Nat) :
    decide (x &&& .twoPow 32 n ≠ 0) = decide (y &&& .twoPow 32 n ≠ 0) ↔
      x &&& .twoPow 32 n = y &&& .twoPow 32 n := by
  rw [decide_eq_decide, not_iff_not]
  constructor
  · intro h
    rcases BitFlags.and_twoPow_cases x n with hx | hx
    · rw [hx, h.mp hx]
    · rcases BitFlags.and_twoPow_cases y n with hy | hy
      · rw [hy, h.mpr hy]
      · rw [hx, hy]
  · intro h
    rw [h]

theorem and_low (y : U32) {m : U32} (hm : m &&& 0xffff = m) : y &&& 0xffff &&& m = y &&& m := by
  rw [BitVec.and_assoc, BitVec.and_comm 0xffff, hm]

theorem agreeOnFirst_iff (chip : Nat) (hw hw' : Hardware) :
    AgreeOnFirst chip hw hw' ↔
      decide (hw chip .g0StatusRegister &&& 0xffff &&& giTcBit ≠ 0) =
        decide (hw' chip .g0StatusRegister &&& 0xffff &&& giTcBit ≠ 0) ∧
      decide (hw chip .g0StatusRegister &&& 0xffff &&& giGateInterruptBit ≠ 0) =
        decide (hw' chip .g0StatusRegister &&& 0xffff &&& giGateInterruptBit ≠ 0) := by
  have htc : giTcBit = .twoPow 32 3 := rfl
  have hgate : giGateInterruptBit = .twoPow 32 2 := rfl
  unfold AgreeOnFirst
  simp only [and_low _ (show giTcBit &&& 0xffff = giTcBit by decide),
    and_low _ (show giGateInterruptBit &&& 0xffff = giGateInterruptBit by decide)]
  rw [htc, hgate, bit_eq_iff, bit_eq_iff]

theorem own_bits (i : Nat) :
    (giGateErrorBit i &&& ~~~ownBits i = 0 ∧ giTcErrorBit i &&& ~~~ownBits i = 0) ∧
      giPermanentStaleBit i &&& ~~~ownBits i = 0 := by
  unfold giGateErrorBit giTcErrorBit giPermanentStaleBit ownBits
  split <;> decide

/-- Words that agree on the bits of a counter agree on each of them. -/
theorem own_field {y z : U32} {m : U32} (h : y &&& ownBits i = z &&& ownBits i)
    (hm : m &&& ~~~ownBits i = 0) : y &&& 0xffff &&& m = z &&& 0xffff &&& m := by
  have h' : y &&& m = z &&& m := SharedRegs.and_eq_of_subset h hm
  rw [BitVec.and_assoc, BitVec.and_assoc, BitVec.and_comm 0xffff, ← BitVec.and_assoc, h',
    BitVec.and_assoc]

theorem SameCounter.refl (c : Nat) (d : NiGpctDevice) : SameCounter c d d := ⟨rfl, rfl, rfl⟩

theorem handled_write {write write' : Option (Ni660xRegister × U32)} {a' : Async}
    (h : handled write miteChan s a = handled write' miteChan s a') : write = write' := by
  unfold handled at h
  cases miteChan with
  | none => exact congrArg Handled.write h
  | some m => exact congrArg Handled.write h

/-- The interrupt of a counter has the same effect in states that agree on what belongs to it exactly
if the counter is the first one or the states agree on the status of the first one. -/
theorem handle_same_iff (hv : d.variant = .ni660x) (hi : (d.counters c).counterIndex < 4)
    (hd : SameCounter c d d')
    (h : Agree (d.counters c).chipIndex (d.counters c).counterIndex hw hw') :
    niTioHandleInterrupt d c hw miteChan s a = niTioHandleInterrupt d' c hw' miteChan s a ↔
      (d.counters c).counterIndex = 0 ∨ AgreeOnFirst (d.counters c).chipIndex hw hw' := by
  obtain ⟨xg, xs, xd, xa, hxg, hxs, hxd, -, he⟩ := handle_eq miteChan s a hv hi
  rw [he d (.refl c d) hw, he d' hd hw']
  generalize (d.counters c).chipIndex = chip at h ⊢
  generalize (d.counters c).counterIndex = i at h hxg hxs hxd ⊢
  obtain ⟨⟨hgate, htc⟩, hperm⟩ := own_bits i
  have hstale (loading : Bool) :
      stale loading i (hw chip xs &&& 0xffff) = stale loading i (hw' chip xs &&& 0xffff) := by
    unfold stale
    rw [own_field (h.jointStatus2 xs hxs) hperm]
  rw [hstale, h.dmaStatus xd hxd, ackBits_eq, ackBits_eq, own_field (h.gxxStatus xg hxg) hgate,
    own_field (h.gxxStatus xg hxg) htc]
  constructor
  · intro heq
    right
    have hack := ackOf_inj (handled_write (Except.ok.inj heq))
    rw [agreeOnFirst_iff]
    exact ackFlags_status _ _ _ _ _ _ _ hack
  · rintro (rfl | hfirst)
    · rw [h.status .g0StatusRegister rfl]
    · rw [agreeOnFirst_iff] at hfirst
      rw [hfirst.1, hfirst.2]

/-- What is acknowledged is acknowledged in the counter's own register. -/
theorem handle_write (hv : d.variant = .ni660x) (hi : (d.counters c).counterIndex < 4) {k : Handled}
    (hk : niTioHandleInterrupt d c hw miteChan s a = .ok k) {w : Ni660xRegister × U32}
    (hw : k.write = some w) :
    genericRegister w.1 = some ⟨.interruptAcknowledge, (d.counters c).counterIndex⟩ := by
  obtain ⟨xg, xs, xd, xa, -, -, -, hxa, he⟩ := handle_eq miteChan s a hv hi
  have hwrite : ∃ ack, k.write = ackOf xa ack := by
    rw [he d (.refl c d)] at hk
    rw [← Except.ok.inj hk]
    unfold handled
    cases miteChan with
    | none => exact ⟨_, rfl⟩
    | some m => exact ⟨_, rfl⟩
  obtain ⟨ack, hack⟩ := hwrite
  rw [hack, ackOf] at hw
  split at hw
  · rw [← Option.some.inj hw]
    exact hxa
  · cases hw

/-- Exactly when the counters of a chip do not influence each other: the interrupt of a counter is
handled alike in states that agree on what belongs to the counter if it is the first one or the
states agree on the status of the first one, and two registers are apart in the chip unless both
are status registers. -/
theorem counters_apart_iff (hv : d.variant = .ni660x) (hi : (d.counters c).counterIndex < 4)
    (hd : SameCounter c d d')
    (h : Agree (d.counters c).chipIndex (d.counters c).counterIndex hw hw')
    (miteChan : Option MiteChan) (s : Subdevice) (a : Async) :
    (niTioHandleInterrupt d c hw miteChan s a = niTioHandleInterrupt d' c hw' miteChan s a ↔
      (d.counters c).counterIndex = 0 ∨ AgreeOnFirst (d.counters c).chipIndex hw hw') ∧
    (∀ k w, niTioHandleInterrupt d c hw miteChan s a = .ok k → k.write = some w →
      genericRegister w.1 = some ⟨.interruptAcknowledge, (d.counters c).counterIndex⟩) ∧
    ∀ r r' x x', niGpctTo660xRegister r = .ok x → niGpctTo660xRegister r' = .ok x' → r ≠ r' →
      (x ≠ x' ∧ ((registerData x).direction.meets (registerData x').direction = true →
          apart (registerData x) (registerData x') = true) ↔
        ¬ (r.name = .status ∧ r'.name = .status)) := by
  refine ⟨handle_same_iff hv hi hd h, fun k w hk hw => handle_write hv hi hk hw,
    fun r r' x x' hx hx' hne => ?_⟩
  have hsame := same_register_iff hx hx'
  constructor
  · rintro ⟨hxne, -⟩ hstatus
    exact hxne (hsame.mpr (.inr hstatus))
  · intro hstatus
    have hxne : x ≠ x' := fun he => by
      rcases hsame.mp he with h | h
      · exact hne h
      · exact hstatus h
    exact ⟨hxne, registers_apart x x' hxne⟩

/-- The counters as `ni_660x_attach` numbers them. -/
def fourPerChip : NiGpctDevice where
  variant := .ni660x
  counters := fun c => ⟨c % 4, c / 4, 0, false⟩

/-- A chip with nothing to report, and one whose first counter has reached its terminal count. -/
def quiet : Hardware := fun _ _ => 0

def firstDone : Hardware := fun _ x => if x = .g0StatusRegister then 0x8 else 0

theorem agree_second : Agree 0 1 quiet firstDone := by
  have h {x : Ni660xRegister} {r : NiGpctRegister} (hx : genericRegister x = some r)
      (hr : r ≠ ⟨.status, 0⟩) : quiet 0 x = firstDone 0 x := by
    unfold quiet firstDone
    split
    · next he =>
      rw [he] at hx
      exact absurd (Option.some.inj hx).symm hr
    · rfl
  exact ⟨fun x hx => h hx (by decide), fun x hx => congrArg (· &&& ownBits 1) (h hx (by decide)),
    fun x hx => congrArg (· &&& ownBits 1) (h hx (by decide)), fun x hx => h hx (by decide)⟩

theorem counters_apart_second :
    (niTioHandleInterrupt fourPerChip 1 quiet none {} {} =
        niTioHandleInterrupt fourPerChip 1 firstDone none {} {} ↔
      (fourPerChip.counters 1).counterIndex = 0 ∨ AgreeOnFirst 0 quiet firstDone) ∧
    (∀ k w, niTioHandleInterrupt fourPerChip 1 quiet none {} {} = .ok k → k.write = some w →
      genericRegister w.1 = some ⟨.interruptAcknowledge, 1⟩) ∧
    ∀ r r' x x', niGpctTo660xRegister r = .ok x → niGpctTo660xRegister r' = .ok x' → r ≠ r' →
      (x ≠ x' ∧ ((registerData x).direction.meets (registerData x').direction = true →
          apart (registerData x) (registerData x') = true) ↔
        ¬ (r.name = .status ∧ r'.name = .status)) :=
  counters_apart_iff rfl (by decide) (.refl 1 fourPerChip) agree_second none {} {}

/-- The interrupt of counter 1 acknowledges a terminal count that is that of counter 0, and the
status registers of the two are one register. -/
theorem counters_not_apart :
    (∃ k k', niTioHandleInterrupt fourPerChip 1 quiet none {} {} = .ok k ∧
      niTioHandleInterrupt fourPerChip 1 firstDone none {} {} = .ok k' ∧
      Agree 0 1 quiet firstDone ∧ k.write = none ∧
      k'.write = some (.g1InterruptAcknowledge, giTcInterruptAckBit)) ∧
    niGpctTo660xRegister ⟨.status, 0⟩ = niGpctTo660xRegister ⟨.status, 1⟩ :=
  ⟨⟨_, _, rfl, rfl, agree_second, by decide, by decide⟩, rfl⟩

end Comedi.Ni660xIsolation
