import Comedi.NiCaldac

namespace Comedi.NiCaldacReadback

open ShiftRegister NiCaldac NiCaldac.CaldacEnum

/-- The register of a chip that has one of its channels. -/
def registerOf : CaldacEnum → Nat → Nat
  | mb88341, addr => addr + 1
  | dac8043, _ => 0
  | ad8522, addr => if addr = 0 then 0xa else 0xc
  | ad8842, addr => addr + 1
  | _, addr => addr

/-- The chip and the register that have a channel. -/
def place (board : NiBoard) (chan : Nat) : Option (Nat × Nat) :=
  (locate 0 (dacs board) chan).map fun ⟨i, type, addr⟩ => (i, registerOf type addr)

/-- What was last loaded into the register of a channel. -/
def held (board : NiBoard) (dev : Dev) (chan : Nat) : Option Nat :=
  (place board chan).bind fun ⟨i, reg⟩ => (chips board dev).regs i reg

structure Agrees (board : NiBoard) (stray : Nat) (writes : List CalibWrite) : Prop where
  readback : ∀ chan < nChan board, held board (run board stray writes) chan =
    some (niCalibInsnRead (run board stray writes) chan).toNat
  distinct : ∀ chan < nChan board, ∀ other < nChan board,
    place board chan = place board other → chan = other
  untouched : ∀ chan < nChan board, (∀ w ∈ writes, w.chan = chan → w.n = 0) →
    held board (run board stray writes) chan = some ((maxdata board chan).toNat / 2)

section Lines

variable {types : List CaldacEnum} {chips : Chips} {i : Nat}

theorem and_serDacLd (i : Nat) {byte : Byte} (h : byte ∈ ([0, 1, 2, 3] : List Byte)) :
    byte &&& serDacLd i = 0 := by
  rcases Nat.lt_or_ge i 8 with hi | hi
  · have hall : ∀ i < 8, ∀ byte ∈ ([0, 1, 2, 3] : List Byte), byte &&& serDacLd i = 0 := by decide
    exact hall i hi byte h
  · unfold serDacLd
    rw [BitVec.shiftLeft_eq_zero hi]
    exact BitVec.and_zero

/-- Without a load bit no register changes. -/
theorem write_regs {byte : Byte} (h : byte ∈ ([0, 1, 2, 3] : List Byte)) :
    (chips.write types byte).regs = chips.regs := by
  funext i reg
  unfold Chips.write
  dsimp only
  cases types[i]? with
  | none => rfl
  | some type => exact if_neg fun hload => hload.1 (and_serDacLd i h)

/-- The two bytes of a bit give the chips one rising edge. -/
theorem clockOut_bits (b : Bool) :
    ((clockOut b).foldl (Chips.write types) chips).bits = b :: chips.bits := by
  cases b <;> rfl

theorem clockOut_regs (b : Bool) :
    ((clockOut b).foldl (Chips.write types) chips).regs = chips.regs := by
  have hfirst : (if b then 0x02 else 0 : Byte) ∈ ([0, 1, 2, 3] : List Byte) := by
    cases b <;> decide
  have hsecond : (1 ||| if b then 0x02 else 0 : Byte) ∈ ([0, 1, 2, 3] : List Byte) := by
    cases b <;> decide
  rw [clockOut, List.foldl_cons, List.foldl_cons, List.foldl_nil, write_regs hsecond,
    write_regs hfirst]

theorem clocked (bits : List Bool) (chips : Chips) :
    ((bits.flatMap clockOut).foldl (Chips.write types) chips).bits = shiftIn bits chips.bits ∧
      ((bits.flatMap clockOut).foldl (Chips.write types) chips).regs = chips.regs := by
  induction bits generalizing chips with
  | nil => exact ⟨rfl, rfl⟩
  | cons b bits ih =>
    rw [List.flatMap_cons, List.foldl_append]
    obtain ⟨hbits, hregs⟩ := ih ((clockOut b).foldl (Chips.write types) chips)
    rw [clockOut_bits] at hbits
    rw [clockOut_regs] at hregs
    exact ⟨hbits, hregs⟩

theorem serDacLd_clock (i : Nat) : serDacLd i &&& 1 = 0 := by
  rw [BitVec.and_comm]
  exact and_serDacLd i (by decide)

theorem serDacLd_and {j : Nat} (hi : i < 3) (hj : j < 3) :
    serDacLd i &&& serDacLd j ≠ 0 ↔ i = j := by
  have hall : ∀ i < 3, ∀ j < 3, (serDacLd i &&& serDacLd j ≠ 0 ↔ i = j) := by decide
  exact hall i hi j hj

/-- A load bit loads a register of its own chip. -/
theorem strobe_regs (hi : i < 3) (hlength : types.length ≤ 3) {type : CaldacEnum}
    (htype : types[i]? = some type) (j reg : Nat) :
    (([serDacLd i, 0] : List Byte).foldl (Chips.write types) chips).regs j reg =
      if j = i ∧ (decode type chips.bits).1 = reg then some (decode type chips.bits).2
      else chips.regs j reg := by
  have hclock : decide (serDacLd i &&& 1 ≠ 0) = false :=
    decide_eq_false (not_not.mpr (serDacLd_clock i))
  rw [List.foldl_cons, List.foldl_cons, List.foldl_nil, write_regs (by decide)]
  unfold Chips.write
  simp only [hclock, Bool.false_eq_true, false_and, if_false]
  cases hother : types[j]? with
  | none =>
    have hne : j ≠ i := by
      rintro rfl
      rw [htype] at hother
      cases hother
    exact (if_neg fun h => hne h.1).symm
  | some other =>
    have hj : j < 3 := lt_of_lt_of_le (List.getElem?_eq_some_iff.mp hother).1 hlength
    by_cases hsame : i = j
    · subst hsame
      rw [htype] at hother
      cases hother
      exact if_congr (and_congr_left fun _ => serDacLd_and hi hi) rfl rfl
    · dsimp only
      rw [if_neg fun h => hsame ((serDacLd_and hi hj).mp h.1), if_neg fun h => hsame h.1.symm]

end Lines

section Packing

/-- The bits of a word over its value. -/
def address (type : CaldacEnum) (addr : Nat) : Nat :=
  ((caldacs type).packbits (BitVec.ofNat 32 addr) 0).toNat / 2 ^ (caldacs type).nBits

theorem packbits_or (type : CaldacEnum) (addr val : U32) :
    (caldacs type).packbits addr val = (caldacs type).packbits addr 0 |||
      (val &&& BitVec.ofNat 32 (2 ^ (caldacs type).nBits - 1)) := by
  cases type <;> simp [caldacs, packMb88341, packDac8800, packDac8043, packAd8522, packAd8804,
    packAd8842, BitVec.or_comm]

/-- A channel's word has its address alone over the value. -/
theorem packbits_address (type : CaldacEnum) {addr : Nat} (h : addr < (caldacs type).nChans) :
    ((caldacs type).packbits (BitVec.ofNat 32 addr) 0).toNat =
      2 ^ (caldacs type).nBits * address type addr ∧
    2 ^ (caldacs type).nBits * (address type addr + 1) ≤ 2 ^ (caldacs type).length ∧
    register type (address type addr) = registerOf type addr := by
  have hall : ∀ addr < (caldacs type).nChans,
      ((caldacs type).packbits (BitVec.ofNat 32 addr) 0).toNat =
        2 ^ (caldacs type).nBits * address type addr ∧
      2 ^ (caldacs type).nBits * (address type addr + 1) ≤ 2 ^ (caldacs type).length ∧
      register type (address type addr) = registerOf type addr := by
    cases type <;> decide
  exact hall addr h

theorem packbits_toNat (type : CaldacEnum) {addr : Nat} (h : addr < (caldacs type).nChans)
    (val : U32) :
    ((caldacs type).packbits (BitVec.ofNat 32 addr) val).toNat =
      2 ^ (caldacs type).nBits * address type addr + val.toNat % 2 ^ (caldacs type).nBits := by
  have hmask : (2 ^ (caldacs type).nBits - 1) % 2 ^ 32 = 2 ^ (caldacs type).nBits - 1 := by
    cases type <;> decide
  rw [packbits_or, BitVec.toNat_or, BitVec.toNat_and, BitVec.toNat_ofNat, hmask,
    Nat.and_two_pow_sub_one_eq_mod, (packbits_address type h).1]
  exact (Nat.two_pow_add_eq_or_of_lt (Nat.mod_lt _ (Nat.two_pow_pos _)) _).symm

/-- A chip finds in a channel's word the channel's register and the value. -/
theorem decode_sent (type : CaldacEnum) {addr : Nat} (h : addr < (caldacs type).nChans)
    (val : U32) (bits : List Bool) :
    decode type (shiftIn (sent (caldacs type).length
      ((caldacs type).packbits (BitVec.ofNat 32 addr) val).toNat) bits) =
        (registerOf type addr, val.toNat % 2 ^ (caldacs type).nBits) := by
  obtain ⟨-, hlength, hregister⟩ := packbits_address type h
  have hlow := Nat.mod_lt val.toNat (Nat.two_pow_pos (caldacs type).nBits)
  have hfits : 2 ^ (caldacs type).nBits * address type addr +
      val.toNat % 2 ^ (caldacs type).nBits < 2 ^ (caldacs type).length := by
    rw [Nat.mul_add, Nat.mul_one] at hlength
    omega
  dsimp only [decode]
  rw [word_shiftIn_sent, packbits_toNat type h, Nat.mod_eq_of_lt hfits,
    Nat.mul_add_div (Nat.two_pow_pos _), Nat.div_eq_of_lt hlow, Nat.add_zero, hregister,
    Nat.mul_add_mod, Nat.mod_eq_of_lt hlow]

theorem registerOf_inj (type : CaldacEnum) {addr other : Nat}
    (h : addr < (caldacs type).nChans) (hother : other < (caldacs type).nChans)
    (heq : registerOf type addr = registerOf type other) : addr = other := by
  have hall : ∀ addr < (caldacs type).nChans, ∀ other < (caldacs type).nChans,
      registerOf type addr = registerOf type other → addr = other := by
    cases type <;> decide
  exact hall addr h other hother heq

end Packing

section Places

variable {i j chan addr : Nat} {type : CaldacEnum} {types : List CaldacEnum}

/-- A channel is located at the DAC that the counts of the earlier ones leave it to. -/
theorem locate_some (h : locate i types chan = some (j, type, addr)) :
    ∃ k, j = i + k ∧ types[k]? = some type ∧ addr < (caldacs type).nChans ∧
      chan = ((types.take k).map fun type => (caldacs type).nChans).sum + addr := by
  induction types generalizing i chan with
  | nil => cases h
  | cons first types ih =>
    unfold locate at h
    split at h
    next hfirst =>
      cases h
      exact ⟨0, rfl, rfl, hfirst, (Nat.zero_add _).symm⟩
    next hfirst =>
      obtain ⟨k, hj, htype, haddr, hchan⟩ := ih h
      refine ⟨k + 1, by omega, htype, haddr, ?_⟩
      rw [List.take_succ_cons, List.map_cons, List.sum_cons]
      omega

theorem locate_isSome (i : Nat) :
    (locate i types chan).isSome ↔
      chan < (types.map fun type => (caldacs type).nChans).sum := by
  induction types generalizing i chan with
  | nil => simp [locate]
  | cons first types ih =>
    unfold locate
    rw [List.map_cons, List.sum_cons]
    split
    next hfirst => exact iff_of_true rfl (Nat.lt_add_right _ hfirst)
    next hfirst =>
      rw [ih]
      omega

variable {board : NiBoard}

theorem dacs_length (board : NiBoard) : (dacs board).length ≤ 3 :=
  (List.takeWhile_sublist _).length_le

theorem located (h : chan < nChan board) :
    ∃ i type addr, locate 0 (dacs board) chan = some (i, type, addr) := by
  obtain ⟨⟨i, type, addr⟩, hlocate⟩ := Option.isSome_iff_exists.mp ((locate_isSome 0).mpr h)
  exact ⟨i, type, addr, hlocate⟩

theorem place_eq (h : locate 0 (dacs board) chan = some (i, type, addr)) :
    place board chan = some (i, registerOf type addr) := by
  rw [place, h]
  rfl

/-- Distinct channels have distinct registers. -/
theorem place_inj {other : Nat} (h : chan < nChan board) (hother : other < nChan board)
    (heq : place board chan = place board other) : chan = other := by
  obtain ⟨i, type, addr, hlocate⟩ := located h
  obtain ⟨j, type', addr', hlocate'⟩ := located hother
  rw [place_eq hlocate, place_eq hlocate', Option.some.injEq, Prod.mk.injEq] at heq
  obtain ⟨k, hk, htype, haddr, hchan⟩ := locate_some hlocate
  obtain ⟨k', hk', htype', haddr', hchan'⟩ := locate_some hlocate'
  obtain rfl : k = k' := by omega
  rw [htype, Option.some.injEq] at htype'
  subst htype'
  rw [hchan, hchan', registerOf_inj type haddr haddr' heq.2]

theorem located_mem (h : locate i types chan = some (j, type, addr)) : type ∈ types := by
  obtain ⟨k, -, htype, -⟩ := locate_some h
  exact List.mem_of_getElem? htype

theorem getD_located {α : Type} (f : CaldacEnum → α) (d : α)
    (h : locate i types chan = some (j, type, addr)) :
    (types.flatMap fun type => List.replicate (caldacs type).nChans (f type)).getD chan d =
      f type := by
  induction types generalizing i chan with
  | nil => cases h
  | cons first types ih =>
    unfold locate at h
    rw [List.flatMap_cons]
    split at h
    next hfirst =>
      cases h
      rw [List.getD_append _ _ _ _ (by rw [List.length_replicate]; exact hfirst),
        List.getD_replicate _ hfirst]
    next hfirst =>
      rw [List.getD_append_right _ _ _ _ (by rw [List.length_replicate]; omega),
        List.length_replicate]
      exact ih h

/-- The limit of a channel is that of its DAC, from the list or common to all. -/
theorem maxdata_eq (h : locate 0 (dacs board) chan = some (i, type, addr)) :
    maxdata board chan = maxOf type := by
  unfold maxdata
  split
  next => exact getD_located maxOf 0 h
  next hsame =>
    have hbits : (caldacs type).nBits = (caldacs (board.caldac 0)).nBits :=
      not_not.mp fun hne => hsame ⟨type, located_mem h, hne⟩
    unfold maxOf
    rw [hbits]

theorem maxOf_toNat (type : CaldacEnum) : (maxOf type).toNat = 2 ^ (caldacs type).nBits - 1 := by
  cases type <;> decide

theorem maxOf_lt (type : CaldacEnum) : (maxOf type).toNat < 2 ^ 16 := by
  cases type <;> decide

theorem maxOf_half (type : CaldacEnum) (h : 0 < (caldacs type).nChans) :
    maxOf type / 2 ≠ 0 := by
  revert h
  cases type <;> decide

end Places

section Writes

variable {board : NiBoard} {stray addr chan : Nat} {val : U32} {dev : Dev}

/-- What is written for a channel loads the register of the channel alone. -/
theorem emitted_regs {i : Nat} {type : CaldacEnum} {own : Nat}
    (h : locate 0 (dacs board) addr = some (i, type, own)) (chips : Chips) (j reg : Nat) :
    ((emitted board stray addr val).foldl (Chips.write (dacs board)) chips).regs j reg =
      if place board addr = some (j, reg) then some (val.toNat % 2 ^ (caldacs type).nBits)
      else chips.regs j reg := by
  obtain ⟨k, hk, htype, hown, -⟩ := locate_some h
  rw [Nat.zero_add] at hk
  subst hk
  have hi : i < 3 :=
    lt_of_lt_of_le (List.getElem?_eq_some_iff.mp htype).1 (dacs_length board)
  obtain ⟨hbits, hregs⟩ := @clocked (dacs board) (sent (caldacs type).length
    ((caldacs type).packbits (BitVec.ofNat 32 own) val).toNat) chips
  have hplace : place board addr = some (j, reg) ↔ j = i ∧ registerOf type own = reg := by
    rw [place_eq h, Option.some.injEq, Prod.mk.injEq, eq_comm (a := i)]
  dsimp only [emitted]
  rw [h]
  dsimp only [shiftOut]
  rw [List.foldl_append, strobe_regs hi (dacs_length board) htype, hbits, hregs,
    decode_sent type hown]
  exact if_congr hplace.symm rfl rfl

theorem emitted_stray (h : locate 0 (dacs board) addr = none) (chips : Chips) :
    ((emitted board stray addr val).foldl (Chips.write (dacs board)) chips).regs =
      chips.regs := by
  dsimp only [emitted]
  rw [h]
  dsimp only [shiftOut]
  rw [List.foldl_append, List.foldl_cons, List.foldl_cons, List.foldl_nil,
    write_regs (by decide), write_regs (by decide)]
  exact (clocked _ chips).2

theorem write_cached :
    (niWriteCaldac board stray dev addr val).caldacs chan =
      if chan = addr then val.setWidth 16 else dev.caldacs chan := by
  unfold niWriteCaldac
  split
  next hval =>
    split
    next heq =>
      subst heq
      rw [← hval, BitVec.setWidth_setWidth_of_le _ (by decide), BitVec.setWidth_eq]
    next => rfl
  next => exact Function.update_apply _ _ _ _

theorem chips_append (bytes : List Byte) (caldacs : Nat → U16) :
    chips board ⟨caldacs, dev.serial ++ bytes⟩ =
      bytes.foldl (Chips.write (dacs board)) (chips board dev) :=
  List.foldl_append

/-- A write that differs from the setting loads the channel's register, any other write leaves
it. -/
theorem write_held (h : chan < nChan board)
    (hval : addr = chan → val.toNat ≤ (maxdata board chan).toNat) :
    held board (niWriteCaldac board stray dev addr val) chan =
      if addr = chan ∧ (dev.caldacs addr).setWidth 32 ≠ val then some val.toNat
      else held board dev chan := by
  unfold niWriteCaldac
  split
  next hcached => rw [if_neg fun hload => hload.2 hcached]
  next hcached =>
    obtain ⟨i, type, own, hlocate⟩ := located h
    have hplace := place_eq hlocate
    unfold held
    rw [chips_append, hplace, Option.bind_some, Option.bind_some]
    dsimp only
    cases hother : locate 0 (dacs board) addr with
    | none =>
      have hne : addr ≠ chan := by
        rintro rfl
        rw [hlocate] at hother
        cases hother
      rw [emitted_stray hother, if_neg fun hload => hne hload.1]
    | some found =>
      obtain ⟨j, type', own'⟩ := found
      rw [emitted_regs hother]
      by_cases heq : addr = chan
      · subst heq
        rw [hlocate, Option.some.injEq, Prod.mk.injEq, Prod.mk.injEq] at hother
        obtain ⟨rfl, rfl, rfl⟩ := hother
        have hmax := hval rfl
        rw [maxdata_eq hlocate, maxOf_toNat type] at hmax
        rw [if_pos hplace, if_pos ⟨rfl, hcached⟩,
          Nat.mod_eq_of_lt (lt_of_le_of_lt hmax (Nat.sub_one_lt (Nat.two_pow_pos _).ne'))]
      · have hown : addr < nChan board := (locate_isSome 0).mp (by rw [hother]; rfl)
        rw [if_neg fun hsame => heq (place_inj hown h (hsame.trans hplace.symm)),
          if_neg fun hload => heq hload.1]

end Writes

section Runs

variable (board : NiBoard) (stray : Nat)

/-- The register of a channel has its setting once it is loaded, and until then the setting is
zero. -/
structure Tracks (dev : Dev) (chan : Nat) (loaded : Prop) : Prop where
  set : loaded → held board dev chan = some (niCalibInsnRead dev chan).toNat
  unset : ¬ loaded → held board dev chan = none ∧ dev.caldacs chan = 0

def writeAll (dev : Dev) (writes : List (Nat × U32)) : Dev :=
  writes.foldl (fun dev w => niWriteCaldac board stray dev w.1 w.2) dev

/-- What `caldac_setup` writes. -/
def setupWrites : List (Nat × U32) :=
  List.replicate (nChan board) ((dacs board).length, maxdata board (dacs board).length / 2)

def userWrites (writes : List CalibWrite) : List (Nat × U32) :=
  writes.filterMap fun w => if w.n = 0 then none else some (w.chan, w.data)

variable {board stray} {dev : Dev} {chan addr : Nat} {val : U32} {loaded : Prop}

@[simp] theorem writeAll_nil (dev : Dev) : writeAll board stray dev [] = dev := rfl

@[simp] theorem writeAll_cons (dev : Dev) (w : Nat × U32) (writes : List (Nat × U32)) :
    writeAll board stray dev (w :: writes) =
      writeAll board stray (niWriteCaldac board stray dev w.1 w.2) writes := rfl

theorem tracks_start (chan : Nat) : Tracks board {} chan False := by
  refine ⟨False.elim, fun _ => ⟨?_, rfl⟩⟩
  unfold held
  cases place board chan <;> rfl

theorem maxdata_lt (h : chan < nChan board) : (maxdata board chan).toNat < 2 ^ 16 := by
  obtain ⟨i, type, own, hlocate⟩ := located h
  rw [maxdata_eq hlocate]
  exact maxOf_lt type

theorem maxdata_half (h : chan < nChan board) : maxdata board chan / 2 ≠ 0 := by
  obtain ⟨i, type, own, hlocate⟩ := located h
  obtain ⟨-, -, -, hown, -⟩ := locate_some hlocate
  rw [maxdata_eq hlocate]
  exact maxOf_half type (by omega)

theorem tracks_write (h : chan < nChan board)
    (hval : addr = chan → val.toNat ≤ (maxdata board chan).toNat)
    (hdev : Tracks board dev chan loaded) :
    Tracks board (niWriteCaldac board stray dev addr val) chan
      (loaded ∨ addr = chan ∧ val ≠ 0) := by
  have hheld := @write_held board stray addr chan val dev h hval
  have hcaldacs := @write_cached board stray addr chan val dev
  by_cases haddr : addr = chan
  · subst haddr
    by_cases hcached : (dev.caldacs addr).setWidth 32 = val
    · -- Nothing is written, and the value differs from zero only where the register is loaded.
      rw [niWriteCaldac, if_pos hcached]
      refine ⟨fun hloaded => hdev.set ?_, fun hnot => hdev.unset fun hloaded => hnot (.inl hloaded)⟩
      by_contra hnot
      rcases hloaded with hloaded | ⟨-, hval⟩
      · exact hnot hloaded
      · rw [(hdev.unset hnot).2] at hcached
        exact hval hcached.symm
    · rw [if_pos ⟨rfl, hcached⟩] at hheld
      rw [if_pos rfl] at hcaldacs
      have hread : (niCalibInsnRead (niWriteCaldac board stray dev addr val) addr).toNat =
          val.toNat := by
        have hmax := maxdata_lt h
        have hle := hval rfl
        rw [niCalibInsnRead, hcaldacs, BitVec.toNat_setWidth, BitVec.toNat_setWidth]
        omega
      refine ⟨fun _ => hheld.trans (congrArg some hread.symm), fun hnot => absurd ?_ hcached⟩
      rw [(hdev.unset fun hloaded => hnot (.inl hloaded)).2]
      exact (not_not.mp fun hne => hnot (.inr ⟨rfl, hne⟩)).symm
  · rw [if_neg fun hload => haddr hload.1] at hheld
    rw [if_neg fun heq => haddr heq.symm] at hcaldacs
    refine ⟨fun hloaded => ?_, fun hnot => ?_⟩
    · rw [hheld, niCalibInsnRead, hcaldacs]
      exact hdev.set (hloaded.resolve_right fun hwrite => haddr hwrite.1)
    · rw [hheld, hcaldacs]
      exact hdev.unset fun hloaded => hnot (.inl hloaded)

theorem tracks_writeAll (h : chan < nChan board) {writes : List (Nat × U32)}
    (hval : ∀ w ∈ writes, w.1 = chan → w.2.toNat ≤ (maxdata board chan).toNat)
    (hdev : Tracks board dev chan loaded) :
    Tracks board (writeAll board stray dev writes) chan
      (loaded ∨ ∃ w ∈ writes, w.1 = chan ∧ w.2 ≠ 0) := by
  induction writes generalizing dev loaded with
  | nil => simpa using hdev
  | cons w writes ih =>
    have hstep := @tracks_write board stray dev chan w.1 w.2 loaded h
      (hval w List.mem_cons_self) hdev
    have hrest := ih (fun w hw => hval w (List.mem_cons_of_mem _ hw)) hstep
    rw [or_assoc] at hrest
    simpa only [List.exists_mem_cons_iff, writeAll_cons] using hrest

theorem writeAll_other {writes : List (Nat × U32)} (h : ∀ w ∈ writes, w.1 ≠ chan) :
    (writeAll board stray dev writes).caldacs chan = dev.caldacs chan := by
  induction writes generalizing dev with
  | nil => rfl
  | cons w writes ih =>
    have hstep := @write_cached board stray w.1 chan w.2 dev
    rw [if_neg fun heq => h w List.mem_cons_self heq.symm] at hstep
    exact (ih fun w hw => h w (List.mem_cons_of_mem _ hw)).trans hstep

theorem caldacSetup_eq (dev : Dev) :
    caldacSetup board stray dev = writeAll board stray dev (setupWrites board) := by
  unfold caldacSetup writeAll setupWrites
  rw [← List.length_range (n := nChan board), ← List.map_const', List.foldl_map,
    List.length_range]

theorem calib_foldl (dev : Dev) (writes : List CalibWrite) :
    writes.foldl (niCalibInsnWrite board stray) dev =
      writeAll board stray dev (userWrites writes) := by
  induction writes generalizing dev with
  | nil => rfl
  | cons w writes ih =>
    rw [List.foldl_cons, ih]
    unfold userWrites niCalibInsnWrite
    rw [List.filterMap_cons]
    by_cases hn : w.n = 0
    · rw [if_pos hn, if_pos hn]
    · rw [if_neg hn, if_neg hn]
      rfl

/-- The one channel that `caldac_setup` sets is the one with the number of DACs. -/
theorem setup_setting (h : (dacs board).length < nChan board) :
    (writeAll board stray dev (setupWrites board)).caldacs (dacs board).length =
      (maxdata board (dacs board).length / 2).setWidth 16 := by
  obtain ⟨count, hcount⟩ := Nat.exists_eq_succ_of_ne_zero (Nat.ne_zero_of_lt h)
  rw [setupWrites, hcount, List.replicate_succ', writeAll, List.foldl_append, List.foldl_cons,
    List.foldl_nil, write_cached, if_pos rfl]

end Runs

section Agreement

variable {board : NiBoard} {stray chan : Nat} {writes : List CalibWrite}

/-- What the core passes on: a channel of the subdevice and a value up to its limit. -/
structure Valid (board : NiBoard) (w : CalibWrite) : Prop where
  chan_lt : w.chan < nChan board
  data_le : w.n ≠ 0 → w.data.toNat ≤ (maxdata board w.chan).toNat

theorem mem_userWrites {w : Nat × U32} :
    w ∈ userWrites writes ↔ ∃ insn ∈ writes, insn.n ≠ 0 ∧ w = (insn.chan, insn.data) := by
  unfold userWrites
  rw [List.mem_filterMap]
  refine exists_congr fun insn => and_congr_right fun _ => ?_
  by_cases hn : insn.n = 0
  · simp [hn]
  · simp [hn, eq_comm]

theorem mem_setupWrites {w : Nat × U32} (hw : w ∈ setupWrites board) :
    w = ((dacs board).length, maxdata board (dacs board).length / 2) :=
  (List.mem_replicate.mp hw).2

theorem tracks_setup (stray : Nat) (h : chan < nChan board) :
    Tracks board (writeAll board stray {} (setupWrites board)) chan
      (chan = (dacs board).length) := by
  have hval : ∀ w ∈ setupWrites board, w.1 = chan →
      w.2.toNat ≤ (maxdata board chan).toNat := by
    intro w hw hchan
    rw [mem_setupWrites hw] at hchan ⊢
    subst hchan
    rw [BitVec.toNat_udiv]
    exact Nat.div_le_self _ _
  have htracks := @tracks_writeAll board stray {} chan False h _ hval (tracks_start chan)
  have hloaded : (False ∨ ∃ w ∈ setupWrites board, w.1 = chan ∧ w.2 ≠ 0) ↔
      chan = (dacs board).length := by
    rw [false_or]
    refine ⟨?_, ?_⟩
    · rintro ⟨w, hw, hchan, -⟩
      rw [mem_setupWrites hw] at hchan
      exact hchan.symm
    · rintro rfl
      exact ⟨_, List.mem_replicate.mpr ⟨Nat.ne_zero_of_lt h, rfl⟩, rfl, maxdata_half h⟩
  rwa [hloaded] at htracks

theorem tracks_run (stray : Nat) (hvalid : ∀ w ∈ writes, Valid board w) (h : chan < nChan board) :
    Tracks board (run board stray writes) chan
      (chan = (dacs board).length ∨ ∃ w ∈ writes, w.n ≠ 0 ∧ w.chan = chan ∧ w.data ≠ 0) := by
  have hval : ∀ w ∈ userWrites writes, w.1 = chan →
      w.2.toNat ≤ (maxdata board chan).toNat := by
    intro w hw hchan
    obtain ⟨insn, hinsn, hn, rfl⟩ := mem_userWrites.mp hw
    subst hchan
    exact (hvalid insn hinsn).data_le hn
  have htracks := @tracks_writeAll board stray _ chan _ h _ hval (tracks_setup stray h)
  have hwritten : (∃ w ∈ userWrites writes, w.1 = chan ∧ w.2 ≠ 0) ↔
      ∃ w ∈ writes, w.n ≠ 0 ∧ w.chan = chan ∧ w.data ≠ 0 := by
    refine ⟨?_, ?_⟩
    · rintro ⟨w, hw, hchan, hdata⟩
      obtain ⟨insn, hinsn, hn, rfl⟩ := mem_userWrites.mp hw
      exact ⟨insn, hinsn, hn, hchan, hdata⟩
    · rintro ⟨insn, hinsn, hn, hchan, hdata⟩
      exact ⟨_, mem_userWrites.mpr ⟨insn, hinsn, hn, rfl⟩, hchan, hdata⟩
  rw [hwritten] at htracks
  unfold run
  rw [caldacSetup_eq, calib_foldl]
  exact htracks

/-- Until it is written, the channel with the number of DACs keeps half of its limit. -/
theorem run_untouched (h : (dacs board).length < nChan board)
    (huntouched : ∀ w ∈ writes, w.chan = (dacs board).length → w.n = 0) :
    (niCalibInsnRead (run board stray writes) (dacs board).length).toNat =
      (maxdata board (dacs board).length).toNat / 2 := by
  have hother : ∀ w ∈ userWrites writes, w.1 ≠ (dacs board).length := by
    intro w hw hchan
    obtain ⟨insn, hinsn, hn, rfl⟩ := mem_userWrites.mp hw
    exact hn (huntouched insn hinsn hchan)
  have hmax := maxdata_lt h
  unfold run niCalibInsnRead
  rw [caldacSetup_eq, calib_foldl, writeAll_other hother, setup_setting h,
    BitVec.toNat_setWidth, BitVec.toNat_setWidth, BitVec.toNat_udiv]
  change (maxdata board (dacs board).length).toNat / 2 % 2 ^ 16 % 2 ^ 32 = _
  omega

/-- The registers agree with what is read back exactly if every channel but the one with the
number of DACs has been given a value other than zero. -/
theorem calibration_agrees (board : NiBoard) (stray : Nat) {writes : List CalibWrite}
    (hvalid : ∀ w ∈ writes, Valid board w) :
    Agrees board stray writes ↔ ∀ chan < nChan board, chan ≠ (dacs board).length →
      ∃ w ∈ writes, w.n ≠ 0 ∧ w.chan = chan ∧ w.data ≠ 0 := by
  constructor
  · intro hagrees chan h hne
    by_contra hnever
    have htracks := tracks_run stray hvalid h
    have hheld := (htracks.unset fun hloaded => hloaded.elim hne hnever).1
    rw [hagrees.readback chan h] at hheld
    cases hheld
  · intro hwritten
    have hreadback : ∀ chan < nChan board, held board (run board stray writes) chan =
        some (niCalibInsnRead (run board stray writes) chan).toNat := by
      intro chan h
      refine (tracks_run stray hvalid h).set ?_
      by_cases hsetup : chan = (dacs board).length
      · exact .inl hsetup
      · exact .inr (hwritten chan h hsetup)
    refine ⟨hreadback, fun chan h other hother => place_inj h hother, ?_⟩
    intro chan h huntouched
    have hsetup : chan = (dacs board).length := by
      by_contra hne
      obtain ⟨w, hw, hn, hchan, -⟩ := hwritten chan h hne
      exact hn (huntouched w hw hchan)
    rw [hreadback chan h, hsetup, run_untouched (hsetup ▸ h) (hsetup ▸ huntouched)]

def oneAd8522 : NiBoard := ⟨fun i => if i = 0 then ad8522 else caldacNone⟩

theorem calibration_agrees_written : Agrees oneAd8522 32 [⟨0, 1, 0x123⟩, ⟨1, 1, 5⟩] := by
  have hvalid : ∀ w ∈ ([⟨0, 1, 0x123⟩, ⟨1, 1, 5⟩] : List CalibWrite), Valid oneAd8522 w := by
    intro w hw
    rcases List.mem_cons.mp hw with rfl | hw
    · exact ⟨by decide, by decide⟩
    · rw [List.mem_singleton.mp hw]
      exact ⟨by decide, by decide⟩
  exact (calibration_agrees oneAd8522 32 hvalid).mpr (by decide)

def oneAd8804Debug : NiBoard := ⟨fun i => if i = 0 then ad8804Debug else caldacNone⟩

/-- After `caldac_setup` alone, nothing has been written for channel 0, and it reads 0. -/
theorem setup_misses_channel :
    nChan oneAd8804Debug = 16 ∧ held oneAd8804Debug (run oneAd8804Debug 32 []) 0 = none ∧
      niCalibInsnRead (run oneAd8804Debug 32 []) 0 = 0 ∧ maxdata oneAd8804Debug 0 = 255 ∧
      ¬ Agrees oneAd8804Debug 32 [] := by
  refine ⟨by decide, by decide +kernel, by decide +kernel, by decide, fun hagrees => ?_⟩
  have hreadback := hagrees.readback 0 (by decide)
  revert hreadback
  decide +kernel

end Agreement

end Comedi.NiCaldacReadback
