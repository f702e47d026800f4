import Comedi.BitFields
import Comedi.Serial2002
import Comedi.WireStreams

namespace Comedi.SerialRoundTrip

open BitFields Serial2002 WireStreams

/-- The messages the wire format is for: 0 or 1 on a digital line, 32 bits on a channel, and
one of 32 indices. -/
def Sendable (m : SerialData) : Prop :=
  m.index.toNat < 32 ∧ match m.kind with
    | .isInvalid => False
    | .isDigital => m.value = 0 ∨ m.value = 1
    | .isChannel => m.value.toNat < 2 ^ 32

instance (m : SerialData) : Decidable (Sendable m) := by
  unfold Sendable
  cases m.kind <;> infer_instance

theorem index_eq_ofNat {index : BitVec 32} (h : index.toNat < 32) :
    ∃ i : Fin 32, index = BitVec.ofNat 32 i := ⟨⟨index.toNat, h⟩, by simp⟩

/-- A byte with the top bit set carries seven bits of the value. -/
theorem groupByte (g : BitVec 64) (hg : g.toNat < 128) :
    let data : BitVec 32 := BitVec.setWidth 32 (((0x80 : BitVec 64) ||| g).setWidth 8)
    data &&& 0x80 ≠ 0 ∧ (data &&& 0x7f).signExtend 64 = g := by
  obtain ⟨n, rfl⟩ : ∃ n : Fin 128, g = BitVec.ofNat 64 n := ⟨⟨g.toNat, hg⟩, by simp⟩
  revert n
  decide

/-- The byte that ends a message: two bits of the value over the index. -/
theorem endByte (q : Fin 4) (i : Fin 32) :
    let data : BitVec 32 := BitVec.setWidth 32 ((BitVec.ofNat 64 (q * 32) |||
      ((BitVec.ofNat 32 i).signExtend 64 &&& 0x1f)).setWidth 8)
    data &&& 0x80 = 0 ∧ ((data &&& 0x60).sshiftRight 5).signExtend 64 = BitVec.ofNat 64 q ∧
      (data.sshiftRight 5) &&& 0x03 = BitVec.ofNat 32 q ∧ data &&& 0x1f = BitVec.ofNat 32 i := by
  revert q i
  decide +kernel

theorem low_two (v : BitVec 64) : v &&& 3 = BitVec.ofNat 64 (v.toNat % 4) := by
  have h := toNat_shift_and v 0 2 (by decide)
  rw [BitVec.ushiftRight_zero, field, Nat.pow_zero, Nat.div_one] at h
  apply BitVec.eq_of_toNat_eq
  rw [BitVec.toNat_ofNat, Nat.mod_eq_of_lt (by omega)]
  exact h

theorem shifted_low_two (v : BitVec 64) :
    (v <<< 5) &&& 0x60 = BitVec.ofNat 64 (v.toNat % 4 * 32) := by
  have hsplit : (0x60 : BitVec 64) = (3 : BitVec 64) <<< 5 := rfl
  rw [hsplit, ← BitVec.shiftLeft_and_distrib, low_two]
  apply BitVec.eq_of_toNat_eq
  simp only [BitVec.toNat_shiftLeft, BitVec.toNat_ofNat, Nat.shiftLeft_eq]
  omega

theorem readLoop_group (result : SerialData) (length : Nat) {g : BitVec 64} (hg : g.toNat < 128)
    (tty : List (BitVec 8)) :
    readLoop result length (((0x80 : BitVec 64) ||| g).setWidth 8 :: tty) =
      readLoop { result with value := (result.value <<< 7) ||| g } (length + 1) tty := by
  obtain ⟨htop, hvalue⟩ := groupByte g hg
  rw [readLoop, if_pos htop, hvalue]

/-- Sent or not, a leading group leaves the reader with the value down to that group. -/
theorem readLoop_leading {result : SerialData} {length shift : Nat} {v bound mask : BitVec 64}
    (hmask : mask.toNat < 128)
    (hsent : (result.value <<< 7) ||| ((v >>> shift) &&& mask) = v >>> shift)
    (hskipped : ¬v ≥ bound → result.value = v >>> shift) (tty : List (BitVec 8)) :
    ∃ length', readLoop result length (leadingByte v bound shift mask ++ tty) =
      readLoop { result with value := v >>> shift } length' tty := by
  unfold leadingByte
  split
  next =>
    have hg : ((v >>> shift) &&& mask).toNat < 128 := by
      rw [BitVec.toNat_and]
      exact lt_of_le_of_lt Nat.and_le_right hmask
    refine ⟨length + 1, ?_⟩
    rw [List.singleton_append, readLoop_group result length hg, hsent]
  next hle =>
    refine ⟨length, ?_⟩
    rw [List.nil_append, ← hskipped hle]

theorem readLoop_end (result : SerialData) (length : Nat) {v : BitVec 64} {index : BitVec 32}
    (hi : index.toNat < 32) (tty : List (BitVec 8)) :
    readLoop result (length + 1)
        ((((v <<< 5) &&& 0x60) ||| (index.signExtend 64 &&& 0x1f)).setWidth 8 :: tty) =
      (⟨.isChannel, index, (result.value <<< 2) ||| BitVec.ofNat 64 (v.toNat % 4)⟩, tty) := by
  obtain ⟨i, rfl⟩ := index_eq_ofNat hi
  obtain ⟨htop, hvalue, -, hindex⟩ := endByte ⟨v.toNat % 4, Nat.mod_lt _ (by decide)⟩ i
  have hlength : length + 1 + 1 ≠ 1 := by omega
  rw [shifted_low_two, readLoop]
  simp only [htop, ne_eq, not_true, if_false, lastByte, if_neg hlength, hvalue, hindex]

theorem digital_read {index : BitVec 32} {value : BitVec 64} (hi : index.toNat < 32)
    (hv : value = 0 ∨ value = 1) (tty : List (BitVec 8)) :
    serialRead (serialWrite ⟨.isDigital, index, value⟩ ++ tty) =
      (⟨.isDigital, index, value⟩, tty) := by
  obtain ⟨i, rfl⟩ := index_eq_ofNat hi
  obtain rfl | rfl := hv
  · obtain ⟨htop, -, hkind, hindex⟩ := endByte 0 i
    have hsent : ((0 : BitVec 64) <<< 5) &&& 0x20 = BitVec.ofNat 64 ((0 : Fin 4) * 32) := rfl
    simp only [serialWrite, if_true, hsent, List.singleton_append, serialRead, readLoop, htop,
      ne_eq, not_true, if_false, lastByte, hkind, hindex]
    rfl
  · obtain ⟨htop, -, hkind, hindex⟩ := endByte 1 i
    have hsent : ((1 : BitVec 64) <<< 5) &&& 0x20 = BitVec.ofNat 64 ((1 : Fin 4) * 32) := rfl
    simp only [serialWrite, if_true, hsent, List.singleton_append, serialRead, readLoop, htop,
      ne_eq, not_true, if_false, lastByte, hkind, hindex]
    rfl

theorem shiftRight_of_lt {v : BitVec 64} {shift : Nat} (h : v.toNat < 2 ^ shift) :
    v >>> shift = 0 := by
  apply BitVec.eq_of_toNat_eq
  rw [BitVec.toNat_ushiftRight, Nat.shiftRight_eq_div_pow, Nat.div_eq_of_lt h]
  rfl

theorem lt_two_pow_of_not_ge {v : BitVec 64} {shift : Nat} (hbound : shift < 64)
    (hlt : ¬v ≥ (1 : BitVec 64) <<< shift) : v.toNat < 2 ^ shift := by
  have h : v.toNat < ((1 : BitVec 64) <<< shift).toNat := BitVec.lt_def.mp (BitVec.not_le.mp hlt)
  have hpow : 2 ^ shift < 2 ^ 64 := Nat.pow_lt_pow_right (by decide) hbound
  have hone : (1 : BitVec 64).toNat = 1 := rfl
  rwa [BitVec.toNat_shiftLeft, hone, Nat.one_shiftLeft, Nat.mod_eq_of_lt hpow] at h

/-- A group of seven bits: the reader holds the value down to `shift + 7` before it and down
to `shift` after it, also when the value is too small for it to be sent. -/
theorem readLoop_seven (v : BitVec 64) {shift : Nat} (hbound : shift < 64) (length : Nat)
    (tty : List (BitVec 8)) :
    ∃ length', readLoop ⟨.isInvalid, 0, v >>> (shift + 7)⟩ length
        (leadingByte v ((1 : BitVec 64) <<< shift) shift 0x7f ++ tty) =
      readLoop ⟨.isInvalid, 0, v >>> shift⟩ length' tty := by
  apply readLoop_leading (by decide)
  · exact shiftRight_join v shift 7 (by decide)
  · intro hlt
    have hv := lt_two_pow_of_not_ge hbound hlt
    have hv' : v.toNat < 2 ^ (shift + 7) :=
      lt_of_lt_of_le hv (Nat.pow_le_pow_right (by decide) (Nat.le_add_right shift 7))
    rw [shiftRight_of_lt hv, shiftRight_of_lt hv']

/-- The leading groups, sent or not, hand the reader the value down to its low nine bits. -/
theorem readLoop_leadingBytes {value : BitVec 64} (hv : value.toNat < 2 ^ 32)
    (tty : List (BitVec 8)) :
    ∃ length, readLoop ⟨.isInvalid, 0, 0⟩ 0 (leadingBytes value ++ tty) =
      readLoop ⟨.isInvalid, 0, value >>> 9⟩ length tty := by
  have htop : (value >>> 30) &&& (3 : BitVec 64) = value >>> 30 := by
    apply BitVec.eq_of_toNat_eq
    rw [low_two, BitVec.toNat_ofNat, BitVec.toNat_ushiftRight, Nat.shiftRight_eq_div_pow]
    omega
  have hfirst : ∀ tty, ∃ length, readLoop ⟨.isInvalid, 0, 0⟩ 0
      (leadingByte value ((1 : BitVec 64) <<< 30) 30 0x03 ++ tty) =
        readLoop ⟨.isInvalid, 0, value >>> 30⟩ length tty := by
    apply readLoop_leading (by decide)
    · rw [htop]
      simp
    · intro hlt
      exact (shiftRight_of_lt (lt_two_pow_of_not_ge (by decide) hlt)).symm
  simp only [leadingBytes, List.append_assoc]
  obtain ⟨l₃₀, h₃₀⟩ := hfirst _
  obtain ⟨l₂₃, h₂₃⟩ := readLoop_seven value (by decide : 23 < 64) l₃₀ _
  obtain ⟨l₁₆, h₁₆⟩ := readLoop_seven value (by decide : 16 < 64) l₂₃ _
  obtain ⟨l₉, h₉⟩ := readLoop_seven value (by decide : 9 < 64) l₁₆ tty
  refine ⟨l₉, ?_⟩
  rw [h₃₀, h₂₃, h₁₆, h₉]

theorem channel_read {index : BitVec 32} {value : BitVec 64} (hi : index.toNat < 32)
    (hv : value.toNat < 2 ^ 32) (tty : List (BitVec 8)) :
    serialRead (serialWrite ⟨.isChannel, index, value⟩ ++ tty) =
      (⟨.isChannel, index, value⟩, tty) := by
  have hpenult : ((value >>> 2) &&& (0x7f : BitVec 64)).toNat < 128 := by
    rw [BitVec.toNat_and]
    exact lt_of_le_of_lt Nat.and_le_right (by decide)
  have hseven : ((value >>> 9) <<< 7) ||| ((value >>> 2) &&& (0x7f : BitVec 64)) = value >>> 2 :=
    shiftRight_join value 2 7 (by decide)
  have hlow : ((value >>> 2) <<< 2) ||| BitVec.ofNat 64 (value.toNat % 4) = value := by
    rw [← low_two]
    exact shiftRight_join value 0 2 (by decide)
  have hkind : ¬SerialKind.isChannel = .isDigital := by decide
  rw [serialRead, serialWrite, if_neg hkind, List.append_assoc]
  obtain ⟨length, hleading⟩ := readLoop_leadingBytes hv _
  rw [hleading, List.cons_append, readLoop_group _ _ hpenult, List.cons_append, List.nil_append,
    readLoop_end _ _ hi, hseven, hlow]

theorem sendable_read {m : SerialData} (h : Sendable m) (tty : List (BitVec 8)) :
    serialRead (serialWrite m ++ tty) = (m, tty) := by
  obtain ⟨kind, index, value⟩ := m
  obtain ⟨hi, hv⟩ := h
  cases kind with
  | isInvalid => exact absurd hv id
  | isDigital => exact digital_read hi hv tty
  | isChannel => exact channel_read hi hv tty

/-- The wire format round-trips: after any number of reads from the bytes of a list of
messages, those read are the first of the list and the line holds exactly the bytes of the
others, with whatever was sent after them. -/
theorem wire_round_trip (msgs : List SerialData) (h : ∀ m ∈ msgs, Sendable m)
    (rest : List (BitVec 8)) (n : Nat) (hn : n ≤ msgs.length) :
    reads serialRead n (wire serialWrite msgs ++ rest) =
      (msgs.take n, wire serialWrite (msgs.drop n) ++ rest) :=
  reads_wire serialRead serialWrite rest (fun m hm => sendable_read (h m hm)) n hn

/-- A digital and two channel messages, the last with a value of all six bytes. -/
def threeMessages : List SerialData :=
  [⟨.isDigital, 31, 1⟩, ⟨.isChannel, 0, 511⟩, ⟨.isChannel, 7, 0xffffffff⟩]

theorem wire_round_trip_three :
    reads serialRead 3 (wire serialWrite threeMessages ++ [0x7f]) = (threeMessages, [0x7f]) :=
  wire_round_trip threeMessages (by decide) [0x7f] 3 (by decide)

end Comedi.SerialRoundTrip
