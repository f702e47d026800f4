import Comedi.BitFlags
import Comedi.Ni65xx

namespace Comedi.Ni65xxPorts

open Ni65xx Function

variable {board : Ni65xxBoard} {s : Sub} {base k j i : Nat} {mask data x : U32}
  {pins : Nat → Byte} {d : Ni65xxPrivate}

/-- The bits of a word that are for the channels of a port. -/
def window (base portOffset : Nat) (x : U32) : U32 :=
  let bitshift : Int := (portOffset * ni65xxChannelsPerPort : Nat) - (base : Nat)
  (if 0 < bitshift then x >>> bitshift.toNat else x <<< (-bitshift).toNat) &&& 0xff

/-- The bits of a port, in their places in the word that is read. -/
def readWindow (base portOffset : Nat) (x : U32) : U32 :=
  let bitshift : Int := (portOffset * ni65xxChannelsPerPort : Nat) - (base : Nat)
  if 0 < bitshift then x <<< bitshift.toNat else x >>> (-bitshift).toNat

/-- What a port of a board shows of its latch. -/
def image (board : Ni65xxBoard) (output : U16) : Byte :=
  (if board.invertOutputs then ~~~output else output).setWidth 8

def latched (base portOffset : Nat) (mask data : U32) (output : U16) : U16 :=
  output &&& ~~~((window base portOffset mask).setWidth 16) |||
    (window base portOffset data &&& window base portOffset mask).setWidth 16

def writePort (board : Ni65xxBoard) (s : Sub) (base portOffset : Nat) (mask data : U32)
    (d : Ni65xxPrivate) : Ni65xxPrivate :=
  let port := s.basePort + portOffset
  let output := latched base portOffset mask data (d.outputBits port)
  if window base portOffset mask ≠ 0 then
    { d with
      outputBits := update d.outputBits port output
      portData := update d.portData port (image board output) }
  else d

/-- The levels of the channels of a port. -/
def levels (board : Ni65xxBoard) (s : Sub) (pins : Nat → Byte) (port : Nat) (d : Ni65xxPrivate) :
    U32 :=
  let portReadBits : U32 := (readPort s pins port d).setWidth 32
  if s.kind = .do_ ∧ board.invertOutputs then portReadBits ^^^ 0xff else portReadBits

theorem bitsLoop_succ (left portOffset : Nat) (readBits : U32) :
    bitsLoop board s base mask data pins (left + 1) portOffset readBits d =
      if base + 32 ≤ 8 * portOffset then (readBits, d)
      else
        bitsLoop board s base mask data pins left (portOffset + 1)
          (readBits ||| readWindow base portOffset
            (levels board s pins (s.basePort + portOffset)
              (writePort board s base portOffset mask data d)))
          (writePort board s base portOffset mask data d) := by
  have hshift : (32 : Int) ≤ (portOffset * ni65xxChannelsPerPort : Nat) - (base : Nat) ↔
      base + 32 ≤ 8 * portOffset := by
    unfold ni65xxChannelsPerPort
    omega
  by_cases h : base + 32 ≤ 8 * portOffset
  · rw [bitsLoop, if_pos (hshift.mpr h), if_pos h]
  · rw [bitsLoop, if_neg (mt hshift.mp h), if_neg h]
    rfl

section Bits

theorem window_bit :
    (window base k x).getLsbD j =
      (decide (j < 8) && decide (base ≤ 8 * k + j) && x.getLsbD (8 * k + j - base)) := by
  have hmask : ∀ j < 32, (0xff : U32).getLsbD j = decide (j < 8) := by decide
  by_cases hj : j < 32
  · unfold window ni65xxChannelsPerPort
    rw [BitVec.getLsbD_and, hmask j hj, Bool.and_comm, Bool.and_assoc]
    congr 1
    split
    next hpos =>
      rw [BitVec.getLsbD_ushiftRight, decide_eq_true (by omega), Bool.true_and]
      congr 1
      omega
    next hneg =>
      rw [BitVec.getLsbD_shiftLeft, decide_eq_true hj, Bool.true_and]
      by_cases hbase : base ≤ 8 * k + j
      · rw [decide_eq_true hbase, decide_eq_false (by omega), Bool.not_false]
        congr 2
        omega
      · rw [decide_eq_false hbase, decide_eq_true (by omega), Bool.not_true, Bool.false_and,
          Bool.false_and]
  · rw [BitVec.getLsbD_of_ge _ _ (Nat.le_of_not_lt hj), decide_eq_false (by omega), Bool.false_and,
      Bool.false_and]

theorem readWindow_bit (hi : i < 32) :
    (readWindow base k x).getLsbD i =
      (decide (8 * k ≤ base + i) && x.getLsbD (base + i - 8 * k)) := by
  unfold readWindow ni65xxChannelsPerPort
  dsimp only
  split
  next hpos =>
    rw [BitVec.getLsbD_shiftLeft, decide_eq_true hi, Bool.true_and]
    by_cases hbase : 8 * k ≤ base + i
    · rw [decide_eq_true hbase, decide_eq_false (by omega), Bool.not_false]
      congr 2
      omega
    · rw [decide_eq_false hbase, decide_eq_true (by omega), Bool.not_true, Bool.false_and,
        Bool.false_and]
  next hneg =>
    rw [BitVec.getLsbD_ushiftRight, decide_eq_true (by omega), Bool.true_and]
    congr 1
    omega

/-- The mask has a bit for the channel. -/
def Hits (base : Nat) (mask : U32) (ch : Nat) : Prop :=
  base ≤ ch ∧ mask.getLsbD (ch - base) = true

instance (base : Nat) (mask : U32) (ch : Nat) : Decidable (Hits base mask ch) :=
  inferInstanceAs (Decidable (_ ∧ _))

theorem Hits.lt {ch : Nat} (h : Hits base mask ch) : ch < base + 32 := by
  have := BitVec.lt_of_getLsbD h.2
  have := h.1
  omega

theorem latched_bit (hj : j < 8) (output : U16) :
    (latched base k mask data output).getLsbD j =
      if Hits base mask (8 * k + j) then data.getLsbD (8 * k + j - base) else output.getLsbD j := by
  have hj' : j < 16 := by omega
  have hbit : Hits base mask (8 * k + j) ↔
      (decide (base ≤ 8 * k + j) && mask.getLsbD (8 * k + j - base)) = true := by
    rw [Bool.and_eq_true, decide_eq_true_iff]
    exact Iff.rfl
  unfold latched
  simp only [BitVec.getLsbD_or, BitVec.getLsbD_and, BitVec.getLsbD_not, BitVec.getLsbD_setWidth,
    window_bit, hj, hj', decide_true, Bool.true_and, hbit]
  cases decide (base ≤ 8 * k + j) <;> cases mask.getLsbD (8 * k + j - base) <;> simp

theorem window_ne_zero :
    window base k mask ≠ 0 ↔ ∃ j < 8, Hits base mask (8 * k + j) := by
  rw [BitFlags.ne_zero_iff_bit]
  constructor
  · rintro ⟨j, hbit⟩
    rw [window_bit, Bool.and_eq_true, Bool.and_eq_true, decide_eq_true_iff,
      decide_eq_true_iff] at hbit
    exact ⟨j, hbit.1.1, hbit.1.2, hbit.2⟩
  · rintro ⟨j, hj, hbase, hbit⟩
    refine ⟨j, ?_⟩
    rw [window_bit, decide_eq_true hj, decide_eq_true hbase, hbit]
    rfl

theorem levels_bit_of_ge {port : Nat} (hj : 8 ≤ j) :
    (levels board s pins port d).getLsbD j = false := by
  have hmask : ∀ j < 32, 8 ≤ j → (0xff : U32).getLsbD j = false := by decide
  by_cases hlt : j < 32
  · have hread : ((readPort s pins port d).setWidth 32 : U32).getLsbD j = false := by
      rw [BitVec.getLsbD_setWidth, BitVec.getLsbD_of_ge _ _ hj, Bool.and_false]
    unfold levels
    dsimp only
    split
    · rw [BitVec.getLsbD_xor, hread, hmask j hlt hj]
      rfl
    · exact hread
  · exact BitVec.getLsbD_of_ge _ _ (Nat.le_of_not_lt hlt)

end Bits

section Loop

theorem writePort_outputBits (port : Nat) :
    (writePort board s base k mask data d).outputBits port =
      if port = s.basePort + k ∧ window base k mask ≠ 0 then
        latched base k mask data (d.outputBits port)
      else d.outputBits port := by
  unfold writePort
  dsimp only
  by_cases hmask : window base k mask ≠ 0
  · rw [if_pos hmask]
    by_cases hport : port = s.basePort + k
    · subst hport
      rw [if_pos ⟨rfl, hmask⟩]
      exact update_self _ _ _
    · rw [if_neg fun h => hport h.1]
      exact update_of_ne hport _ _
  · rw [if_neg hmask, if_neg fun h => hmask h.2]

theorem writePort_portData (port : Nat) :
    (writePort board s base k mask data d).portData port =
      if port = s.basePort + k ∧ window base k mask ≠ 0 then
        image board ((writePort board s base k mask data d).outputBits port)
      else d.portData port := by
  rw [writePort_outputBits]
  unfold writePort
  dsimp only
  by_cases hmask : window base k mask ≠ 0
  · rw [if_pos hmask]
    by_cases hport : port = s.basePort + k
    · subst hport
      rw [if_pos ⟨rfl, hmask⟩, if_pos ⟨rfl, hmask⟩]
      exact update_self _ _ _
    · rw [if_neg fun h => hport h.1]
      exact update_of_ne hport _ _
  · rw [if_neg hmask, if_neg fun h => hmask h.2]

/-- What the loop does to the ports from number `k` up to `m` of the subdevice, and what it reads
from them. -/
structure PortsDone (board : Ni65xxBoard) (s : Sub) (base : Nat) (mask data : U32)
    (pins : Nat → Byte) (k m : Nat) (readBits readBits' : U32) (d d' : Ni65xxPrivate) : Prop where
  latch : ∀ q, k ≤ q → q < m → ∀ j < 8, (d'.outputBits (s.basePort + q)).getLsbD j =
    if Hits base mask (8 * q + j) then data.getLsbD (8 * q + j - base)
    else (d.outputBits (s.basePort + q)).getLsbD j
  shown : ∀ q, k ≤ q → q < m → d'.portData (s.basePort + q) =
    if ∃ j < 8, Hits base mask (8 * q + j) then image board (d'.outputBits (s.basePort + q))
    else d.portData (s.basePort + q)
  others : ∀ port, port < s.basePort + k ∨ s.basePort + m ≤ port →
    d'.outputBits port = d.outputBits port ∧ d'.portData port = d.portData port
  read : ∀ i < 32, readBits'.getLsbD i = true ↔ readBits.getLsbD i = true ∨
    k ≤ (base + i) / 8 ∧ (base + i) / 8 < m ∧
      (levels board s pins (s.basePort + (base + i) / 8) d').getLsbD ((base + i) % 8) = true

theorem levels_congr {d d' : Ni65xxPrivate} {port : Nat} (h : d.portData port = d'.portData port) :
    levels board s pins port d = levels board s pins port d' := by
  unfold levels readPort
  rw [h]

theorem writePort_other {port : Nat} (h : port ≠ s.basePort + k) :
    (writePort board s base k mask data d).outputBits port = d.outputBits port ∧
      (writePort board s base k mask data d).portData port = d.portData port := by
  rw [writePort_portData, if_neg fun hport => h hport.1, writePort_outputBits,
    if_neg fun hport => h hport.1]
  exact ⟨rfl, rfl⟩

theorem writePort_latch (hj : j < 8) :
    ((writePort board s base k mask data d).outputBits (s.basePort + k)).getLsbD j =
      if Hits base mask (8 * k + j) then data.getLsbD (8 * k + j - base)
      else (d.outputBits (s.basePort + k)).getLsbD j := by
  rw [writePort_outputBits]
  by_cases hmask : window base k mask ≠ 0
  · rw [if_pos ⟨rfl, hmask⟩, latched_bit hj]
  · rw [if_neg fun h => hmask h.2, if_neg fun hhit => hmask (window_ne_zero.mpr ⟨j, hj, hhit⟩)]

theorem writePort_shown :
    (writePort board s base k mask data d).portData (s.basePort + k) =
      if ∃ j < 8, Hits base mask (8 * k + j) then
        image board ((writePort board s base k mask data d).outputBits (s.basePort + k))
      else d.portData (s.basePort + k) := by
  rw [writePort_portData]
  by_cases hmask : window base k mask ≠ 0
  · rw [if_pos ⟨rfl, hmask⟩, if_pos (window_ne_zero.mp hmask)]
  · rw [if_neg fun h => hmask h.2, if_neg (mt window_ne_zero.mpr hmask)]

theorem read_bit (hi : i < 32) (port : Nat) :
    (readWindow base k (levels board s pins port d)).getLsbD i = true ↔
      (base + i) / 8 = k ∧ (levels board s pins port d).getLsbD ((base + i) % 8) = true := by
  rw [readWindow_bit hi, Bool.and_eq_true, decide_eq_true_iff]
  constructor
  · rintro ⟨hle, hbit⟩
    have hlt : base + i - 8 * k < 8 := by
      by_contra hge
      rw [levels_bit_of_ge (Nat.le_of_not_lt hge)] at hbit
      cases hbit
    have hport : (base + i) / 8 = k := by omega
    refine ⟨hport, ?_⟩
    rw [show (base + i) % 8 = base + i - 8 * k by omega]
    exact hbit
  · rintro ⟨hport, hbit⟩
    refine ⟨by omega, ?_⟩
    rw [show base + i - 8 * k = (base + i) % 8 by omega]
    exact hbit

theorem loop_spec (left k : Nat) (readBits : U32) (d : Ni65xxPrivate) :
    PortsDone board s base mask data pins k (k + left) readBits
      (bitsLoop board s base mask data pins left k readBits d).1 d
      (bitsLoop board s base mask data pins left k readBits d).2 := by
  induction left generalizing k readBits d with
  | zero =>
    exact ⟨fun q _ _ => by omega, fun q _ _ => by omega, fun port _ => ⟨rfl, rfl⟩,
      fun i _ => ⟨.inl, fun h => h.elim id fun h => by omega⟩⟩
  | succ left ih =>
    rw [bitsLoop_succ]
    split
    next hfar =>
      have hmiss : ∀ q j, k ≤ q → ¬ Hits base mask (8 * q + j) := fun q j hq hhit => by
        have := hhit.lt
        omega
      refine ⟨fun q hq _ j _ => ?_, fun q hq _ => ?_, fun port _ => ⟨rfl, rfl⟩, fun i hi => ?_⟩
      · rw [if_neg (hmiss q j hq)]
      · rw [if_neg fun ⟨j, _, hhit⟩ => hmiss q j hq hhit]
      · exact ⟨.inl, fun h => h.elim id fun h => by omega⟩
    next hnear =>
      have h := ih (k + 1) (readBits ||| readWindow base k (levels board s pins (s.basePort + k)
        (writePort board s base k mask data d))) (writePort board s base k mask data d)
      rw [show k + 1 + left = k + (left + 1) by omega] at h
      generalize bitsLoop board s base mask data pins left (k + 1) _ _ = r at h ⊢
      obtain ⟨hbits, hdata⟩ := h.others (s.basePort + k) (.inl (by omega))
      refine ⟨fun q hq hq' j hj => ?_, fun q hq hq' => ?_, fun port hport => ?_, fun i hi => ?_⟩
      · by_cases heq : q = k
        · subst heq
          rw [hbits]
          exact writePort_latch hj
        · rw [h.latch q (by omega) hq' j hj, (writePort_other (by omega)).1]
      · by_cases heq : q = k
        · subst heq
          rw [hbits, hdata]
          exact writePort_shown
        · rw [h.shown q (by omega) hq', (writePort_other (by omega)).2]
      · obtain ⟨hsame, hsame'⟩ := h.others port (by omega)
        have hne : port ≠ s.basePort + k := by omega
        exact ⟨hsame.trans (writePort_other hne).1, hsame'.trans (writePort_other hne).2⟩
      · rw [h.read i hi, BitVec.getLsbD_or, Bool.or_eq_true, read_bit hi, or_assoc,
          levels_congr hdata.symm]
        refine or_congr_right ?_
        constructor
        · rintro (⟨hport, hbit⟩ | ⟨hle, hlt, hbit⟩)
          · rw [hport]
            exact ⟨Nat.le_refl k, by omega, hbit⟩
          · exact ⟨by omega, hlt, hbit⟩
        · rintro ⟨hle, hlt, hbit⟩
          by_cases hport : (base + i) / 8 = k
          · rw [hport] at hbit
            exact .inl ⟨hport, hbit⟩
          · exact .inr ⟨by omega, hlt, hbit⟩

end Loop

/-- The output latch of a channel. The channels are counted through all ports of the board. -/
def latchLevel (d : Ni65xxPrivate) (g : Nat) : Bool := (d.outputBits (g / 8)).getLsbD (g % 8)

/-- The level that the register of a port gives to a channel. -/
def shownLevel (d : Ni65xxPrivate) (g : Nat) : Bool := (d.portData (g / 8)).getLsbD (g % 8)

def Sub.channel (s : Sub) (ch : Nat) : Nat := 8 * s.basePort + ch

/-- The state of a channel: what is at its pin, or for an output what its register has, the right
way up. -/
def channelState (board : Ni65xxBoard) (s : Sub) (pins : Nat → Byte) (d : Ni65xxPrivate)
    (ch : Nat) : Bool :=
  if s.kind = .do_ then shownLevel d (Sub.channel s ch) != board.invertOutputs
  else (pins (s.basePort + ch / 8)).getLsbD (ch % 8)

/-- The channel is one of the subdevice, and the mask has a bit for it. -/
def Addressed (s : Sub) (base : Nat) (mask : U32) (ch : Nat) : Prop :=
  ch < s.nChan ∧ Hits base mask ch

instance (s : Sub) (base : Nat) (mask : U32) (ch : Nat) : Decidable (Addressed s base mask ch) :=
  inferInstanceAs (Decidable (_ ∧ _))

/-- An instruction transfers the addressed bits, and no others. -/
structure Transferred (board : Ni65xxBoard) (s : Sub) (base : Nat) (mask data : U32)
    (pins : Nat → Byte) (d : Ni65xxPrivate) (result : U32) (d' : Ni65xxPrivate) : Prop where
  written : ∀ i < 32, base + i < s.nChan → mask.getLsbD i = true →
    latchLevel d' (Sub.channel s (base + i)) = data.getLsbD i ∧
      shownLevel d' (Sub.channel s (base + i)) = (data.getLsbD i != board.invertOutputs)
  kept : ∀ g, (¬ ∃ ch, g = Sub.channel s ch ∧ Addressed s base mask ch) →
    latchLevel d' g = latchLevel d g
  port : ∀ g ch, g / 8 = s.basePort + ch / 8 → Addressed s base mask ch →
    shownLevel d' g = (latchLevel d' g != board.invertOutputs)
  untouched : ∀ g, (∀ ch, g / 8 = s.basePort + ch / 8 → ¬ Addressed s base mask ch) →
    shownLevel d' g = shownLevel d g
  read : ∀ i < 32, result.getLsbD i =
    (decide (base + i < s.nChan) && channelState board s pins d' (base + i))

section Instruction

theorem image_bit (hj : j < 8) (output : U16) :
    (image board output).getLsbD j = (output.getLsbD j != board.invertOutputs) := by
  unfold image
  rw [BitVec.getLsbD_setWidth, decide_eq_true hj, Bool.true_and]
  cases board.invertOutputs with
  | true =>
    rw [if_pos rfl, BitVec.getLsbD_not, decide_eq_true (by omega), Bool.true_and]
    cases output.getLsbD j <;> rfl
  | false =>
    rw [if_neg Bool.false_ne_true]
    cases output.getLsbD j <;> rfl

theorem channel_port (ch : Nat) : Sub.channel s ch / 8 = s.basePort + ch / 8 ∧
    Sub.channel s ch % 8 = ch % 8 := by
  unfold Sub.channel
  omega

theorem levels_bit (ch : Nat) :
    (levels board s pins (s.basePort + ch / 8) d).getLsbD (ch % 8) =
      channelState board s pins d ch := by
  have hmask : ∀ j < 8, (0xff : U32).getLsbD j = true := by decide
  have hj : ch % 8 < 8 := Nat.mod_lt _ (by decide)
  unfold levels channelState readPort shownLevel
  rw [(channel_port ch).1, (channel_port ch).2]
  by_cases hdo : s.kind = .do_
  · rw [if_pos hdo, if_pos hdo]
    cases hinv : board.invertOutputs with
    | true =>
      rw [if_pos ⟨hdo, rfl⟩, BitVec.getLsbD_xor, hmask _ hj, BitVec.getLsbD_setWidth,
        decide_eq_true (by omega), Bool.true_and]
    | false =>
      rw [if_neg fun h => Bool.false_ne_true h.2, BitVec.getLsbD_setWidth,
        decide_eq_true (by omega), Bool.true_and]
      cases (d.portData (s.basePort + ch / 8)).getLsbD (ch % 8) <;> rfl
  · rw [if_neg hdo, if_neg hdo, if_neg fun h => hdo h.1, BitVec.getLsbD_setWidth,
      decide_eq_true (by omega), Bool.true_and]

theorem nChan_eq (s : Sub) : s.nChan = 8 * s.numPorts := Nat.mul_comm _ _

theorem insnBits_eq (base : Nat) (mask data : U32) (pins : Nat → Byte) (d : Ni65xxPrivate) :
    ni65xxDioInsnBits board s 2 base mask data pins d =
      (2, bitsLoop board s base mask data pins (s.numPorts - base / 8) (base / 8) 0 d) := by
  have hlast : ni65xxPortByChannel (s.nChan - 1) + 1 = s.numPorts := by
    have := s.pos
    unfold ni65xxPortByChannel ni65xxChannelsPerPort
    rw [nChan_eq]
    omega
  unfold ni65xxDioInsnBits
  dsimp only
  rw [if_neg (not_not.mpr rfl), hlast]
  rfl

section Ports

variable {d' : Ni65xxPrivate} {m : Nat} {readBits readBits' : U32}

theorem PortsDone.kept
    (h : PortsDone board s base mask data pins (base / 8) m readBits readBits' d d')
    (hm : m ≤ s.numPorts ∨ m ≤ base / 8) (g : Nat)
    (hnone : ¬ ∃ ch, g = Sub.channel s ch ∧ Addressed s base mask ch) :
    latchLevel d' g = latchLevel d g := by
  have hj : g % 8 < 8 := Nat.mod_lt _ (by decide)
  unfold latchLevel
  by_cases hin : s.basePort + base / 8 ≤ g / 8 ∧ g / 8 < s.basePort + m
  · have hport : g / 8 = s.basePort + (g / 8 - s.basePort) := by omega
    rw [hport, h.latch _ (by omega) (by omega) _ hj]
    refine if_neg fun hhit => hnone ⟨8 * (g / 8 - s.basePort) + g % 8, ?_, ?_, hhit⟩
    · unfold Sub.channel
      omega
    · rw [nChan_eq]
      omega
  · rw [(h.others (g / 8) (by omega)).1]

theorem PortsDone.shown_port
    (h : PortsDone board s base mask data pins (base / 8) m readBits readBits' d d')
    (hm : s.numPorts ≤ m) {g ch : Nat} (hport : g / 8 = s.basePort + ch / 8)
    (haddressed : Addressed s base mask ch) :
    shownLevel d' g = (latchLevel d' g != board.invertOutputs) := by
  have hch : ch < 8 * s.numPorts := nChan_eq s ▸ haddressed.1
  have hbase := haddressed.2.1
  have hhit : ∃ j < 8, Hits base mask (8 * (ch / 8) + j) :=
    ⟨ch % 8, Nat.mod_lt _ (by decide), by rw [Nat.div_add_mod]; exact haddressed.2⟩
  unfold shownLevel latchLevel
  rw [hport, h.shown (ch / 8) (by omega) (by omega), if_pos hhit]
  exact image_bit (Nat.mod_lt _ (by decide)) _

theorem PortsDone.untouched
    (h : PortsDone board s base mask data pins (base / 8) m readBits readBits' d d')
    (hm : m ≤ s.numPorts ∨ m ≤ base / 8) {g : Nat}
    (hnone : ∀ ch, g / 8 = s.basePort + ch / 8 → ¬ Addressed s base mask ch) :
    shownLevel d' g = shownLevel d g := by
  unfold shownLevel
  by_cases hin : s.basePort + base / 8 ≤ g / 8 ∧ g / 8 < s.basePort + m
  · have hport : g / 8 = s.basePort + (g / 8 - s.basePort) := by omega
    rw [hport, h.shown _ (by omega) (by omega)]
    rw [if_neg]
    rintro ⟨j, hj, hhit⟩
    refine hnone (8 * (g / 8 - s.basePort) + j) (by omega) ⟨?_, hhit⟩
    rw [nChan_eq]
    omega
  · rw [(h.others (g / 8) (by omega)).2]

end Ports

theorem transferred (board : Ni65xxBoard) (s : Sub) (base : Nat) (mask data : U32)
    (pins : Nat → Byte) (d : Ni65xxPrivate) :
    ∃ result d', ni65xxDioInsnBits board s 2 base mask data pins d = (2, result, d') ∧
      Transferred board s base mask data pins d result d' := by
  have h : PortsDone board s base mask data pins _ _ _ _ d _ :=
    loop_spec (s.numPorts - base / 8) (base / 8) 0 d
  refine ⟨_, _, insnBits_eq base mask data pins d, ?_⟩
  generalize bitsLoop board s base mask data pins (s.numPorts - base / 8) (base / 8) 0 d = r at h ⊢
  have hkept := h.kept (by omega)
  refine ⟨fun i hi hch hbit => ?_, hkept, fun g ch hport haddressed =>
    h.shown_port (by omega) hport haddressed, fun g hnone => h.untouched (by omega) hnone,
    fun i hi => ?_⟩
  · have haddressed : Addressed s base mask (base + i) :=
      ⟨hch, Nat.le_add_right base i, by rw [Nat.add_sub_cancel_left]; exact hbit⟩
    have hlatch : latchLevel r.2 (Sub.channel s (base + i)) = data.getLsbD i := by
      have hlt : base + i < 8 * s.numPorts := nChan_eq s ▸ hch
      unfold latchLevel
      rw [(channel_port _).1, (channel_port _).2,
        h.latch ((base + i) / 8) (by omega) (by omega) _ (Nat.mod_lt _ (by decide)),
        Nat.div_add_mod, if_pos haddressed.2, Nat.add_sub_cancel_left]
    refine ⟨hlatch, ?_⟩
    rw [h.shown_port (by omega) (channel_port _).1 haddressed, hlatch]
  · rw [Bool.eq_iff_iff, h.read i hi, Bool.and_eq_true, decide_eq_true_iff, levels_bit, nChan_eq,
      show (0 : U32).getLsbD i = false from BitVec.getLsbD_zero]
    constructor
    · rintro (hzero | ⟨hle, hlt, hbit⟩)
      · cases hzero
      · exact ⟨by omega, hbit⟩
    · rintro ⟨hlt, hbit⟩
      exact .inr ⟨by omega, by omega, hbit⟩

end Instruction

inductive Request where
  | bits (kind : Kind) (n : U32) (base : Nat) (mask data : U32) (pins : Nat → Byte)
  | config (kind : Kind) (n : U32) (chan : Nat) (data0 data1 : U32)

/-- The subdevice of outputs has no `insn_config`. -/
def step (board : Ni65xxBoard) (d : Ni65xxPrivate) : Request → Ni65xxPrivate
  | .bits kind n base mask data pins =>
    match subdevice board kind with
    | some s => (ni65xxDioInsnBits board s n base mask data pins d).2.2
    | none => d
  | .config kind n chan data0 data1 =>
    match subdevice board kind with
    | some s => if kind = .do_ then d else (ni65xxDioInsnConfig s n chan data0 data1 d).2.2
    | none => d

def deviceAfter (board : Ni65xxBoard) (requests : List Request) : Ni65xxPrivate :=
  requests.foldl (step board) (ni65xxAttach board)

/-- The value that a request gives to a channel, or else the one that it has had last. -/
def record (board : Ni65xxBoard) (last : Nat → Option Bool) : Request → Nat → Option Bool
  | .bits kind n base mask data _ =>
    match subdevice board kind with
    | some s => fun g =>
      if n = 2 ∧ 8 * s.basePort ≤ g ∧ Addressed s base mask (g - 8 * s.basePort) then
        some (data.getLsbD (g - 8 * s.basePort - base))
      else last g
    | none => last
  | .config _ _ _ _ _ => last

/-- The value that each channel has been given last by an instruction. -/
def lastWritten (board : Ni65xxBoard) (requests : List Request) : Nat → Option Bool :=
  requests.foldl (record board) fun _ => none

/-- Every channel that has been written has its last value, in the latch and at the outputs. -/
structure Recorded (board : Ni65xxBoard) (d : Ni65xxPrivate) (last : Nat → Option Bool) : Prop where
  some : ∀ g v, last g = some v →
    latchLevel d g = v ∧ shownLevel d g = (v != board.invertOutputs)
  none : ∀ g, last g = none → latchLevel d g = false

section Runs

variable {last : Nat → Option Bool} {requests : List Request}

theorem channel_iff {g ch : Nat} :
    g = Sub.channel s ch ↔ 8 * s.basePort ≤ g ∧ g - 8 * s.basePort = ch := by
  unfold Sub.channel
  omega

/-- An instruction gives the addressed channels their values, the others keep the last ones. -/
theorem recorded_bits (h : Recorded board d last) {kind : Kind}
    (hs : subdevice board kind = some s) {d' : Ni65xxPrivate} {result : U32}
    (ht : Transferred board s base mask data pins d result d') :
    Recorded board d' (record board last (.bits kind 2 base mask data pins)) := by
  have hrecord : ∀ g, record board last (.bits kind 2 base mask data pins) g =
      if 8 * s.basePort ≤ g ∧ Addressed s base mask (g - 8 * s.basePort) then
        some (data.getLsbD (g - 8 * s.basePort - base))
      else last g := by
    intro g
    unfold record
    dsimp only
    rw [hs]
    exact if_congr (and_iff_right rfl) rfl rfl
  have hkept : ∀ g, ¬ (8 * s.basePort ≤ g ∧ Addressed s base mask (g - 8 * s.basePort)) →
      latchLevel d' g = latchLevel d g := by
    intro g hnot
    refine ht.kept g fun ⟨ch, hch, haddressed⟩ => hnot ?_
    obtain ⟨hle, rfl⟩ := channel_iff.mp hch
    exact ⟨hle, haddressed⟩
  refine ⟨fun g v hv => ?_, fun g hnone => ?_⟩
  · rw [hrecord] at hv
    by_cases hhit : 8 * s.basePort ≤ g ∧ Addressed s base mask (g - 8 * s.basePort)
    · rw [if_pos hhit] at hv
      obtain ⟨hle, hch, hbase, hbit⟩ := hhit
      have hi := BitVec.lt_of_getLsbD hbit
      obtain ⟨hlatch, hshown⟩ := ht.written _ hi (by omega) hbit
      have hg : Sub.channel s (base + (g - 8 * s.basePort - base)) = g := by
        unfold Sub.channel
        omega
      rw [hg] at hlatch hshown
      rw [← Option.some.inj hv]
      exact ⟨hlatch, hshown⟩
    · rw [if_neg hhit] at hv
      obtain ⟨hlatch, hshown⟩ := h.some g v hv
      refine ⟨(hkept g hhit).trans hlatch, ?_⟩
      -- another channel of the port may be among those written
      by_cases hport : ∃ ch, g / 8 = s.basePort + ch / 8 ∧ Addressed s base mask ch
      · obtain ⟨ch, hport, haddressed⟩ := hport
        rw [ht.port g ch hport haddressed, hkept g hhit, hlatch]
      · rw [ht.untouched g fun ch hport' haddressed => hport ⟨ch, hport', haddressed⟩, hshown]
  · rw [hrecord] at hnone
    by_cases hhit : 8 * s.basePort ≤ g ∧ Addressed s base mask (g - 8 * s.basePort)
    · rw [if_pos hhit] at hnone
      cases hnone
    · rw [if_neg hhit] at hnone
      rw [hkept g hhit]
      exact h.none g hnone

theorem config_frame (s : Sub) (n : U32) (chan : Nat) (data0 data1 : U32) (d : Ni65xxPrivate) :
    (ni65xxDioInsnConfig s n chan data0 data1 d).2.2.outputBits = d.outputBits ∧
      (ni65xxDioInsnConfig s n chan data0 data1 d).2.2.portData = d.portData := by
  have hfilter : (ni65xxConfigFilter s chan data0 data1 d).2.2.outputBits = d.outputBits ∧
      (ni65xxConfigFilter s chan data0 data1 d).2.2.portData = d.portData := by
    unfold ni65xxConfigFilter
    split
    · exact ⟨rfl, rfl⟩
    · dsimp only
      split
      · constructor
        · split <;> split <;> rfl
        · split <;> split <;> rfl
      · exact ⟨rfl, rfl⟩
  unfold ni65xxDioInsnConfig
  dsimp only
  split
  · exact ⟨rfl, rfl⟩
  split
  · exact hfilter
  split
  · exact ⟨rfl, rfl⟩
  split
  · exact ⟨rfl, rfl⟩
  split
  · exact ⟨rfl, rfl⟩
  split
  · exact ⟨rfl, rfl⟩
  · exact ⟨rfl, rfl⟩

theorem recorded_step (h : Recorded board d last) (r : Request) :
    Recorded board (step board d r) (record board last r) := by
  cases r with
  | bits kind n base mask data pins =>
    cases hs : subdevice board kind with
    | none =>
      unfold step record
      dsimp only
      rw [hs]
      exact h
    | some s =>
      by_cases hn : n = 2
      · subst hn
        obtain ⟨result, d', hrun, ht⟩ := transferred board s base mask data pins d
        have hstep : step board d (.bits kind 2 base mask data pins) = d' := by
          unfold step
          dsimp only
          rw [hs]
          dsimp only
          rw [hrun]
        rw [hstep]
        exact recorded_bits h hs ht
      · unfold step record
        dsimp only
        rw [hs]
        dsimp only
        have hsame : (ni65xxDioInsnBits board s n base mask data pins d).2.2 = d := by
          unfold ni65xxDioInsnBits
          dsimp only
          rw [if_pos hn]
        have hrecord : (fun g =>
            if n = 2 ∧ 8 * s.basePort ≤ g ∧ Addressed s base mask (g - 8 * s.basePort) then
              some (data.getLsbD (g - 8 * s.basePort - base))
            else last g) = last := funext fun g => if_neg fun hyes => hn hyes.1
        rw [hsame, hrecord]
        exact h
  | config kind n chan data0 data1 =>
    have hframe : ∀ d', d'.outputBits = d.outputBits → d'.portData = d.portData →
        Recorded board d' last := by
      intro d' hbits hdata
      refine ⟨fun g v hv => ?_, fun g hnone => ?_⟩
      · unfold latchLevel shownLevel
        rw [hbits, hdata]
        exact h.some g v hv
      · unfold latchLevel
        rw [hbits]
        exact h.none g hnone
    unfold step record
    dsimp only
    split
    · split
      · exact h
      · exact hframe _ (config_frame _ _ _ _ _ _).1 (config_frame _ _ _ _ _ _).2
    · exact h

theorem recorded_run (board : Ni65xxBoard) (requests : List Request) :
    Recorded board (deviceAfter board requests) (lastWritten board requests) := by
  induction requests using List.reverseRecOn with
  | nil => exact ⟨nofun, fun g _ => BitVec.getLsbD_zero⟩
  | append_singleton requests r ih =>
    unfold deviceAfter lastWritten
    rw [List.foldl_append, List.foldl_append]
    exact recorded_step ih r

/-- Whatever has been done since the board was attached, an instruction transfers exactly the
addressed bits, every channel keeps the value that it has been given last, and a subdevice of
outputs reads these values back. -/
theorem ports_exact (board : Ni65xxBoard) (requests : List Request) (kind : Kind) (s : Sub)
    (hs : subdevice board kind = some s) (base : Nat) (mask data : U32) (pins : Nat → Byte) :
    ∃ result d', ni65xxDioInsnBits board s 2 base mask data pins (deviceAfter board requests) =
        (2, result, d') ∧
      Transferred board s base mask data pins (deviceAfter board requests) result d' ∧
      Recorded board d' (lastWritten board (requests ++ [.bits kind 2 base mask data pins])) ∧
      (kind = .do_ → ∀ i < 32, base + i < s.nChan → ∀ v,
        lastWritten board (requests ++ [.bits kind 2 base mask data pins])
          (Sub.channel s (base + i)) = some v → result.getLsbD i = v) := by
  obtain ⟨result, d', hrun, ht⟩ :=
    transferred board s base mask data pins (deviceAfter board requests)
  have hrecorded : Recorded board d'
      (lastWritten board (requests ++ [.bits kind 2 base mask data pins])) := by
    unfold lastWritten
    rw [List.foldl_append]
    exact recorded_bits (recorded_run board requests) hs ht
  refine ⟨result, d', hrun, ht, hrecorded, fun hkind i hi hch v hv => ?_⟩
  have hdo : s.kind = .do_ := by
    subst hkind
    unfold subdevice at hs
    dsimp only at hs
    split at hs
    · rw [← Option.some.inj hs]
    · cases hs
  rw [ht.read i hi, decide_eq_true hch, Bool.true_and]
  unfold channelState
  rw [if_pos hdo, (hrecorded.some _ v hv).2]
  cases v <;> cases board.invertOutputs <;> rfl

/-- On a board with inverted outputs and three ports, after a write to two of the ports. -/
theorem ports_exact_inverted : ∃ result d',
    ni65xxDioInsnBits ⟨0, 2, 3, true⟩ ⟨.do_, 2, 3, by decide⟩ 2 5 0x0f 0x05 (fun _ => 0)
        (deviceAfter ⟨0, 2, 3, true⟩ [.bits .do_ 2 4 0xff 0xff fun _ => 0]) = (2, result, d') ∧
      Transferred ⟨0, 2, 3, true⟩ ⟨.do_, 2, 3, by decide⟩ 5 0x0f 0x05 (fun _ => 0)
        (deviceAfter ⟨0, 2, 3, true⟩ [.bits .do_ 2 4 0xff 0xff fun _ => 0]) result d' := by
  obtain ⟨result, d', hrun, ht, -⟩ := ports_exact ⟨0, 2, 3, true⟩
    [.bits .do_ 2 4 0xff 0xff fun _ => 0] .do_ ⟨.do_, 2, 3, by decide⟩ rfl 5 0x0f 0x05 fun _ => 0
  exact ⟨result, d', hrun, ht⟩

end Runs

end Comedi.Ni65xxPorts
