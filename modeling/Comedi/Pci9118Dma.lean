import Comedi.DataModel
import Mathlib.Data.BitVec
import Mathlib.Tactic.Ring

namespace Comedi.Pci9118Dma

/-- What the transfers of an acquisition are set up from. The buffers are allocated in pages. -/
structure Acquisition where
  dmabufSize0 : U32
  dmabufSize1 : U32
  aiDataLen : U32
  aiNRealscanlen : U32
  aiScans : U32
  aiNeverending : Bool
  aiFlags : U32
  useeoshandle : Bool := false
  pages0 : 4096 ∣ dmabufSize0.toNat := by decide
  pages1 : 4096 ∣ dmabufSize1.toNat := by decide
  size0_pos : 0 < dmabufSize0.toNat := by decide
  size1_pos : 0 < dmabufSize1.toNat := by decide
  realscanlen_pos : 0 < aiNRealscanlen.toNat := by decide

structure Setup where
  aiFlags : U32
  dmaActbuf : U32
  dmabufUseSize0 : U32
  dmabufUseSize1 : U32

/-- A length of whole words. -/
def alignDown (len : U32) : U32 := len &&& ~~~3

namespace Acquisition

section Compute

variable (a : Acquisition)

def scanBytes : U32 := a.aiNRealscanlen <<< 1

/-- No more of a buffer is used than there is room for in the data buffer. -/
def clip (size : U32) : U32 := if a.aiDataLen < size then alignDown a.aiDataLen else size

/-- A buffer is shortened to one scan, or there is no wake-up at the end of scans. -/
def shorten (flags dmalen : U32) (handle : U32 → U32) : U32 × U32 :=
  if flags &&& trigWakeEos ≠ 0 then
    if dmalen < a.scanBytes then (flags &&& ~~~trigWakeEos, dmalen)
    else
      let one := if a.useeoshandle then handle a.scanBytes else a.scanBytes
      (flags, if one < 4 then 4 else one)
  else (flags, dmalen)

/-- A buffer for whole scans, where it has room for one. -/
def wholeScans (dmalen : U32) : U32 :=
  let whole := alignDown (dmalen / a.scanBytes * a.scanBytes)
  if whole = 0 then dmalen else whole

/-- Buffers for no more than the whole measure. -/
def wholeMeasure (dmalen0 dmalen1 : U32) : U32 × U32 :=
  if a.aiNeverending then (dmalen0, dmalen1)
  else
    let bytes := a.scanBytes * a.aiScans
    if bytes < dmalen0 then (alignDown bytes, dmalen1)
    else (dmalen0, alignDown (if bytes - dmalen0 < dmalen1 then bytes - dmalen0 else dmalen1))

/-- `Compute_and_setup_dma`. -/
def computeAndSetupDma : Setup :=
  let first := a.shorten a.aiFlags (a.clip a.dmabufSize0) (· + 2)
  let second := a.shorten first.1 (a.clip a.dmabufSize1) (· - 2)
  if second.1 &&& trigWakeEos = 0 then
    let lens := a.wholeMeasure (a.wholeScans first.2) (a.wholeScans second.2)
    ⟨second.1, 0, lens.1, lens.2⟩
  else ⟨second.1, 0, first.2, second.2⟩

/-- The bytes of the whole acquisition. -/
def measure : Nat := 2 * a.aiNRealscanlen.toNat * a.aiScans.toNat

end Compute

end Acquisition

/-- The bytes of the first transfers, which use the buffers by turns. -/
def Setup.transferred (s : Setup) : Nat → Nat
  | 0 => 0
  | n + 1 => s.transferred n +
    if n % 2 = 0 then s.dmabufUseSize0.toNat else s.dmabufUseSize1.toNat

/-- Transfers that fit into the buffers and come to the whole acquisition, computed without
overflow. -/
structure Fits (a : Acquisition) (s : Setup) : Prop where
  le0 : s.dmabufUseSize0.toNat ≤ a.dmabufSize0.toNat
  le1 : s.dmabufUseSize1.toNat ≤ a.dmabufSize1.toNat
  first : 0 < s.dmabufUseSize0.toNat ∧ 4 ∣ s.dmabufUseSize0.toNat
  second : a.aiNeverending = true ∨ s.dmabufUseSize0.toNat < a.measure →
    0 < s.dmabufUseSize1.toNat ∧ 4 ∣ s.dmabufUseSize1.toNat
  covers : a.aiNeverending = false → ∃ n, a.measure ≤ s.transferred n
  scan : 2 * a.aiNRealscanlen.toNat < 2 ^ 32
  measure : s.aiFlags &&& trigWakeEos = 0 → a.aiNeverending = false → a.measure < 2 ^ 32

section Words

variable {x y : U32}

theorem toNat_alignDown (x : U32) : (alignDown x).toNat = x.toNat / 4 * 4 := by
  have hmask : ∀ i : Fin 32, (~~~3 : U32)[i.val] = decide (2 ≤ i.val) := by decide
  have hshift : alignDown x = x >>> 2 <<< 2 := by
    unfold alignDown
    ext i hi
    rw [BitVec.getElem_and, hmask ⟨i, hi⟩]
    by_cases h : 2 ≤ i
    · simp [h, hi, Nat.not_lt.mpr h]
    · simp [h, Nat.not_le.mp h]
  have hlt := x.isLt
  rw [hshift, BitVec.toNat_shiftLeft, BitVec.toNat_ushiftRight, Nat.shiftLeft_eq,
    Nat.shiftRight_eq_div_pow]
  omega

end Words

/-- The whole scans, in words, that there is room for, or all of the room. -/
def whole (scan room : Nat) : Nat :=
  if room / scan * scan / 4 * 4 = 0 then room else room / scan * scan / 4 * 4

section Whole

variable {r room scans : Nat}

theorem whole_le (scan room : Nat) : whole scan room ≤ room := by
  unfold whole
  split
  · exact le_rfl
  · exact (Nat.div_mul_le_self _ _).trans (Nat.div_mul_le_self _ _)

theorem whole_pos {scan : Nat} (h : 0 < room) : 0 < whole scan room := by
  unfold whole
  split
  · exact h
  next hne => exact Nat.pos_of_ne_zero hne

theorem four_dvd_whole {scan : Nat} (h : 4 ∣ room) : 4 ∣ whole scan room := by
  unfold whole
  split
  · exact h
  · exact Nat.dvd_mul_left _ _

theorem whole_of_lt (h : room < 2 * r) : whole (2 * r) room = room := by
  unfold whole
  rw [Nat.div_eq_of_lt h, Nat.zero_mul]
  exact if_pos rfl

/-- The scans that there is room for come to an even or an odd number of words. -/
theorem whole_of_le (hroom : 4 ∣ room) (hpos : 0 < room) (hr : 0 < r) (h : 2 * r ≤ room) :
    whole (2 * r) room = 2 * (room / (2 * r) * r / 2 * 2) := by
  have hq : 0 < room / (2 * r) := Nat.div_pos h (by omega)
  have hmul : room / (2 * r) * (2 * r) = 2 * (room / (2 * r) * r) := by ring
  have hle : room / (2 * r) * (2 * r) ≤ room := Nat.div_mul_le_self _ _
  have hlt : room < room / (2 * r) * (2 * r) + 2 * r := Nat.lt_div_mul_add (by omega)
  have hp : r ≤ room / (2 * r) * r := Nat.le_mul_of_pos_left r hq
  unfold whole
  rw [if_neg]
  · rw [hmul]
    omega
  · rw [hmul] at hle hlt ⊢
    generalize room / (2 * r) * r = p at hle hlt hp ⊢
    omega

/-- When the measure is two bytes longer than the whole scans of a buffer. -/
theorem measure_eq_whole_iff (hr : 0 < r) (hroom : 4 ∣ room) (hpos : 0 < room) :
    2 * r * scans = whole (2 * r) room + 2 ↔
      scans = room / (2 * r) ∧ room / (2 * r) * r % 2 = 1 ∨
        r = 1 ∧ scans = room / (2 * r) + 1 ∨ 2 * r = room + 2 ∧ scans = 1 := by
  by_cases h : room < 2 * r
  · rw [whole_of_lt h, Nat.div_eq_of_lt h]
    constructor
    · intro heq
      rcases scans with _ | _ | scans
      · omega
      · exact .inr (.inr ⟨by omega, rfl⟩)
      · have htwo : 2 * r * 2 ≤ 2 * r * (scans + 1 + 1) := Nat.mul_le_mul_left _ (by omega)
        omega
    · rintro (⟨-, hodd⟩ | ⟨rfl, -⟩ | ⟨heq, rfl⟩)
      · rw [Nat.zero_mul] at hodd
        exact absurd hodd (by decide)
      · omega
      · omega
  · have hle : 2 * r ≤ room := Nat.not_lt.mp h
    have hmeasure : 2 * r * scans = 2 * (scans * r) := by ring
    have hmul : room / (2 * r) * (2 * r) = 2 * (room / (2 * r) * r) := by ring
    have hlow : 2 * (room / (2 * r) * r) ≤ room := by
      have hfloor := Nat.div_mul_le_self room (2 * r)
      rwa [hmul] at hfloor
    have hhigh : room < 2 * (room / (2 * r) * r) + 2 * r := by
      have hfloor : room < room / (2 * r) * (2 * r) + 2 * r := Nat.lt_div_mul_add (by omega)
      rwa [hmul] at hfloor
    have hthird : ¬ (2 * r = room + 2 ∧ scans = 1) := by omega
    rw [whole_of_le hroom hpos hr hle, hmeasure]
    generalize room / (2 * r) = q at hlow hhigh ⊢
    rcases Nat.mod_two_eq_zero_or_one (q * r) with heven | hodd
    · constructor
      · intro heq
        have hone : scans * r = q * r + 1 := by omega
        have hdvd : r ∣ 1 := (Nat.dvd_add_right (Nat.dvd_mul_left r q)).mp
          (hone ▸ Nat.dvd_mul_left r scans)
        have hr1 : r = 1 := Nat.dvd_one.mp hdvd
        rw [hr1] at hone
        exact .inr (.inl ⟨hr1, by omega⟩)
      · rintro (⟨-, hodd⟩ | ⟨rfl, rfl⟩ | hboth)
        · omega
        · omega
        · exact absurd hboth hthird
    · constructor
      · intro heq
        have hsame : scans * r = q * r := by omega
        exact .inl ⟨Nat.eq_of_mul_eq_mul_right hr hsame, hodd⟩
      · rintro (⟨rfl, -⟩ | ⟨rfl, rfl⟩ | hboth)
        · omega
        · -- scans of one sample fill the words of the buffer
          omega
        · exact absurd hboth hthird

end Whole

section Lengths

variable (a : Acquisition)

/-- The bytes of a buffer that there is room for in the data buffer. -/
def room (size : U32) : Nat := min size.toNat (a.aiDataLen.toNat / 4 * 4)

variable {a} {size dmalen flags : U32} {handle : U32 → U32}

theorem toNat_scanBytes (h : 2 * a.aiNRealscanlen.toNat < 2 ^ 32) :
    a.scanBytes.toNat = 2 * a.aiNRealscanlen.toNat := by
  unfold Acquisition.scanBytes
  rw [BitVec.toNat_shiftLeft, Nat.shiftLeft_eq, Nat.mod_eq_of_lt (by omega)]
  omega

theorem toNat_clip (h : 4096 ∣ size.toNat) : (a.clip size).toNat = room a size := by
  unfold Acquisition.clip room
  split
  next hlt =>
    have hless : a.aiDataLen.toNat < size.toNat := hlt
    rw [toNat_alignDown]
    omega
  next hle =>
    have hless : size.toNat ≤ a.aiDataLen.toNat := Nat.not_lt.mp hle
    omega

theorem room_le (a : Acquisition) (size : U32) : room a size ≤ size.toNat := Nat.min_le_left _ _

theorem four_dvd_room (h : 4096 ∣ size.toNat) : 4 ∣ room a size := by
  unfold room
  omega

theorem room_pos (h : 4096 ∣ size.toNat) (hpos : 0 < size.toNat) :
    0 < room a size ↔ 4 ≤ a.aiDataLen.toNat := by
  unfold room
  omega

theorem toNat_wholeScans (h : 2 * a.aiNRealscanlen.toNat < 2 ^ 32) (dmalen : U32) :
    (a.wholeScans dmalen).toNat = whole (2 * a.aiNRealscanlen.toNat) dmalen.toNat := by
  have hbytes : (alignDown (dmalen / a.scanBytes * a.scanBytes)).toNat =
      dmalen.toNat / (2 * a.aiNRealscanlen.toNat) * (2 * a.aiNRealscanlen.toNat) / 4 * 4 := by
    rw [toNat_alignDown, BitVec.toNat_mul, BitVec.toNat_udiv, toNat_scanBytes h,
      Nat.mod_eq_of_lt ((Nat.div_mul_le_self _ _).trans_lt dmalen.isLt)]
  have hzero : alignDown (dmalen / a.scanBytes * a.scanBytes) = 0 ↔
      dmalen.toNat / (2 * a.aiNRealscanlen.toNat) * (2 * a.aiNRealscanlen.toNat) / 4 * 4 = 0 := by
    rw [← hbytes]
    exact ⟨congrArg BitVec.toNat, fun h => BitVec.eq_of_toNat_eq h⟩
  unfold Acquisition.wholeScans whole
  dsimp only
  by_cases hnone : alignDown (dmalen / a.scanBytes * a.scanBytes) = 0
  · rw [if_pos hnone, if_pos (hzero.mp hnone)]
  · rw [if_neg hnone, if_neg (mt hzero.mpr hnone), hbytes]

theorem shorten_off (h : flags &&& trigWakeEos = 0) (dmalen : U32) (handle : U32 → U32) :
    a.shorten flags dmalen handle = (flags, dmalen) := if_neg (not_not.mpr h)

theorem shorten_short (hscan : 2 * a.aiNRealscanlen.toNat < 2 ^ 32)
    (hwake : flags &&& trigWakeEos ≠ 0) (h : dmalen.toNat < 2 * a.aiNRealscanlen.toNat)
    (handle : U32 → U32) :
    a.shorten flags dmalen handle = (flags &&& ~~~trigWakeEos, dmalen) := by
  have hlt : dmalen < a.scanBytes := by
    rw [← toNat_scanBytes hscan] at h
    exact h
  unfold Acquisition.shorten
  rw [if_pos hwake, if_pos hlt]

theorem shorten_one (hscan : 2 * a.aiNRealscanlen.toNat < 2 ^ 32)
    (hwake : flags &&& trigWakeEos ≠ 0) (h : 2 * a.aiNRealscanlen.toNat ≤ dmalen.toNat)
    (handle : U32 → U32) :
    (a.shorten flags dmalen handle).1 = flags ∧
      (a.shorten flags dmalen handle).2.toNat =
        max 4 (if a.useeoshandle then handle a.scanBytes else a.scanBytes).toNat := by
  have hnot : ¬ dmalen < a.scanBytes := by
    rw [← toNat_scanBytes hscan] at h
    exact Nat.not_lt.mpr h
  unfold Acquisition.shorten
  rw [if_pos hwake, if_neg hnot]
  dsimp only
  generalize (if a.useeoshandle = true then handle a.scanBytes else a.scanBytes) = one
  refine ⟨rfl, ?_⟩
  have hfour : (4 : U32).toNat = 4 := rfl
  by_cases hless : one < 4
  · have hlt : one.toNat < 4 := hless
    rw [if_pos hless]
    omega
  · have hge : 4 ≤ one.toNat := Nat.not_lt.mp hless
    rw [if_neg hless]
    omega

end Lengths

section Measure

variable {a : Acquisition} {s : Setup} {dmalen0 dmalen1 flags : U32}

/-- Transfers that move something come to any length. -/
theorem le_transferred (h : 0 < s.dmabufUseSize0.toNat) (n : Nat) :
    n ≤ s.transferred (2 * n) := by
  induction n with
  | zero => exact Nat.zero_le _
  | succ n ih =>
    have hturn : s.transferred (2 * n + 1) = s.transferred (2 * n) + s.dmabufUseSize0.toNat := by
      rw [Setup.transferred, if_pos (Nat.mul_mod_right 2 n)]
    have hnext : s.transferred (2 * n + 1) ≤ s.transferred (2 * (n + 1)) := Nat.le_add_right _ _
    omega

/-- The measure is not one that leaves a buffer without a word. -/
def Measured (a : Acquisition) (first : Nat) : Prop :=
  a.measure < 2 ^ 32 ∧ a.measure ≠ 0 ∧ a.measure ≠ 2 ∧ a.measure ≠ first + 2

instance (first : Nat) : Decidable (Measured a first) := inferInstanceAs (Decidable (_ ∧ _))

theorem even_measure (a : Acquisition) : 2 ∣ a.measure :=
  ⟨a.aiNRealscanlen.toNat * a.aiScans.toNat, Nat.mul_assoc _ _ _⟩

theorem fits_neverending (hscan : 2 * a.aiNRealscanlen.toNat < 2 ^ 32)
    (hnever : a.aiNeverending = true)
    (h0 : 0 < dmalen0.toNat ∧ 4 ∣ dmalen0.toNat ∧ dmalen0.toNat ≤ a.dmabufSize0.toNat)
    (h1 : 0 < dmalen1.toNat ∧ 4 ∣ dmalen1.toNat ∧ dmalen1.toNat ≤ a.dmabufSize1.toNat) :
    Fits a ⟨flags, 0, dmalen0, dmalen1⟩ := by
  have hneverending : ¬ a.aiNeverending = false := by
    rw [hnever]
    decide
  exact ⟨h0.2.2, h1.2.2, ⟨h0.1, h0.2.1⟩, fun _ => ⟨h1.1, h1.2.1⟩,
    fun h => absurd h hneverending, hscan, fun _ h => absurd h hneverending⟩

/-- The first buffer takes the whole measure. -/
theorem fits_first (hscan : 2 * a.aiNRealscanlen.toNat < 2 ^ 32) (hmeasure : a.measure < 2 ^ 32)
    (h0 : dmalen0.toNat ≤ a.dmabufSize0.toNat)
    (h1 : 0 < dmalen1.toNat ∧ 4 ∣ dmalen1.toNat ∧ dmalen1.toNat ≤ a.dmabufSize1.toNat)
    {bytes : U32} (hbytes : bytes.toNat = a.measure) (hless : bytes < dmalen0) :
    Fits a ⟨flags, 0, alignDown bytes, dmalen1⟩ ↔ Measured a dmalen0.toNat := by
  have heven := even_measure a
  have hlt : a.measure < dmalen0.toNat := by
    rw [← hbytes]
    exact hless
  have hlen : (alignDown bytes).toNat = a.measure / 4 * 4 := by
    rw [toNat_alignDown, hbytes]
  constructor
  · intro hfits
    have hfirst := hfits.first.1
    dsimp only at hfirst
    rw [hlen] at hfirst
    exact ⟨hmeasure, by omega, by omega, by omega⟩
  · rintro ⟨-, hnone, htwo, -⟩
    have hpos : 0 < (alignDown bytes).toNat := by
      rw [hlen]
      omega
    have hwords : 4 ∣ (alignDown bytes).toNat := by
      rw [hlen]
      omega
    have hle : (alignDown bytes).toNat ≤ a.dmabufSize0.toNat := by
      rw [hlen]
      omega
    exact ⟨hle, h1.2.2, ⟨hpos, hwords⟩, fun _ => ⟨h1.1, h1.2.1⟩,
      fun _ => ⟨_, le_transferred hpos _⟩, hscan, fun _ _ => hmeasure⟩

theorem toNat_rest {bytes : U32} (hless : ¬ bytes < dmalen0) :
    (alignDown (if bytes - dmalen0 < dmalen1 then bytes - dmalen0 else dmalen1)).toNat =
      min (bytes.toNat - dmalen0.toNat) dmalen1.toNat / 4 * 4 := by
  have hrest : (bytes - dmalen0).toNat = bytes.toNat - dmalen0.toNat :=
    BitVec.toNat_sub_of_le (Nat.not_lt.mp hless)
  rw [toNat_alignDown, ← hrest]
  split
  next hlt =>
    have hshort : (bytes - dmalen0).toNat < dmalen1.toNat := hlt
    rw [Nat.min_eq_left (Nat.le_of_lt hshort)]
  next hle =>
    have hlong : dmalen1.toNat ≤ (bytes - dmalen0).toNat := Nat.not_lt.mp hle
    rw [Nat.min_eq_right hlong]

/-- The second buffer takes what the first one leaves, or both are used again. -/
theorem fits_second (hscan : 2 * a.aiNRealscanlen.toNat < 2 ^ 32) (hmeasure : a.measure < 2 ^ 32)
    (hnever : a.aiNeverending = false)
    (h0 : 0 < dmalen0.toNat ∧ 4 ∣ dmalen0.toNat ∧ dmalen0.toNat ≤ a.dmabufSize0.toNat)
    (h1 : 0 < dmalen1.toNat ∧ 4 ∣ dmalen1.toNat ∧ dmalen1.toNat ≤ a.dmabufSize1.toNat)
    {bytes : U32} (hbytes : bytes.toNat = a.measure) (hless : ¬ bytes < dmalen0) :
    Fits a ⟨flags, 0, dmalen0,
        alignDown (if bytes - dmalen0 < dmalen1 then bytes - dmalen0 else dmalen1)⟩ ↔
      Measured a dmalen0.toNat := by
  have heven := even_measure a
  have hge : dmalen0.toNat ≤ a.measure := by
    rw [← hbytes]
    exact Nat.not_lt.mp hless
  have hlen := @toNat_rest dmalen0 dmalen1 bytes hless
  rw [hbytes] at hlen
  constructor
  · intro hfits
    have hsecond := hfits.second
    dsimp only at hsecond
    rw [hlen] at hsecond
    refine ⟨hmeasure, by omega, by omega, fun heq => ?_⟩
    have hpos := (hsecond (.inr (by omega))).1
    omega
  · rintro ⟨-, -, -, hne⟩
    refine ⟨h0.2.2, ?_, ⟨h0.1, h0.2.1⟩, ?_, fun _ => ⟨_, le_transferred h0.1 _⟩, hscan,
      fun _ _ => hmeasure⟩
    · dsimp only
      rw [hlen]
      omega
    · dsimp only
      rw [hlen, hnever]
      rintro (hnever | hmore)
      · exact absurd hnever (by decide)
      · constructor
        · omega
        · omega

theorem fits_wholeMeasure (hscan : 2 * a.aiNRealscanlen.toNat < 2 ^ 32)
    (hflags : flags &&& trigWakeEos = 0)
    (h0 : 0 < dmalen0.toNat ∧ 4 ∣ dmalen0.toNat ∧ dmalen0.toNat ≤ a.dmabufSize0.toNat)
    (h1 : 0 < dmalen1.toNat ∧ 4 ∣ dmalen1.toNat ∧ dmalen1.toNat ≤ a.dmabufSize1.toNat) :
    Fits a ⟨flags, 0, (a.wholeMeasure dmalen0 dmalen1).1, (a.wholeMeasure dmalen0 dmalen1).2⟩ ↔
      (a.aiNeverending = false → Measured a dmalen0.toNat) := by
  cases hnever : a.aiNeverending with
  | true =>
    have hkept : a.wholeMeasure dmalen0 dmalen1 = (dmalen0, dmalen1) := if_pos hnever
    rw [hkept]
    exact iff_of_true (fits_neverending hscan hnever h0 h1) fun h => absurd h (by decide)
  | false =>
    have hcut : a.wholeMeasure dmalen0 dmalen1 = _ := if_neg (by rw [hnever]; decide)
    rw [forall_prop_of_true rfl]
    by_cases hmeasure : a.measure < 2 ^ 32
    · have hbytes : (a.scanBytes * a.aiScans).toNat = a.measure := by
        rw [BitVec.toNat_mul, toNat_scanBytes hscan]
        exact Nat.mod_eq_of_lt hmeasure
      rw [hcut]
      dsimp only
      by_cases hless : a.scanBytes * a.aiScans < dmalen0
      · rw [if_pos hless]
        exact fits_first hscan hmeasure h0.2.2 h1 hbytes hless
      · rw [if_neg hless]
        exact fits_second hscan hmeasure hnever h0 h1 hbytes hless
    · exact iff_of_false (fun hfits => hmeasure (hfits.measure hflags hnever))
        fun h => hmeasure h.1

end Measure

section Setups

variable (a : Acquisition)

def wakes : Prop := a.aiFlags &&& trigWakeEos ≠ 0

instance : Decidable (wakes a) := inferInstanceAs (Decidable (_ ≠ _))

/-- There is a wake-up at the end of each scan, for which both buffers have room. -/
def EachScan : Prop := wakes a ∧ 2 * a.aiNRealscanlen.toNat ≤ room a a.dmabufSize0 ∧
  2 * a.aiNRealscanlen.toNat ≤ room a a.dmabufSize1

instance : Decidable (EachScan a) := inferInstanceAs (Decidable (_ ∧ _))

/-- The scans that the first buffer has room for, or the one that it was shortened to before the
second one turned out to be too short. -/
def firstScans : Nat :=
  if wakes a ∧ 2 * a.aiNRealscanlen.toNat ≤ room a a.dmabufSize0 then 1
  else room a a.dmabufSize0 / (2 * a.aiNRealscanlen.toNat)

/-- No word is left over between the scans of the first buffer and the end of the measure. -/
def Even : Prop :=
  a.measure < 2 ^ 32 ∧ a.aiScans.toNat ≠ 0 ∧ a.measure ≠ 2 ∧
    ¬ (a.aiScans.toNat = firstScans a ∧ firstScans a * a.aiNRealscanlen.toNat % 2 = 1) ∧
    ¬ (a.aiNRealscanlen.toNat = 1 ∧ a.aiScans.toNat = firstScans a + 1) ∧
    ¬ (2 * a.aiNRealscanlen.toNat = room a a.dmabufSize0 + 2 ∧ a.aiScans.toNat = 1)

instance : Decidable (Even a) := inferInstanceAs (Decidable (_ ∧ _))

def Holds : Prop :=
  4 ≤ a.aiDataLen.toNat ∧ 2 * a.aiNRealscanlen.toNat < 2 ^ 32 ∧
    if EachScan a then
      if a.useeoshandle then a.aiNRealscanlen.toNat % 2 = 1
      else a.aiNRealscanlen.toNat % 2 = 0 ∨ a.aiNRealscanlen.toNat = 1
    else a.aiNeverending = false → Even a

instance : Decidable (Holds a) := by unfold Holds; infer_instance

variable {a}

theorem measure_eq_zero_iff : a.measure = 0 ↔ a.aiScans.toNat = 0 := by
  have hpos := a.realscanlen_pos
  unfold Acquisition.measure
  rw [Nat.mul_eq_zero]
  omega

/-- The scan that a buffer is shortened to, with a correction by turns. -/
theorem toNat_one (hscan : 2 * a.aiNRealscanlen.toNat < 2 ^ 32)
    (hle : 2 * a.aiNRealscanlen.toNat ≤ room a a.dmabufSize0) :
    (if a.useeoshandle then a.scanBytes + 2 else a.scanBytes).toNat =
        2 * a.aiNRealscanlen.toNat + (if a.useeoshandle then 2 else 0) ∧
      (if a.useeoshandle then a.scanBytes - 2 else a.scanBytes).toNat =
        2 * a.aiNRealscanlen.toNat - (if a.useeoshandle then 2 else 0) := by
  have hpos := a.realscanlen_pos
  have hbytes := toNat_scanBytes hscan
  have htwo : (2 : U32).toNat = 2 := rfl
  cases a.useeoshandle with
  | false => exact ⟨hbytes, hbytes⟩
  | true =>
    have hroom := room_le a a.dmabufSize0
    have hlt := a.dmabufSize0.isLt
    have hpages := a.pages0
    have hless : (2 : U32) ≤ a.scanBytes := by
      change (2 : U32).toNat ≤ a.scanBytes.toNat
      omega
    constructor
    · change (a.scanBytes + 2).toNat = _
      rw [BitVec.toNat_add, hbytes, htwo]
      exact Nat.mod_eq_of_lt (by omega)
    · change (a.scanBytes - 2).toNat = _
      rw [BitVec.toNat_sub_of_le hless, hbytes, htwo]
      rfl

theorem fits_eachScan (hscan : 2 * a.aiNRealscanlen.toNat < 2 ^ 32) (h : EachScan a) :
    Fits a a.computeAndSetupDma ↔
      if a.useeoshandle then a.aiNRealscanlen.toNat % 2 = 1
      else a.aiNRealscanlen.toNat % 2 = 0 ∨ a.aiNRealscanlen.toNat = 1 := by
  obtain ⟨hwakes, hle0, hle1⟩ := h
  obtain ⟨hone0, hone1⟩ := toNat_one hscan hle0
  rw [← toNat_clip a.pages0] at hle0
  rw [← toNat_clip a.pages1] at hle1
  obtain ⟨hflags0, hlen0⟩ := shorten_one hscan hwakes hle0 (· + 2)
  obtain ⟨hflags1, hlen1⟩ := shorten_one hscan hwakes hle1 (· - 2)
  have hkeep : ¬ a.aiFlags &&& trigWakeEos = 0 := hwakes
  have hsetup : a.computeAndSetupDma = ⟨a.aiFlags, 0,
      (a.shorten a.aiFlags (a.clip a.dmabufSize0) (· + 2)).2,
      (a.shorten a.aiFlags (a.clip a.dmabufSize1) (· - 2)).2⟩ := by
    unfold Acquisition.computeAndSetupDma
    dsimp only
    rw [hflags0, hflags1, if_neg hkeep]
  rw [hone0] at hlen0
  rw [hone1] at hlen1
  rw [toNat_clip a.pages0] at hle0
  rw [toNat_clip a.pages1] at hle1
  have hroom0 := room_le a a.dmabufSize0
  have hroom1 := room_le a a.dmabufSize1
  have hfour0 := @four_dvd_room a _ a.pages0
  have hfour1 := @four_dvd_room a _ a.pages1
  have hpos := a.realscanlen_pos
  rw [hsetup]
  constructor
  · intro hfits
    have hfirst := hfits.first.2
    dsimp only at hfirst
    rw [hlen0] at hfirst
    cases huse : a.useeoshandle with
    | false =>
      rw [huse] at hfirst
      change 4 ∣ max 4 (2 * a.aiNRealscanlen.toNat + 0) at hfirst
      change _ ∨ _
      omega
    | true =>
      rw [huse] at hfirst
      change 4 ∣ max 4 (2 * a.aiNRealscanlen.toNat + 2) at hfirst
      change _ = 1
      omega
  · intro heven
    have hlens : (max 4 (2 * a.aiNRealscanlen.toNat + if a.useeoshandle then 2 else 0) ≤
          room a a.dmabufSize0 ∧
        4 ∣ max 4 (2 * a.aiNRealscanlen.toNat + if a.useeoshandle then 2 else 0)) ∧
        max 4 (2 * a.aiNRealscanlen.toNat - if a.useeoshandle then 2 else 0) ≤
          room a a.dmabufSize1 ∧
        4 ∣ max 4 (2 * a.aiNRealscanlen.toNat - if a.useeoshandle then 2 else 0) := by
      cases huse : a.useeoshandle with
      | false =>
        rw [huse] at heven
        change _ ∨ _ at heven
        simp only [Bool.false_eq_true, if_false]
        omega
      | true =>
        rw [huse] at heven
        change _ = 1 at heven
        simp only [if_true]
        omega
    obtain ⟨⟨hfit0, hwords0⟩, hfit1, hwords1⟩ := hlens
    rw [← hlen0] at hfit0 hwords0
    rw [← hlen1] at hfit1 hwords1
    have hpos0 : 0 < (a.shorten a.aiFlags (a.clip a.dmabufSize0) (· + 2)).2.toNat := by
      rw [hlen0]
      omega
    have hpos1 : 0 < (a.shorten a.aiFlags (a.clip a.dmabufSize1) (· - 2)).2.toNat := by
      rw [hlen1]
      omega
    exact ⟨hfit0.trans hroom0, hfit1.trans hroom1, ⟨hpos0, hwords0⟩, fun _ => ⟨hpos1, hwords1⟩,
      fun _ => ⟨_, le_transferred hpos0 _⟩, hscan, fun hoff => absurd hoff hkeep⟩

theorem wholeMeasure_le (dmalen0 dmalen1 : U32) :
    (a.wholeMeasure dmalen0 dmalen1).1.toNat ≤ dmalen0.toNat := by
  unfold Acquisition.wholeMeasure
  dsimp only
  split
  · exact le_rfl
  split
  next hless =>
    have hlt : (a.scanBytes * a.aiScans).toNat < dmalen0.toNat := hless
    rw [toNat_alignDown]
    omega
  · exact le_rfl

theorem cleared (flags : U32) : flags &&& ~~~trigWakeEos &&& trigWakeEos = 0 := by
  have hnone : ~~~trigWakeEos &&& trigWakeEos = 0 := by decide
  rw [BitVec.and_assoc, hnone]
  exact BitVec.and_zero

/-- Without a wake-up for which the first buffer has room. -/
theorem setup_whole (hscan : 2 * a.aiNRealscanlen.toNat < 2 ^ 32)
    (h : ¬ (wakes a ∧ 2 * a.aiNRealscanlen.toNat ≤ room a a.dmabufSize0)) :
    ∃ flags, flags &&& trigWakeEos = 0 ∧
      a.computeAndSetupDma = ⟨flags, 0,
        (a.wholeMeasure (a.wholeScans (a.clip a.dmabufSize0))
          (a.wholeScans (a.clip a.dmabufSize1))).1,
        (a.wholeMeasure (a.wholeScans (a.clip a.dmabufSize0))
          (a.wholeScans (a.clip a.dmabufSize1))).2⟩ := by
  have hfirst : ∃ flags, flags &&& trigWakeEos = 0 ∧
      a.shorten a.aiFlags (a.clip a.dmabufSize0) (· + 2) = (flags, a.clip a.dmabufSize0) := by
    by_cases hwakes : wakes a
    · have hlt : (a.clip a.dmabufSize0).toNat < 2 * a.aiNRealscanlen.toNat := by
        rw [toNat_clip a.pages0]
        exact Nat.not_le.mp fun hle => h ⟨hwakes, hle⟩
      exact ⟨_, cleared _, shorten_short hscan hwakes hlt _⟩
    · have hoff : a.aiFlags &&& trigWakeEos = 0 := not_not.mp hwakes
      exact ⟨_, hoff, shorten_off hoff _ _⟩
  obtain ⟨flags, hflags, heq⟩ := hfirst
  refine ⟨flags, hflags, ?_⟩
  unfold Acquisition.computeAndSetupDma
  dsimp only
  rw [heq]
  dsimp only
  rw [shorten_off hflags]
  exact if_pos hflags

theorem fits_whole (hscan : 2 * a.aiNRealscanlen.toNat < 2 ^ 32) (hdata : 4 ≤ a.aiDataLen.toNat)
    (h : ¬ (wakes a ∧ 2 * a.aiNRealscanlen.toNat ≤ room a a.dmabufSize0)) :
    Fits a a.computeAndSetupDma ↔ (a.aiNeverending = false → Even a) := by
  obtain ⟨flags, hflags, heq⟩ := setup_whole hscan h
  have hr := a.realscanlen_pos
  have hpos0 := (@room_pos a _ a.pages0 a.size0_pos).mpr hdata
  have hpos1 := (@room_pos a _ a.pages1 a.size1_pos).mpr hdata
  have hfour0 := @four_dvd_room a _ a.pages0
  have hlen0 := @toNat_wholeScans a hscan (a.clip a.dmabufSize0)
  have hlen1 := @toNat_wholeScans a hscan (a.clip a.dmabufSize1)
  rw [toNat_clip a.pages0] at hlen0
  rw [toNat_clip a.pages1] at hlen1
  have hscans : firstScans a = room a a.dmabufSize0 / (2 * a.aiNRealscanlen.toNat) := if_neg h
  rw [heq, fits_wholeMeasure hscan hflags]
  · refine imp_congr_right fun _ => ?_
    unfold Measured Even
    rw [hlen0, hscans, Ne, measure_eq_zero_iff]
    refine and_congr_right fun _ => and_congr_right fun _ => and_congr_right fun _ => ?_
    have hmeasure : a.measure = 2 * a.aiNRealscanlen.toNat * a.aiScans.toNat := rfl
    rw [Ne, hmeasure, measure_eq_whole_iff hr hfour0 hpos0, not_or, not_or]
  · rw [hlen0]
    exact ⟨whole_pos hpos0, four_dvd_whole hfour0,
      (whole_le _ _).trans (room_le a a.dmabufSize0)⟩
  · rw [hlen1]
    exact ⟨whole_pos hpos1, four_dvd_whole (four_dvd_room a.pages1),
      (whole_le _ _).trans (room_le a a.dmabufSize1)⟩

/-- The buffers for a wake-up that is given up because of the second one. -/
theorem setup_short (hscan : 2 * a.aiNRealscanlen.toNat < 2 ^ 32) (hwakes : wakes a)
    (h : 2 * a.aiNRealscanlen.toNat ≤ room a a.dmabufSize0)
    (hshort : room a a.dmabufSize1 < 2 * a.aiNRealscanlen.toNat) :
    ∃ dmalen0, dmalen0.toNat = max 4 (2 * a.aiNRealscanlen.toNat +
        if a.useeoshandle then 2 else 0) ∧
      a.computeAndSetupDma = ⟨a.aiFlags &&& ~~~trigWakeEos, 0,
        (a.wholeMeasure (a.wholeScans dmalen0) (a.wholeScans (a.clip a.dmabufSize1))).1,
        (a.wholeMeasure (a.wholeScans dmalen0) (a.wholeScans (a.clip a.dmabufSize1))).2⟩ := by
  obtain ⟨hone, -⟩ := toNat_one hscan h
  rw [← toNat_clip a.pages0] at h
  rw [← toNat_clip a.pages1] at hshort
  obtain ⟨hflags, hlen⟩ := shorten_one hscan hwakes h (· + 2)
  rw [hone] at hlen
  refine ⟨_, hlen, ?_⟩
  unfold Acquisition.computeAndSetupDma
  dsimp only
  rw [hflags, shorten_short hscan hwakes hshort]
  exact if_pos (cleared _)

/-- A buffer for one scan. -/
theorem whole_one {r handle : Nat} (hr : 2 < r) (hhandle : handle ≤ 2) :
    whole (2 * r) (max 4 (2 * r + handle)) = 2 * r / 4 * 4 := by
  have hmax : max 4 (2 * r + handle) = handle + 2 * r := by omega
  have hdiv : (handle + 2 * r) / (2 * r) = 1 := by
    rw [Nat.add_div_right _ (by omega), Nat.div_eq_of_lt (by omega)]
  unfold whole
  rw [hmax, hdiv, Nat.one_mul]
  exact if_neg (by omega)

theorem measure_eq_one_iff {r scans : Nat} (hr : 2 < r) :
    2 * r * scans = 2 * r / 4 * 4 + 2 ↔ scans = 1 ∧ r % 2 = 1 := by
  constructor
  · intro heq
    rcases scans with _ | _ | scans
    · omega
    · exact ⟨rfl, by omega⟩
    · have htwo : 2 * r * 2 ≤ 2 * r * (scans + 1 + 1) := Nat.mul_le_mul_left _ (by omega)
      omega
  · rintro ⟨rfl, hodd⟩
    omega

theorem fits_short (hscan : 2 * a.aiNRealscanlen.toNat < 2 ^ 32) (hdata : 4 ≤ a.aiDataLen.toNat)
    (hwakes : wakes a) (h : 2 * a.aiNRealscanlen.toNat ≤ room a a.dmabufSize0)
    (hshort : room a a.dmabufSize1 < 2 * a.aiNRealscanlen.toNat) :
    Fits a a.computeAndSetupDma ↔ (a.aiNeverending = false → Even a) := by
  obtain ⟨dmalen0, hdmalen, heq⟩ := setup_short hscan hwakes h hshort
  have hpos1 := (@room_pos a _ a.pages1 a.size1_pos).mpr hdata
  have hfour1 := @four_dvd_room a _ a.pages1
  have hroom0 := room_le a a.dmabufSize0
  have hr : 2 < a.aiNRealscanlen.toNat := by omega
  have hhandle : (if a.useeoshandle then 2 else 0) ≤ 2 := by
    split
    · exact le_rfl
    · exact Nat.zero_le _
  have hlen0 := @toNat_wholeScans a hscan dmalen0
  have hlen1 := @toNat_wholeScans a hscan (a.clip a.dmabufSize1)
  rw [hdmalen, whole_one hr hhandle] at hlen0
  rw [toNat_clip a.pages1] at hlen1
  have hscans : firstScans a = 1 := if_pos ⟨hwakes, h⟩
  rw [heq, fits_wholeMeasure hscan (cleared _)]
  · refine imp_congr_right fun _ => ?_
    have hone : a.aiNRealscanlen.toNat ≠ 1 := by omega
    have hmore : ¬ 2 * a.aiNRealscanlen.toNat = room a a.dmabufSize0 + 2 := by omega
    unfold Measured Even
    rw [hlen0, hscans, Ne, measure_eq_zero_iff]
    refine and_congr_right fun _ => and_congr_right fun _ => and_congr_right fun _ => ?_
    have hmeasure : a.measure = 2 * a.aiNRealscanlen.toNat * a.aiScans.toNat := rfl
    rw [Ne, hmeasure, measure_eq_one_iff hr, Nat.one_mul]
    exact ⟨fun hnot => ⟨hnot, fun hboth => hone hboth.1, fun hboth => hmore hboth.1⟩,
      fun hall => hall.1⟩
  · rw [hlen0]
    exact ⟨by omega, Nat.dvd_mul_left _ _, by omega⟩
  · rw [hlen1]
    exact ⟨whole_pos hpos1, four_dvd_whole hfour1,
      (whole_le _ _).trans (room_le a a.dmabufSize1)⟩

/-- A data buffer of less than a word leaves nothing to transfer. -/
theorem data_of_fits (h : Fits a a.computeAndSetupDma) : 4 ≤ a.aiDataLen.toNat := by
  by_contra hshort
  have hnone : room a a.dmabufSize0 = 0 := by
    have hpos := mt (@room_pos a _ a.pages0 a.size0_pos).mp hshort
    omega
  have hr := a.realscanlen_pos
  have hnot : ¬ (wakes a ∧ 2 * a.aiNRealscanlen.toNat ≤ room a a.dmabufSize0) := by
    rintro ⟨-, hle⟩
    omega
  obtain ⟨flags, -, heq⟩ := setup_whole h.scan hnot
  have hpos := h.first.1
  rw [heq] at hpos
  have hle := @wholeMeasure_le a (a.wholeScans (a.clip a.dmabufSize0))
    (a.wholeScans (a.clip a.dmabufSize1))
  have hwhole := whole_le (2 * a.aiNRealscanlen.toNat) (room a a.dmabufSize0)
  rw [toNat_wholeScans h.scan, toNat_clip a.pages0] at hle
  dsimp only at hpos
  omega

/-- The transfers fit exactly where the data buffer holds a word, the products do not overflow, and
neither a scan of an odd number of samples nor what is left of the measure takes half a word. -/
theorem fits_iff (a : Acquisition) : Fits a a.computeAndSetupDma ↔ Holds a := by
  by_cases hscan : 2 * a.aiNRealscanlen.toNat < 2 ^ 32
  · by_cases hdata : 4 ≤ a.aiDataLen.toNat
    · unfold Holds
      rw [and_iff_right hdata, and_iff_right hscan]
      by_cases heach : EachScan a
      · rw [if_pos heach, fits_eachScan hscan heach]
      · rw [if_neg heach]
        by_cases hfirst : wakes a ∧ 2 * a.aiNRealscanlen.toNat ≤ room a a.dmabufSize0
        · exact fits_short hscan hdata hfirst.1 hfirst.2
            (Nat.not_le.mp fun hle => heach ⟨hfirst.1, hfirst.2, hle⟩)
        · exact fits_whole hscan hdata hfirst
    · exact iff_of_false (fun h => hdata (data_of_fits h)) fun h => hdata h.1
  · exact iff_of_false (fun h => hscan h.scan) fun h => hscan h.2.1

/-- One scan of one sample, without a wake-up at its end. -/
def oneSample : Acquisition :=
  { dmabufSize0 := 65536, dmabufSize1 := 65536, aiDataLen := 65536, aiNRealscanlen := 1,
    aiScans := 1, aiNeverending := false, aiFlags := 0 }

/-- The transfer of one sample is set up for no bytes. -/
theorem one_sample_unfit : oneSample.computeAndSetupDma.dmabufUseSize0 = 0 ∧
    ¬ Fits oneSample oneSample.computeAndSetupDma := by
  have hnone : oneSample.computeAndSetupDma.dmabufUseSize0 = 0 := by decide
  refine ⟨hnone, fun h => ?_⟩
  have hpos := h.first.1
  rw [hnone] at hpos
  exact absurd hpos (by decide)

end Setups

end Comedi.Pci9118Dma
