import Comedi.Bonding

namespace Comedi.BondedChannels

open Bonding Function

/-- The channels of the subdevices follow each other from `off` to `tot`. -/
def Laid (off : Nat) : List BondedDevice → Nat → Prop
  | [], tot => off = tot
  | b :: bs, tot => b.chanidOffset = off ∧ 0 < b.nchans ∧ Laid (off + b.nchans) bs tot

variable {p : Private} {w : World} {b b' : BondedDevice} {bs : List BondedDevice}
  {off tot c i j n : Nat} {data0 data1 : U32}

theorem Laid.le (h : Laid off bs tot) : off ≤ tot := by
  induction bs generalizing off with
  | nil => exact Nat.le_of_eq h
  | cons b bs ih => exact Nat.le_of_add_right_le (ih h.2.2)

theorem Laid.lt (h : Laid off (b :: bs) tot) : off < tot :=
  Nat.lt_of_lt_of_le (Nat.lt_add_of_pos_right h.2.1) h.2.2.le

theorem Laid.offset_le (h : Laid off bs tot) (hb : b ∈ bs) : off ≤ b.chanidOffset := by
  induction bs generalizing off with
  | nil => cases hb
  | cons b₁ bs ih =>
    rcases List.mem_cons.mp hb with rfl | hb
    · exact Nat.le_of_eq h.1.symm
    · exact Nat.le_of_add_right_le (ih h.2.2 hb)

theorem Laid.append (h : Laid off bs tot) (hn : 0 < n) (hb : b.chanidOffset = tot)
    (hbn : b.nchans = n) : Laid off (bs ++ [b]) (tot + n) := by
  induction bs generalizing off with
  | nil =>
    cases h
    exact ⟨hb, hbn ▸ hn, by rw [hbn]; rfl⟩
  | cons b₁ bs ih => exact ⟨h.1, h.2.1, ih h.2.2⟩

theorem Laid.owner (h : Laid off bs tot) (hle : off ≤ c) (hlt : c < tot) :
    ∃ b ∈ bs, b.chanidOffset ≤ c ∧ c < b.chanidOffset + b.nchans := by
  induction bs generalizing off with
  | nil =>
    cases h
    exact absurd hle (Nat.not_le.mpr hlt)
  | cons b bs ih =>
    obtain ⟨rfl, -, hrest⟩ := h
    by_cases hc : c < b.chanidOffset + b.nchans
    · exact ⟨b, List.mem_cons_self, hle, hc⟩
    · obtain ⟨b', hb', h'⟩ := ih hrest (Nat.not_lt.mp hc)
      exact ⟨b', List.mem_cons_of_mem _ hb', h'⟩

/-- No two subdevices have a channel in common. -/
theorem Laid.unique (h : Laid off bs tot) (hb : b ∈ bs) (hb' : b' ∈ bs)
    (hle : b.chanidOffset ≤ c) (hlt : c < b.chanidOffset + b.nchans)
    (hle' : b'.chanidOffset ≤ c) (hlt' : c < b'.chanidOffset + b'.nchans) : b = b' := by
  induction bs generalizing off with
  | nil => cases hb
  | cons b₁ bs ih =>
    obtain ⟨rfl, -, hrest⟩ := h
    rcases List.mem_cons.mp hb with rfl | hmem
    · rcases List.mem_cons.mp hb' with rfl | hmem'
      · rfl
      · have := hrest.offset_le hmem'
        omega
    · rcases List.mem_cons.mp hb' with rfl | hmem'
      · have := hrest.offset_le hmem
        omega
      · exact ih hrest hmem hmem'

/-- The bits of a subdevice with `n` channels. -/
def subdevMask (n : Nat) : U32 :=
  if 32 ≤ n then BitVec.allOnes 32 else BitVec.ofNat 32 (2 ^ n - 1)

theorem subdevMask_getLsbD (n i : Nat) :
    (subdevMask n).getLsbD i = (decide (i < 32) && decide (i < n)) := by
  unfold subdevMask
  split
  · next hn =>
    rw [BitVec.getLsbD_allOnes]
    by_cases hi : i < 32
    · simp [hi, Nat.lt_of_lt_of_le hi hn]
    · simp [hi]
  · rw [BitVec.getLsbD_ofNat, Nat.testBit_two_pow_sub_one]

/-- The word with the bits of one subdevice replaced. -/
def spliced (data1 word : U32) (off n : Nat) : U32 :=
  (data1 &&& ~~~(subdevMask n <<< off)) ||| ((word &&& subdevMask n) <<< off)

theorem spliced_getLsbD (word : U32) (hj : j < 32) :
    (spliced data1 word off n).getLsbD j =
      if off ≤ j ∧ j < off + n then word.getLsbD (j - off) else data1.getLsbD j := by
  unfold spliced
  simp only [BitVec.getLsbD_or, BitVec.getLsbD_and, BitVec.getLsbD_not, BitVec.getLsbD_shiftLeft,
    subdevMask_getLsbD, hj, decide_true, Bool.true_and]
  by_cases hoff : j < off
  · rw [if_neg (by omega)]
    simp [hoff]
  · have hlt : j - off < 32 := by omega
    by_cases hn : j - off < n
    · rw [if_pos (by omega)]
      simp [hoff, hlt, hn]
    · rw [if_neg (by omega)]
      simp [hoff, hn]

theorem spliced_outside (word : U32) (hj : j < off ∨ off + n ≤ j) :
    (spliced data1 word off n).getLsbD j = data1.getLsbD j := by
  by_cases hj32 : j < 32
  · rw [spliced_getLsbD word hj32, if_neg (by omega)]
  · rw [BitVec.getLsbD_of_ge _ _ (Nat.not_lt.mp hj32), BitVec.getLsbD_of_ge _ _ (Nat.not_lt.mp hj32)]

/-- The lines after the masked bits have been written. -/
def written (d : DioSub) (off n : Nat) (data0 data1 : U32) : DioSub :=
  { d with lines := fun i =>
    if i < n ∧ data0.getLsbD (off + i) then data1.getLsbD (off + i) else d.lines i }

theorem bitfield_eq (off : Nat) (data0 data1 : U32) (d : DioSub) (hn : d.nChan = n) :
    (d.bitfield ((data0 >>> off) &&& subdevMask n) ((data1 >>> off) &&& subdevMask n)).2 =
      written d off n data0 data1 := by
  have hl : (fun i => if i < d.nChan ∧ ((data0 >>> off) &&& subdevMask n).getLsbD i
      then ((data1 >>> off) &&& subdevMask n).getLsbD i else d.lines i) =
      fun i => if i < n ∧ data0.getLsbD (off + i) then data1.getLsbD (off + i)
        else d.lines i := by
    funext i
    simp only [BitVec.getLsbD_and, BitVec.getLsbD_ushiftRight, subdevMask_getLsbD, hn]
    by_cases hi : i < n
    · by_cases hlt : off + i < 32
      · have hi32 : i < 32 := by omega
        simp [hi, hi32]
      · have hz : data0.getLsbD (off + i) = false := BitVec.getLsbD_of_ge _ _ (Nat.not_lt.mp hlt)
        simp [hz]
    · simp [hi]
  exact congrArg (fun l => { d with lines := l }) hl

theorem written_congr (d : DioSub) {data1' : U32}
    (h : ∀ i < n, data1'.getLsbD (off + i) = data1.getLsbD (off + i)) :
    written d off n data0 data1' = written d off n data0 data1 := by
  have hl : (fun i => if i < n ∧ data0.getLsbD (off + i) then data1'.getLsbD (off + i)
      else d.lines i) = fun i => if i < n ∧ data0.getLsbD (off + i) then data1.getLsbD (off + i)
      else d.lines i := by
    funext i
    by_cases hi : i < n
    · rw [h i hi]
    · simp [hi]
  exact congrArg (fun l => { d with lines := l }) hl

theorem bitfield_word (i : Nat) (d : DioSub) (mask bits : U32) (hi : i < d.nChan) (hlt : i < 32) :
    (d.bitfield mask bits).1.getLsbD i = (d.bitfield mask bits).2.lines i :=
  d.reads _ i hlt hi

/-- What the loop over the subdevices does: each of the lines whose bits are masked is written, and
the word gets the bits of all lines. -/
structure Sliced (bs : List BondedDevice) (off : Nat) (data0 data1 : U32) (w : World)
    (r : U32 × World) : Prop where
  others : ∀ key, key ∉ bs.map (·.key) → r.2 key = w key
  lines : ∀ b ∈ bs, r.2 b.key = written (w b.key) b.chanidOffset b.nchans data0 data1
  word : ∀ b ∈ bs, ∀ i < b.nchans, b.chanidOffset + i < 32 →
    r.1.getLsbD (b.chanidOffset + i) = (r.2 b.key).lines i
  below : ∀ j < off, r.1.getLsbD j = data1.getLsbD j

theorem written_unmasked (d : DioSub) (off n : Nat) (data1 : U32) (h : 32 ≤ off) :
    written d off n data0 data1 = d := by
  unfold written
  have hl : (fun i => if i < n ∧ data0.getLsbD (off + i) then data1.getLsbD (off + i)
      else d.lines i) = d.lines := by
    funext i
    rw [BitVec.getLsbD_of_ge _ _ (Nat.le_add_right_of_le h)]
    simp
  rw [hl]

theorem bitsLoop_sliced (hl : Laid off bs tot) (hnd : (bs.map (·.key)).Nodup)
    (hm : ∀ b ∈ bs, (w b.key).nChan = b.nchans) {nchans : Nat} (hn : nchans = min tot 32) :
    Sliced bs off data0 data1 w (bitsLoop nchans bs off data0 data1 w) := by
  induction bs generalizing off data1 w with
  | nil => exact ⟨fun _ _ => rfl, nofun, nofun, fun _ _ => rfl⟩
  | cons b bs ih =>
    have hlt := hl.lt
    have hle : ∀ b' ∈ b :: bs, off ≤ b'.chanidOffset := fun b' hb' => hl.offset_le hb'
    obtain ⟨rfl, hpos, hrest⟩ := hl
    obtain ⟨hnot, hnd⟩ := List.nodup_cons.mp hnd
    have hne : ∀ b' ∈ bs, b'.key ≠ b.key := fun b' hb' he =>
      hnot (List.mem_map.mpr ⟨b', hb', he⟩)
    unfold bitsLoop
    split
    · change Sliced _ _ _ _ _ (bitsLoop nchans bs (b.chanidOffset + b.nchans) data0
        (spliced data1 ((w b.key).bitfield ((data0 >>> b.chanidOffset) &&& subdevMask b.nchans)
          ((data1 >>> b.chanidOffset) &&& subdevMask b.nchans)).1 b.chanidOffset b.nchans)
        (update w b.key ((w b.key).bitfield ((data0 >>> b.chanidOffset) &&& subdevMask b.nchans)
          ((data1 >>> b.chanidOffset) &&& subdevMask b.nchans)).2))
      have hnb := hm b List.mem_cons_self
      have hw := bitfield_eq b.chanidOffset data0 data1 _ hnb
      have hword := fun i hi hi32 => bitfield_word i (w b.key)
        ((data0 >>> b.chanidOffset) &&& subdevMask b.nchans)
        ((data1 >>> b.chanidOffset) &&& subdevMask b.nchans) hi hi32
      generalize (w b.key).bitfield ((data0 >>> b.chanidOffset) &&& subdevMask b.nchans)
        ((data1 >>> b.chanidOffset) &&& subdevMask b.nchans) = d at hw hword ⊢
      have hupd : ∀ b' ∈ bs, update w b.key d.2 b'.key = w b'.key := fun b' hb' =>
        update_of_ne (hne b' hb') _ _
      have hs : Sliced bs (b.chanidOffset + b.nchans) data0
          (spliced data1 d.1 b.chanidOffset b.nchans) (update w b.key d.2)
          (bitsLoop nchans bs (b.chanidOffset + b.nchans) data0
            (spliced data1 d.1 b.chanidOffset b.nchans) (update w b.key d.2)) :=
        ih hrest hnd fun b' hb' => by
          rw [hupd b' hb']
          exact hm b' (List.mem_cons_of_mem _ hb')
      generalize bitsLoop nchans bs _ data0 _ _ = r at hs ⊢
      have hself : r.2 b.key = d.2 := by rw [hs.others _ hnot, update_self]
      refine ⟨fun key hkey => ?_, ?_, ?_, fun j hj => ?_⟩
      · rw [List.map_cons, List.mem_cons, not_or] at hkey
        rw [hs.others key hkey.2, update_of_ne hkey.1]
      · refine List.forall_mem_cons.mpr ⟨hself.trans hw, fun b' hb' => ?_⟩
        have hafter := hrest.offset_le hb'
        rw [hs.lines b' hb', hupd b' hb']
        exact written_congr _ fun i _ => spliced_outside _ (.inr (by omega))
      · refine List.forall_mem_cons.mpr ⟨fun i hi hlt' => ?_, hs.word⟩
        rw [hs.below _ (by omega), spliced_getLsbD _ hlt', if_pos (by omega), hself,
          Nat.add_sub_cancel_left]
        exact hword i (hnb ▸ hi) (by omega)
      · rw [hs.below j (by omega), spliced_outside _ (.inl hj)]
    · next hge =>
      have h32 : 32 ≤ b.chanidOffset := by omega
      refine ⟨fun _ _ => rfl, fun b' hb' => ?_, fun b' hb' i hi hlt' => ?_, fun _ _ => rfl⟩
      · have := hle b' hb'
        rw [written_unmasked _ _ _ _ (by omega)]
      · have := hle b' hb'
        omega

/-- A bond in order: its subdevices are different ones, and every channel is mapped to its owner. -/
structure Bonded (p : Private) : Prop where
  laid : Laid 0 p.devs p.nchans
  nodup : (p.devs.map (·.key)).Nodup
  mapped : ∀ c < p.nchans, ∃ b, p.chanIdDevMap c = some b ∧ OwnedBy p c b

theorem Bonded.owner_unique (h : Bonded p) (hb : OwnedBy p c b) (hb' : OwnedBy p c b') : b = b' :=
  h.laid.unique hb.1 hb'.1 hb.2.1 hb.2.2 hb'.2.1 hb'.2.2

theorem Bonded.key_inj (h : Bonded p) (hb : b ∈ p.devs) (hb' : b' ∈ p.devs)
    (he : b.key = b'.key) : b = b' := List.inj_on_of_nodup_map h.nodup hb hb' he

theorem Bonded.sliced (h : Bonded p) (hm : Matches w p) (data0 data1 : U32) :
    Sliced p.devs 0 data0 data1 w (bondingDioInsnBits p data0 data1 w) := by
  refine bitsLoop_sliced h.laid h.nodup hm ?_
  split <;> omega

theorem one_getLsbD (j : Nat) : (1 : U32).getLsbD j = decide (j = 0) := by
  change (1#32).getLsbD j = _
  rw [BitVec.getLsbD_one]
  simp

theorem bit_getLsbD (hc : c < 32) (j : Nat) : ((1 : U32) <<< c).getLsbD j = decide (j = c) := by
  rw [BitVec.getLsbD_shiftLeft, one_getLsbD]
  by_cases hj : j = c
  · simp [hj, hc]
  · have : ¬ (c ≤ j ∧ j - c = 0) := by omega
    by_cases hlt : j < c
    · simp [hlt, hj]
    · have hne : j - c ≠ 0 := by omega
      simp [hj, hne]

theorem writtenBit_getLsbD (hc : c < 32) (v : U32) :
    (if v ≠ 0 then (1 : U32) <<< c else 0).getLsbD c = decide (v ≠ 0) := by
  by_cases hv : v ≠ 0
  · rw [if_pos hv, bit_getLsbD hc, decide_eq_true rfl, decide_eq_true hv]
  · rw [if_neg hv, decide_eq_false hv]
    exact BitVec.getLsbD_zero

/-- One masked bit writes one line, and is what the line reads then. -/
theorem Bonded.bits_one (h : Bonded p) (hm : Matches w p) (hb : OwnedBy p c b) (hc : c < 32)
    (data1 : U32) :
    (bondingDioInsnBits p ((1 : U32) <<< c) data1 w).2 =
        setLine w b (c - b.chanidOffset) (data1.getLsbD c) ∧
      (bondingDioInsnBits p ((1 : U32) <<< c) data1 w).1.getLsbD c = data1.getLsbD c := by
  have hs := h.sliced hm ((1 : U32) <<< c) data1
  generalize bondingDioInsnBits p ((1 : U32) <<< c) data1 w = r at hs ⊢
  have hat : b.chanidOffset + (c - b.chanidOffset) = c := Nat.add_sub_cancel' hb.2.1
  have hin : c - b.chanidOffset < b.nchans := by
    have := hb.2.2
    omega
  have hall : r.2 = setLine w b (c - b.chanidOffset) (data1.getLsbD c) := by
    funext key
    by_cases hkey : key ∈ p.devs.map (·.key)
    · obtain ⟨b', hb', rfl⟩ := List.mem_map.mp hkey
      rw [hs.lines b' hb']
      by_cases he : b' = b
      · subst he
        rw [setLine, update_self]
        refine congrArg (fun l => { w b'.key with lines := l }) ?_
        funext i
        rw [bit_getLsbD hc, update_apply]
        by_cases hi : i = c - b'.chanidOffset
        · subst hi
          simp [hin, hat]
        · have hne : b'.chanidOffset + i ≠ c := by omega
          simp [hi, hne]
      · rw [setLine, update_of_ne fun hk => he (h.key_inj hb' hb.1 hk)]
        refine Eq.trans (congrArg (fun l => { w b'.key with lines := l }) ?_) rfl
        funext i
        rw [bit_getLsbD hc]
        refine if_neg fun hmask => he ?_
        have hi := of_decide_eq_true hmask.2
        exact h.owner_unique ⟨hb', by omega, by omega⟩ hb
    · rw [hs.others key hkey, setLine, update_of_ne fun hk =>
        hkey (List.mem_map.mpr ⟨b, hb.1, hk.symm⟩)]
  refine ⟨hall, ?_⟩
  have hword := hs.word b hb.1 (c - b.chanidOffset) hin (by omega)
  rw [hat, hall] at hword
  simpa [setLine] using hword

/-- Without a mask nothing is written. -/
theorem Bonded.bits_none (h : Bonded p) (hm : Matches w p) (hb : OwnedBy p c b) (hc : c < 32)
    (data1 : U32) :
    (bondingDioInsnBits p 0 data1 w).2 = w ∧
      (bondingDioInsnBits p 0 data1 w).1.getLsbD c =
        (w b.key).lines (c - b.chanidOffset) := by
  have hs := h.sliced hm 0 data1
  generalize bondingDioInsnBits p 0 data1 w = r at hs ⊢
  have hat : b.chanidOffset + (c - b.chanidOffset) = c := Nat.add_sub_cancel' hb.2.1
  have hin : c - b.chanidOffset < b.nchans := by
    have := hb.2.2
    omega
  have hall : r.2 = w := by
    funext key
    by_cases hkey : key ∈ p.devs.map (·.key)
    · obtain ⟨b', hb', rfl⟩ := List.mem_map.mp hkey
      rw [hs.lines b' hb']
      simp [written]
    · exact hs.others key hkey
  refine ⟨hall, ?_⟩
  have hword := hs.word b hb.1 (c - b.chanidOffset) hin (by omega)
  rwa [hat, hall] at hword

theorem and_one_eq (x : U32) (c : Nat) :
    (x >>> c) &&& 1 = if x.getLsbD c then 1 else 0 := by
  refine BitVec.eq_of_getLsbD_eq fun j hj => ?_
  rw [BitVec.getLsbD_and, BitVec.getLsbD_ushiftRight, one_getLsbD]
  by_cases hj0 : j = 0
  · subst hj0
    cases hx : x.getLsbD c
    · simp
    · simp
  · cases hx : x.getLsbD c
    · simp [hj0]
    · rw [if_pos rfl, one_getLsbD]
      simp [hj0]

theorem Bonded.owner (h : Bonded p) (hc : c < p.nchans) : ∃ b, OwnedBy p c b :=
  h.laid.owner (Nat.zero_le c) hc

theorem routed_of_direct (h : Bonded p) (hc : c < p.nchans) {op : ChannelOp}
    (hd : Direct p.nchans c op) : Routed p c op := by
  intro w hm
  obtain ⟨b, hb⟩ := h.owner hc
  refine ⟨b, hb, ?_⟩
  cases op with
  | read =>
    have hc32 : c < 32 := hd
    obtain ⟨hw, hbit⟩ := h.bits_none hm hb hc32 0
    simp only [insnRead, if_pos hc32, Nat.sub_zero]
    rw [and_one_eq, hbit, hw]
  | write data0 =>
    have hc32 : c < 32 := hd
    obtain ⟨hw, -⟩ := h.bits_one hm hb hc32 (if data0 ≠ 0 then (1 : U32) <<< c else 0)
    simp only [insnWrite, if_pos hc32, Nat.sub_zero]
    rw [hw, writtenBit_getLsbD hc32]
  | bits data1 =>
    have hshift : (if p.nchans ≤ 32 then c else 0) = c := by
      split
      · rfl
      · next hn => exact (hd.resolve_left hn).symm
    have hc32 : c < 32 := by
      rcases hd with hn | rfl
      · omega
      · decide
    obtain ⟨hw, hbit⟩ := h.bits_one hm hb hc32 (data1 <<< c)
    have hv : (data1 <<< c).getLsbD c = data1.getLsbD 0 := by
      simp [BitVec.getLsbD_shiftLeft, hc32]
    rw [hv] at hw hbit
    simp only [insnBits, hshift]
    refine ⟨hw, ?_⟩
    rw [BitVec.getLsbD_ushiftRight, Nat.add_zero]
    exact hbit
  | config output =>
    intro ioBits
    obtain ⟨b', hmap, hb'⟩ := h.mapped c hc
    obtain rfl := h.owner_unique hb' hb
    unfold bondingDioInsnConfig
    dsimp only
    rw [if_neg (Nat.not_le.mpr hc), hmap]
    cases output
    · exact ⟨_, rfl⟩
    · exact ⟨_, rfl⟩

theorem exists_counts (hnd : (bs.map (·.key)).Nodup) :
    ∃ f : Key → Nat, ∀ b ∈ bs, f b.key = b.nchans := by
  induction bs with
  | nil => exact ⟨fun _ => 0, nofun⟩
  | cons b bs ih =>
    obtain ⟨hnot, hnd⟩ := List.nodup_cons.mp hnd
    obtain ⟨f, hf⟩ := ih hnd
    refine ⟨update f b.key b.nchans, List.forall_mem_cons.mpr ⟨update_self .., fun b' hb' => ?_⟩⟩
    rw [update_of_ne fun he => hnot (List.mem_map.mpr ⟨b', hb', he⟩)]
    exact hf b' hb'

def plainSub (n : Nat) (lines : Nat → Bool) : DioSub where
  nChan := n
  lines := lines
  output := fun _ => false
  word := fun l => (BitVec.ofBoolListLE ((List.range 32).map l)).setWidth 32
  reads := fun l i hi _ => by
    rw [BitVec.getLsbD_setWidth, BitVec.getLsbD_ofBoolListLE]
    simp [hi]

/-- Subdevices with any lines can be under the bond. -/
theorem Bonded.exists_world (h : Bonded p) (lines : Key → Nat → Bool) :
    ∃ w, Matches w p ∧ ∀ key, (w key).lines = lines key := by
  obtain ⟨f, hf⟩ := exists_counts h.nodup
  exact ⟨fun key => plainSub (f key) (lines key), hf, fun _ => rfl⟩

/-- Writing channel 0 is not writing another channel. -/
theorem Bonded.setLine_ne (h : Bonded p) (hb : OwnedBy p c b) (hb' : OwnedBy p 0 b')
    (hne : c ≠ 0) {v : Bool} (hw : ∀ key i, (w key).lines i = !v) :
    setLine w b' (0 - b'.chanidOffset) v ≠ setLine w b (c - b.chanidOffset) v := by
  intro he
  have hline := congrArg (fun w' : World => (w' b'.key).lines (0 - b'.chanidOffset)) he
  have hleft : ((setLine w b' (0 - b'.chanidOffset) v) b'.key).lines
      (0 - b'.chanidOffset) = v := by
    simp [setLine]
  have hright : ((setLine w b (c - b.chanidOffset) v) b'.key).lines
      (0 - b'.chanidOffset) = !v := by
    by_cases hk : b'.key = b.key
    · obtain rfl := h.key_inj hb'.1 hb.1 hk
      have hoff := hb'.2.1
      rw [setLine, update_self]
      change update _ _ _ _ = _
      rw [update_of_ne (by omega), hw]
    · rw [setLine, update_of_ne hk, hw]
  rw [hleft, hright] at hline
  cases v <;> cases hline

theorem direct_of_routed (h : Bonded p) (hc : c < p.nchans) {op : ChannelOp}
    (hr : Routed p c op) : Direct p.nchans c op := by
  by_contra hd
  have hpos : 0 < p.nchans := Nat.zero_lt_of_lt hc
  obtain ⟨b₀, hb₀⟩ := h.owner hpos
  obtain ⟨b, hb⟩ := h.owner hc
  have hzero : (0 : Nat) < 32 := by decide
  cases op with
  | config output => exact hd trivial
  | read =>
    have hc32 : ¬ c < 32 := hd
    obtain ⟨w, hm, hw⟩ := h.exists_world fun key i =>
      decide (key = b.key ∧ i = c - b.chanidOffset)
    obtain ⟨b', hb', hread⟩ := hr w hm
    obtain rfl := h.owner_unique hb' hb
    obtain ⟨-, hbit⟩ := h.bits_none hm hb₀ hzero 0
    have hline : (w b₀.key).lines (0 - b₀.chanidOffset) = false := by
      rw [hw]
      refine decide_eq_false fun hk => ?_
      obtain rfl := h.key_inj hb₀.1 hb'.1 hk.1
      have hoff := hb₀.2.1
      omega
    have hmine : (w b'.key).lines (c - b'.chanidOffset) = true := by
      rw [hw]
      exact decide_eq_true ⟨rfl, rfl⟩
    simp only [insnRead, if_neg hc32, Nat.sub_self] at hread
    rw [and_one_eq, hbit, hline, hmine] at hread
    have hone : (0 : U32) = 1 := congrArg Prod.fst hread
    exact absurd hone (by decide)
  | write data0 =>
    have hc32 : ¬ c < 32 := hd
    obtain ⟨w, hm, hw⟩ := h.exists_world fun _ _ => !decide (data0 ≠ 0)
    obtain ⟨b', hb', hwrite⟩ := hr w hm
    obtain rfl := h.owner_unique hb' hb
    obtain ⟨hzero', -⟩ := h.bits_one hm hb₀ hzero (if data0 ≠ 0 then (1 : U32) <<< 0 else 0)
    rw [writtenBit_getLsbD hzero] at hzero'
    simp only [insnWrite, if_neg hc32, Nat.sub_self] at hwrite
    refine h.setLine_ne hb' hb₀ (by omega) (fun key i => ?_) (hzero'.symm.trans hwrite)
    rw [hw]
  | bits data1 =>
    rw [Direct, not_or] at hd
    obtain ⟨w, hm, hw⟩ := h.exists_world fun _ _ => !data1.getLsbD 0
    obtain ⟨b', hb', hbits, -⟩ := hr w hm
    obtain rfl := h.owner_unique hb' hb
    obtain ⟨hzero', -⟩ := h.bits_one hm hb₀ hzero data1
    simp only [insnBits, if_neg hd.1, BitVec.shiftLeft_zero] at hbits
    refine h.setLine_ne hb' hb₀ hd.2 (fun key i => ?_) (hzero'.symm.trans hbits)
    rw [hw]

theorem bonded_empty : Bonded {} := ⟨rfl, List.nodup_nil, nofun⟩

theorem Bonded.bond (h : Bonded p) {minor subdev : Nat} (hn : 0 < n)
    (hnew : (minor, subdev) ∉ p.devs.map (·.key)) : Bonded (p.bond minor subdev n) where
  laid := h.laid.append hn rfl rfl
  nodup := by
    change ((p.devs ++ [(⟨minor, subdev, n, p.nchans⟩ : BondedDevice)]).map (·.key)).Nodup
    rw [List.map_append]
    refine List.nodup_append.mpr ⟨h.nodup, List.nodup_singleton _, fun k hk k' hk' he => ?_⟩
    obtain rfl : k' = (minor, subdev) := List.mem_singleton.mp hk'
    rw [he] at hk
    exact hnew hk
  mapped := by
    intro c hc
    change c < p.nchans + n at hc
    by_cases hin : p.nchans ≤ c
    · exact ⟨_, if_pos ⟨hin, hc⟩, List.mem_append_right _ (List.mem_singleton_self _), hin, hc⟩
    · obtain ⟨b, hb, hmem, hle, hlt⟩ := h.mapped c (Nat.lt_of_not_le hin)
      exact ⟨b, (if_neg fun hc' => hin hc'.1).trans hb, List.mem_append_left _ hmem, hle, hlt⟩

/-- The subdevices of a board are bonded one after the other, as long as their channels fit. -/
theorem bondSubdevices_spec (minor : Nat) {subs : List (Nat × Nat)} (h : Bonded p)
    (hp : p.nchans ≤ maxChans) (hnd : (subs.map (·.1)).Nodup)
    (hnew : ∀ s ∈ subs.map (·.1), (minor, s) ∉ p.devs.map (·.key)) :
    bondSubdevices minor subs p = .ok none ∨
      (maxChans < p.nchans + (subs.map (·.2)).sum ∧
        bondSubdevices minor subs p = .error .chanIdDevMap) ∨
      (∃ p', bondSubdevices minor subs p = .ok (some p') ∧ Bonded p' ∧
        p'.nchans = p.nchans + (subs.map (·.2)).sum ∧ p'.nchans ≤ maxChans ∧
        ∀ k ∈ p'.devs.map (·.key), k ∈ p.devs.map (·.key) ∨ k.1 = minor) := by
  induction subs generalizing p with
  | nil => exact .inr (.inr ⟨p, rfl, h, rfl, hp, fun k hk => .inl hk⟩)
  | cons s subs ih =>
    obtain ⟨subdev, n⟩ := s
    unfold bondSubdevices
    by_cases hn : n = 0
    · rw [if_pos hn]
      exact .inl rfl
    rw [if_neg hn]
    have hsum : (((subdev, n) :: subs).map (·.2)).sum = n + (subs.map (·.2)).sum := rfl
    rw [hsum]
    by_cases hmax : maxChans < p.nchans + n
    · rw [if_pos hmax]
      exact .inr (.inl ⟨by omega, rfl⟩)
    rw [if_neg hmax]
    obtain ⟨hnot, hnd⟩ := List.nodup_cons.mp hnd
    have hb := h.bond (Nat.pos_of_ne_zero hn) (hnew subdev List.mem_cons_self)
    have hkeys : (p.bond minor subdev n).devs.map (·.key) =
        p.devs.map (·.key) ++ [(minor, subdev)] := List.map_append
    have hnc : (p.bond minor subdev n).nchans = p.nchans + n := rfl
    rcases ih hb (Nat.not_lt.mp hmax) hnd fun s hs => by
      rw [hkeys, List.mem_append, List.mem_singleton, not_or]
      exact ⟨hnew s (List.mem_cons_of_mem _ hs), fun he => hnot (by cases he; exact hs)⟩
      with hnone | ⟨hlt, herr⟩ | ⟨p', hok, hb', hsum', hle, hk⟩
    · exact .inl hnone
    · exact .inr (.inl ⟨by omega, herr⟩)
    · refine .inr (.inr ⟨p', hok, hb', by omega, hle, fun k hkm => ?_⟩)
      rcases hk k hkm with hold | hm
      · rw [hkeys, List.mem_append, List.mem_singleton] at hold
        rcases hold with hold | rfl
        · exact .inl hold
        · exact .inr rfl
      · exact .inr hm

theorem dioSubdevices_nodup (subs : List (Option Nat)) (k : Nat) :
    (((subs.zipIdx k).filterMap fun (nchans, subdev) => nchans.map (subdev, ·)).map (·.1)).Nodup ∧
      ∀ s ∈ ((subs.zipIdx k).filterMap fun (nchans, subdev) => nchans.map (subdev, ·)).map (·.1),
        k ≤ s := by
  induction subs generalizing k with
  | nil => exact ⟨List.nodup_nil, nofun⟩
  | cons s subs ih =>
    obtain ⟨hnd, hle⟩ := ih (k + 1)
    cases s with
    | none => exact ⟨hnd, fun s hs => Nat.le_of_succ_le (hle s hs)⟩
    | some n =>
      refine ⟨List.nodup_cons.mpr ⟨fun hk => ?_, hnd⟩, fun s hs => ?_⟩
      · exact Nat.not_succ_le_self k (hle k hk)
      · rcases List.mem_cons.mp hs with rfl | hs
        · exact le_rfl
        · exact Nat.le_of_succ_le (hle s hs)

theorem bondBoards_spec (self : Nat) (boards : Boards) (options : List Int) (opened : List Nat)
    (h : Bonded p) (hp : p.nchans ≤ maxChans)
    (hopen : ∀ k ∈ p.devs.map (·.key), k.1 ∈ opened) :
    bondBoards self boards options opened p = .ok none ∨
      (maxChans < p.nchans + (options.map (boardChannels boards)).sum ∧
        bondBoards self boards options opened p = .error .chanIdDevMap) ∨
      (∃ p', bondBoards self boards options opened p = .ok (some p') ∧ Bonded p' ∧
        p'.nchans = p.nchans + (options.map (boardChannels boards)).sum ∧
        p'.nchans ≤ maxChans) := by
  induction options generalizing p opened with
  | nil => exact .inr (.inr ⟨p, rfl, h, rfl, hp⟩)
  | cons option options ih =>
    have hsum : ((option :: options).map (boardChannels boards)).sum =
        boardChannels boards option + (options.map (boardChannels boards)).sum := rfl
    rw [hsum]
    unfold bondBoards
    dsimp only
    split
    · exact .inl rfl
    split
    · exact .inl rfl
    split
    · exact .inl rfl
    next hnew =>
    cases hb : boards option.toNat with
    | none => exact .inl rfl
    | some subdevices =>
      have hch : boardChannels boards option = ((dioSubdevices subdevices).map (·.2)).sum := by
        rw [boardChannels, hb]
      rw [hch]
      rcases bondSubdevices_spec option.toNat h hp (dioSubdevices_nodup subdevices 0).1
        fun s _ hk => hnew (hopen _ hk)
        with hnone | ⟨hlt, herr⟩ | ⟨p', hok, hb', hsum', hle, hk⟩
      · dsimp only
        rw [show bondSubdevices option.toNat (dioSubdevices subdevices) p = .ok none from hnone]
        exact .inl rfl
      · dsimp only
        rw [show bondSubdevices option.toNat (dioSubdevices subdevices) p = .error _ from herr]
        have hlt' : maxChans < p.nchans + ((dioSubdevices subdevices).map (·.2)).sum := hlt
        exact .inr (.inl ⟨by omega, rfl⟩)
      · dsimp only
        rw [show bondSubdevices option.toNat (dioSubdevices subdevices) p = .ok _ from hok]
        have hsum'' : p'.nchans = p.nchans + ((dioSubdevices subdevices).map (·.2)).sum := hsum'
        have hopen' : ∀ k ∈ p'.devs.map (·.key), k.1 ∈ option.toNat :: opened := fun k hkm => by
          rcases hk k hkm with hold | hm
          · exact List.mem_cons_of_mem _ (hopen k hold)
          · exact hm ▸ List.mem_cons_self
        rw [← Nat.add_assoc, ← hsum'']
        exact ih _ hb' hle hopen'

/-- The bond of an admitted list has a working map, or the map was overrun. -/
theorem doDevConfig_spec {self : Nat} {options : List Int} {boards : Boards}
    (h : doDevConfig self options boards ≠ .ok none) :
    (maxChans < total boards options ∧ doDevConfig self options boards = .error .chanIdDevMap) ∨
      ∃ p, doDevConfig self options boards = .ok (some p) ∧ Bonded p ∧
        p.nchans = total boards options ∧ p.nchans ≤ maxChans := by
  unfold doDevConfig at h ⊢
  rcases bondBoards_spec self boards (usedOptions options) [] bonded_empty (Nat.zero_le _) nofun
    with hnone | ⟨hlt, herr⟩ | ⟨p, hok, hb, hsum, hle⟩
  · rw [hnone] at h
    exact absurd rfl h
  · rw [herr]
    refine .inl ⟨?_, rfl⟩
    have hz : ({} : Private).nchans = 0 := rfl
    rw [hz, Nat.zero_add] at hlt
    exact hlt
  · rw [hok] at h ⊢
    have hz : ({} : Private).nchans = 0 := rfl
    rw [hz, Nat.zero_add] at hsum
    have hne : ¬ p.nchans = 0 := fun he => h (congrArg Except.ok (if_pos he))
    exact .inr ⟨p, congrArg Except.ok (if_neg hne), hb, hsum, hle⟩

/-- Every channel of the bond is routed to its line exactly if the map holds all the channels and
the instruction is one for which the layers agree on the base channel. -/
theorem routed_iff {self : Nat} {options : List Int} {boards : Boards}
    (h : doDevConfig self options boards ≠ .ok none) (hc : c < total boards options)
    (op : ChannelOp) :
    (∃ p, doDevConfig self options boards = .ok (some p) ∧ Routed p c op) ↔
      total boards options ≤ maxChans ∧ Direct (total boards options) c op := by
  rcases doDevConfig_spec h with ⟨hlt, herr⟩ | ⟨p, hok, hb, hsum, hle⟩
  · constructor
    · rintro ⟨p, hok, -⟩
      rw [herr] at hok
      cases hok
    · rintro ⟨hle, -⟩
      omega
  · rw [← hsum] at hc ⊢
    constructor
    · rintro ⟨p', hok', hr⟩
      rw [hok] at hok'
      cases hok'
      exact ⟨hle, direct_of_routed hb hc hr⟩
    · rintro ⟨-, hd⟩
      exact ⟨p, hok, routed_of_direct hb hc hd⟩

/-- The first two boards have 24 channels each. -/
def twoBoards : Boards
  | 0 | 1 => some [none, some 24]
  | _ => none

theorem routed_iff_two :
    ∃ p, doDevConfig 2 [0, 1] twoBoards = .ok (some p) ∧ Routed p 30 .read := by
  have hadmitted : doDevConfig 2 [0, 1] twoBoards ≠ .ok none := by
    intro h
    cases h
  exact (routed_iff hadmitted (by decide) .read).mpr
    ⟨by decide, (by decide : 30 < 32)⟩

/-- Channel 40 is on the second board, and reads as channel 0 of the first. -/
theorem channel_forty :
    doDevConfig 2 [0, 1] twoBoards ≠ .ok none ∧ 40 < total twoBoards [0, 1] ∧
      ¬ ∃ p, doDevConfig 2 [0, 1] twoBoards = .ok (some p) ∧ Routed p 40 .read := by
  have hadmitted : doDevConfig 2 [0, 1] twoBoards ≠ .ok none := by
    intro h
    cases h
  refine ⟨hadmitted, by decide, ?_⟩
  rintro ⟨p, hok, hr⟩
  rcases doDevConfig_spec hadmitted with ⟨-, herr⟩ | ⟨p', hok', hb, hsum, -⟩
  · rw [herr] at hok
    cases hok
  · rw [hok] at hok'
    cases hok'
    have hc : 40 < p.nchans := hsum ▸ (by decide : 40 < total twoBoards [0, 1])
    exact absurd (direct_of_routed hb hc hr) (by decide : ¬ 40 < 32)

end Comedi.BondedChannels
