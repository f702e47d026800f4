import Comedi.DataModel

namespace Comedi.Jr3Firmware

def enodata : Int := 61

def isxdigit (b : Byte) : Bool :=
  (0x30 ≤ b && b ≤ 0x39) || (0x41 ≤ b && b ≤ 0x46) || (0x61 ≤ b && b ≤ 0x66)

def tolower (b : Byte) : Byte := if 0x41 ≤ b ∧ b ≤ 0x5a then b + 0x20 else b

/-- The body of the second loop of `read_idm_word`. -/
def addDigit (val : U32) (b : Byte) : U32 :=
  let ch := tolower b
  if 0x30 ≤ ch ∧ ch ≤ 0x39 then (val <<< 4) + (ch - 0x30).setWidth 32
  else if 0x61 ≤ ch ∧ ch ≤ 0x66 then (val <<< 4) + (ch - 0x61 + 10).setWidth 32
  else val

/-- The value of the next word and the bytes behind it. The bytes are those from `*pos` on. -/
def readIdmWord (data : List Byte) : Option (U32 × List Byte) :=
  let data := data.dropWhile fun b => !isxdigit b
  let digits := data.takeWhile isxdigit
  if digits = [] then none else some (digits.foldl addDigit 0, data.dropWhile isxdigit)

variable {data data' rest rest' stop : List Byte} {val count addr : U32}

theorem readIdmWord_length (h : readIdmWord data = some (val, rest)) :
    rest.length < data.length := by
  unfold readIdmWord at h
  dsimp only at h
  split at h
  · cases h
  next hdigits =>
    cases h
    have hsplit := congrArg List.length
      (List.takeWhile_append_dropWhile (p := isxdigit) (l := data.dropWhile fun b => !isxdigit b))
    have hpos : 0 < ((data.dropWhile fun b => !isxdigit b).takeWhile isxdigit).length :=
      List.length_pos_of_ne_nil hdigits
    have hle : (data.dropWhile fun b => !isxdigit b).length ≤ data.length :=
      (List.dropWhile_suffix _).length_le
    rw [List.length_append] at hsplit
    omega

/-- `while (more && count > 0)` of the first pass. -/
def skipData (count : U32) (data : List Byte) : Option (List Byte) :=
  if 0 < count then
    match h : readIdmWord data with
    | none => none
    | some (_, rest) =>
      have := readIdmWord_length h
      skipData (count - 1) rest
  else some data
termination_by data.length

/-- A record, and the bytes from its beginning on. -/
structure Record where
  start : List Byte
  count : U32
  addr : U32
  deriving DecidableEq, Repr

/-- The index in `program_low` and in `program_high`, and the words that are stored there. -/
structure Write where
  addr : U32
  low : BitVec 16
  high : BitVec 16
  deriving DecidableEq, Repr

/-- What a pass over the bytes meets: the records, the bytes from the terminator on unless it gives
up before, and the writes. -/
structure Pass where
  records : List Record := []
  stop : Option (List Byte) := none
  writes : List Write := []
  deriving DecidableEq, Repr

def Pass.after (p : Pass) (r : Record) (writes : List Write) : Pass :=
  ⟨r :: p.records, p.stop, writes ++ p.writes⟩

theorem skipData_length (h : skipData count data = some rest) : rest.length ≤ data.length := by
  fun_induction skipData count data with
  | case1 => cases h
  | case2 count data hpos val next hnext _ ih =>
    have := readIdmWord_length hnext
    have := ih h
    omega
  | case3 =>
    cases h
    exact Nat.le_refl _

/-- The first loop of `jr3_download_firmware`. -/
def firstPass (data : List Byte) : Pass :=
  match hcount : readIdmWord data with
  | none => {}
  | some (count, data₁) =>
    if count = 0xffff then { stop := some data }
    else
      match haddr : readIdmWord data₁ with
      | none => {}
      | some (addr, data₂) =>
        match hdata : skipData count data₂ with
        | none => Pass.after {} ⟨data, count, addr⟩ []
        | some rest =>
          have := readIdmWord_length hcount
          have := readIdmWord_length haddr
          have := skipData_length hdata
          (firstPass rest).after ⟨data, count, addr⟩ []
termination_by data.length

/-- `while (more && count > 0)` of the second pass. -/
def loadData (count addr : U32) (data : List Byte) : Option (List Byte) × List Write :=
  if 0 < count then
    if addr &&& 0x4000 ≠ 0 then
      match h : readIdmWord data with
      | none => (none, [])
      | some (_, rest) =>
        have := readIdmWord_length h
        loadData (count - 1) (addr + 1) rest
    else
      match hlow : readIdmWord data with
      | none => (none, [])
      | some (data1, rest) =>
        match hhigh : readIdmWord rest with
        | none => (none, [])
        | some (data2, rest) =>
          have := readIdmWord_length hlow
          have := readIdmWord_length hhigh
          let loaded := loadData (count - 2) (addr + 1) rest
          (loaded.1, ⟨addr, data1.setWidth 16, data2.setWidth 16⟩ :: loaded.2)
  else (some data, [])
termination_by data.length

theorem loadData_length (h : (loadData count addr data).1 = some rest) :
    rest.length ≤ data.length := by
  fun_induction loadData count addr data with
  | case1 => cases h
  | case2 count addr data hpos hbit val next hnext _ ih =>
    have := readIdmWord_length hnext
    have := ih h
    omega
  | case3 => cases h
  | case4 => cases h
  | case5 count addr data hpos hbit data1 rest₁ hlow data2 rest₂ hhigh _ _ loaded ih =>
    have := readIdmWord_length hlow
    have := readIdmWord_length hhigh
    have := ih h
    omega
  | case6 =>
    cases h
    exact Nat.le_refl _

/-- The loop of `jr3_download_firmware` for one channel. -/
def secondPass (data : List Byte) : Pass :=
  match hcount : readIdmWord data with
  | none => {}
  | some (count, data₁) =>
    if count = 0xffff then { stop := some data }
    else
      match haddr : readIdmWord data₁ with
      | none => {}
      | some (addr, data₂) =>
        match hdata : (loadData count addr data₂).1 with
        | none => Pass.after {} ⟨data, count, addr⟩ (loadData count addr data₂).2
        | some rest =>
          have := readIdmWord_length hcount
          have := readIdmWord_length haddr
          have := loadData_length hdata
          (secondPass rest).after ⟨data, count, addr⟩ (loadData count addr data₂).2
termination_by data.length

/-- `jr3_download_firmware`: what it returns, and its pass for each channel. -/
def jr3DownloadFirmware (nChannels : Nat) (data : List Byte) : Int × List Pass :=
  if (firstPass data).stop = none then (-enodata, [])
  else (0, List.replicate nChannels (secondPass data))

/-- The second pass meets the records and the terminator of the first, and what it writes is inside
`program_low` and `program_high`. -/
structure Follows (first second : Pass) : Prop where
  records : second.records = first.records
  stop : second.stop = first.stop
  low : ∀ w ∈ second.writes, w.addr.toNat < 0x4000
  high : ∀ w ∈ second.writes, w.addr.toNat < 0x8000

/-- The record begins below 0x4000 and ends below 0x8000. Up to 0x4000 it has two words for an
address, and from there on one. -/
def FitsLow (count addr : Nat) : Prop :=
  addr < 0x4000 ∧ (count % 2 = 0 ∧ count ≤ 2 * (0x4000 - addr) ∨
    2 * (0x4000 - addr) ≤ count ∧ count ≤ 2 * (0x4000 - addr) + 0x4000)

/-- The record is empty, or it is as above, or it lies in an upper half of 0x8000 addresses, where
it may go on at address 0 behind the last one. -/
def Fits (count addr : Nat) : Prop :=
  count = 0 ∨ FitsLow count addr ∨
    0x4000 ≤ addr % 0x8000 ∧ (count ≤ 0x8000 - addr % 0x8000 ∨
      0xffffc000 ≤ addr ∧ FitsLow (count - (2 ^ 32 - addr)) 0)

instance (count addr : Nat) : Decidable (FitsLow count addr) := inferInstanceAs (Decidable (_ ∧ _))

instance (count addr : Nat) : Decidable (Fits count addr) := inferInstanceAs (Decidable (_ ∨ _))

theorem addr_bit (addr : U32) : addr &&& 0x4000 ≠ 0 ↔ 0x4000 ≤ addr.toNat % 0x8000 := by
  have hmask : addr &&& 0x4000 = if addr.getLsbD 14 then BitVec.twoPow 32 14 else 0#32 :=
    BitVec.and_twoPow addr 14
  have hbit : addr.getLsbD 14 = decide (addr.toNat / 2 ^ 14 % 2 = 1) :=
    Nat.testBit_eq_decide_div_mod_eq
  rw [hmask, hbit]
  by_cases hone : addr.toNat / 2 ^ 14 % 2 = 1
  · rw [decide_eq_true hone, if_pos rfl]
    exact iff_of_true (by decide) (by omega)
  · rw [decide_eq_false hone, if_neg Bool.false_ne_true]
    exact iff_of_false (fun h => h rfl) (by omega)

theorem next_toNat (addr : U32) : (addr + 1).toNat = (addr.toNat + 1) % 2 ^ 32 := BitVec.toNat_add ..

theorem fits_high {c a : Nat} (ha : a < 2 ^ 32) (hbit : 0x4000 ≤ a % 0x8000) :
    Fits (c + 1) a ↔ Fits c ((a + 1) % 2 ^ 32) := by
  unfold Fits FitsLow
  omega

theorem fits_low {c a : Nat} (ha : a < 0x4000) : Fits (c + 2) a ↔ Fits c (a + 1) := by
  unfold Fits FitsLow
  omega

theorem not_fits_one {a : Nat} (hbit : a % 0x8000 < 0x4000) : ¬ Fits 1 a := by
  unfold Fits FitsLow
  omega

theorem not_fits_beyond {c a : Nat} (ha : 0x4000 ≤ a) (hbit : a % 0x8000 < 0x4000) :
    ¬ Fits (c + 1) a := by
  unfold Fits FitsLow
  omega

theorem skipData_step (hpos : 0 < count) (h : readIdmWord data = some (val, data')) :
    skipData count data = skipData (count - 1) data' := by
  rw [skipData, if_pos hpos]
  split
  next hnone => rw [h] at hnone; cases hnone
  next hsome =>
    rw [h] at hsome
    cases hsome
    rfl

theorem skipData_none (hpos : 0 < count) (h : readIdmWord data = none) :
    skipData count data = none := by
  rw [skipData, if_pos hpos]
  split
  · rfl
  next hsome => rw [h] at hsome; cases hsome

theorem skipData_zero (hpos : ¬ 0 < count) : skipData count data = some data := by
  rw [skipData, if_neg hpos]

theorem pred_toNat (hpos : 0 < count) : count.toNat = (count - 1).toNat + 1 := by
  have hlt : 0 < count.toNat := hpos
  bv_omega

theorem pred_pred_toNat (hpos : 0 < count) (hone : count.toNat ≠ 1) :
    count.toNat = (count - 2).toNat + 2 ∧ 0 < count - 1 ∧ count - 1 - 1 = count - 2 := by
  have hlt : 0 < count.toNat := hpos
  refine ⟨by bv_omega, by bv_omega, by bv_omega⟩

/-- The second pass reads a record as the first one does and writes inside the program memory, just
if the record fits. -/
theorem loadData_follows_iff (h : skipData count data = some rest) :
    ((loadData count addr data).1 = some rest ∧
        ∀ w ∈ (loadData count addr data).2, w.addr.toNat < 0x4000) ↔
      Fits count.toNat addr.toNat := by
  have hnil : ∀ w ∈ ([] : List Write), w.addr.toNat < 0x4000 := nofun
  fun_induction loadData count addr data generalizing rest with
  | case1 count addr data hpos hbit hnone =>
    rw [skipData_none hpos hnone] at h
    cases h
  | case2 count addr data hpos hbit val next hnext _ ih =>
    rw [skipData_step hpos hnext] at h
    refine (ih h).trans ?_
    rw [pred_toNat hpos, next_toNat]
    exact (fits_high addr.isLt ((addr_bit addr).mp hbit)).symm
  | case3 count addr data hpos hbit hnone =>
    rw [skipData_none hpos hnone] at h
    cases h
  | case4 count addr data hpos hbit data1 rest₁ hlow hhigh =>
    rw [skipData_step hpos hlow] at h
    have hlast : ¬ 0 < count - 1 := by
      intro hmore
      rw [skipData_none hmore hhigh] at h
      cases h
    have hone : count.toNat = 1 := by
      have := pred_toNat hpos
      have hzero : ¬ 0 < (count - 1).toNat := hlast
      omega
    rw [hone]
    refine iff_of_false (fun hfollows => nomatch hfollows.1) (not_fits_one ?_)
    rw [addr_bit] at hbit
    omega
  | case5 count addr data hpos hbit data1 rest₁ hlow data2 rest₂ hhigh =>
    rename_i ih
    rw [addr_bit, not_le] at hbit
    rw [skipData_step hpos hlow] at h
    by_cases hone : count.toNat = 1
    · -- The second word is that of the next record, and the count goes on below zero.
      have hlast : ¬ 0 < count - 1 := by
        have := pred_toNat hpos
        intro hmore
        have hlt : 0 < (count - 1).toNat := hmore
        omega
      rw [skipData_zero hlast] at h
      cases h
      rw [hone]
      refine iff_of_false (fun hfollows => ?_) (not_fits_one hbit)
      have := loadData_length hfollows.1
      have := readIdmWord_length hhigh
      omega
    · obtain ⟨hcount, hmore, hsub⟩ := pred_pred_toNat hpos hone
      rw [skipData_step hmore hhigh, hsub] at h
      rw [hcount]
      by_cases haddr : addr.toNat < 0x4000
      · have hnext : (addr + 1).toNat = addr.toNat + 1 := by
          rw [next_toNat]
          omega
        rw [fits_low haddr, ← hnext]
        refine Iff.trans ?_ (ih h)
        simp only [List.mem_cons, forall_eq_or_imp, haddr, true_and]
        rfl
      · refine iff_of_false (fun hfollows => ?_) (not_fits_beyond (by omega) hbit)
        exact haddr (hfollows.2 _ (List.mem_cons_self ..))
  | case6 count addr data hzero =>
    rw [skipData_zero hzero] at h
    cases h
    have hcount : count.toNat = 0 := by
      have hle : ¬ 0 < count.toNat := hzero
      omega
    rw [hcount]
    exact iff_of_true ⟨rfl, hnil⟩ (.inl rfl)

/-- Where a pass begins its first record or ends. -/
def Pass.boundary (p : Pass) : Option (List Byte) :=
  match p.records with
  | [] => p.stop
  | r :: _ => some r.start

theorem firstPass_boundary (h : (firstPass data).stop = some stop) :
    (firstPass data).boundary = some data := by
  revert h
  fun_cases firstPass data with
  | case1 => exact nofun
  | case2 => exact fun _ => rfl
  | case3 => exact nofun
  | case4 => exact fun _ => rfl
  | case5 => exact fun _ => rfl

theorem secondPass_boundary (h : (secondPass data).stop = some stop) :
    (secondPass data).boundary = some data := by
  revert h
  fun_cases secondPass data with
  | case1 => exact nofun
  | case2 => exact fun _ => rfl
  | case3 => exact nofun
  | case4 => exact fun _ => rfl
  | case5 => exact fun _ => rfl

theorem Follows.boundary {first second : Pass} (h : Follows first second) :
    second.boundary = first.boundary := by
  unfold Pass.boundary
  rw [h.records, h.stop]

/-- The second pass gets to where the first one ends only if it began with it. -/
theorem Follows.start_eq (h : Follows (firstPass data) (secondPass data'))
    (hstop : (firstPass data).stop = some stop) : data' = data := by
  have hsecond := h.boundary
  rw [firstPass_boundary hstop, secondPass_boundary (h.stop.trans hstop)] at hsecond
  exact Option.some.inj hsecond

theorem secondPass_lost (hcount : readIdmWord data = some (count, data'))
    (hmore : count ≠ 0xffff) (haddr : readIdmWord data' = some (addr, rest))
    (hdata : (loadData count addr rest).1 = none) :
    secondPass data = Pass.after {} ⟨data, count, addr⟩ (loadData count addr rest).2 := by
  rw [secondPass]
  split
  next h => rw [hcount] at h; cases h
  next h =>
    rw [hcount] at h
    cases h
    rw [if_neg hmore]
    split
    next h => rw [haddr] at h; cases h
    next h =>
      rw [haddr] at h
      cases h
      split
      · rfl
      next h => rw [hdata] at h; cases h

theorem secondPass_next (hcount : readIdmWord data = some (count, data'))
    (hmore : count ≠ 0xffff) (haddr : readIdmWord data' = some (addr, rest))
    (hdata : (loadData count addr rest).1 = some rest') :
    secondPass data = (secondPass rest').after ⟨data, count, addr⟩ (loadData count addr rest).2 := by
  rw [secondPass]
  split
  next h => rw [hcount] at h; cases h
  next h =>
    rw [hcount] at h
    cases h
    rw [if_neg hmore]
    split
    next h => rw [haddr] at h; cases h
    next h =>
      rw [haddr] at h
      cases h
      split
      next h => rw [hdata] at h; cases h
      next h =>
        rw [hdata] at h
        cases h
        rfl

theorem follows_after {first second : Pass} {r : Record} {writes : List Write} :
    Follows (first.after r []) (second.after r writes) ↔
      Follows first second ∧ ∀ w ∈ writes, w.addr.toNat < 0x4000 := by
  constructor
  · intro h
    refine ⟨⟨(List.cons.inj h.records).2, h.stop, fun w hw => h.low w ?_, fun w hw => h.high w ?_⟩,
      fun w hw => h.low w (List.mem_append_left _ hw)⟩
    · exact List.mem_append_right _ hw
    · exact List.mem_append_right _ hw
  · rintro ⟨h, hwrites⟩
    have hlow : ∀ w ∈ writes ++ second.writes, w.addr.toNat < 0x4000 := by
      intro w hw
      rcases List.mem_append.mp hw with hw | hw
      · exact hwrites w hw
      · exact h.low w hw
    exact ⟨congrArg (r :: ·) h.records, h.stop, hlow, fun w hw => Nat.lt_trans (hlow w hw) (by decide)⟩

theorem secondPass_terminator (hcount : readIdmWord data = some (0xffff, rest)) :
    secondPass data = { stop := some data } := by
  rw [secondPass]
  split
  next h => rw [hcount] at h; cases h
  next h =>
    rw [hcount] at h
    cases h
    rfl

/-- If the first pass accepts the bytes, the second one follows it just if every record fits. -/
theorem secondPass_follows_iff (hstop : (firstPass data).stop = some stop) :
    Follows (firstPass data) (secondPass data) ↔
      ∀ r ∈ (firstPass data).records, Fits r.count.toNat r.addr.toNat := by
  fun_induction firstPass data with
  | case1 => cases hstop
  | case2 data data₁ hcount =>
    rw [secondPass_terminator hcount]
    exact iff_of_true ⟨rfl, rfl, nofun, nofun⟩ nofun
  | case3 => cases hstop
  | case4 => cases hstop
  | case5 data count data₁ hcount hmore addr data₂ haddr rest hskip _ _ _ ih =>
    change (firstPass rest).stop = some stop at hstop
    have hload := @loadData_follows_iff _ _ _ addr hskip
    by_cases hfits : Fits count.toNat addr.toNat
    · obtain ⟨hdata, hwrites⟩ := hload.mpr hfits
      rw [secondPass_next hcount hmore haddr hdata, follows_after, ih hstop]
      simp only [Pass.after, List.mem_cons, forall_eq_or_imp, hfits, true_and]
      exact and_iff_left hwrites
    · refine iff_of_false (fun h => ?_) (fun h => hfits (h _ (List.mem_cons_self ..)))
      cases hdata : (loadData count addr data₂).1 with
      | none =>
        rw [secondPass_lost hcount hmore haddr hdata, follows_after] at h
        cases h.1.stop.trans hstop
      | some rest' =>
        rw [secondPass_next hcount hmore haddr hdata, follows_after] at h
        rw [h.1.start_eq hstop] at hdata
        exact hfits (hload.mp ⟨hdata, h.2⟩)

/-- The pass for a channel follows the validation just if every record fits. -/
theorem download_follows_iff {nChannels : Nat} {second : Pass}
    (h : second ∈ (jr3DownloadFirmware nChannels data).2) :
    Follows (firstPass data) second ↔
      ∀ r ∈ (firstPass data).records, Fits r.count.toNat r.addr.toNat := by
  unfold jr3DownloadFirmware at h
  split at h
  · cases h
  next hok =>
    rw [List.eq_of_mem_replicate h]
    obtain ⟨stop, hstop⟩ := Option.ne_none_iff_exists'.mp hok
    exact secondPass_follows_iff hstop

/-- The bytes of "2 0 1a 2 ffff". -/
def goodFile : List Byte :=
  [0x32, 0x20, 0x30, 0x20, 0x31, 0x61, 0x20, 0x32, 0x20, 0x66, 0x66, 0x66, 0x66]

theorem download_follows_good :
    (jr3DownloadFirmware 1 goodFile).1 = 0 ∧
      Follows (firstPass goodFile) (secondPass goodFile) := by
  have hok : (firstPass goodFile).stop ≠ none := by decide +kernel
  have hmem : secondPass goodFile ∈ (jr3DownloadFirmware 1 goodFile).2 := by
    unfold jr3DownloadFirmware
    rw [if_neg hok]
    exact List.mem_cons_self ..
  refine ⟨?_, (download_follows_iff hmem).mpr ?_⟩
  · unfold jr3DownloadFirmware
    rw [if_neg hok]
  · decide +kernel

/-- The bytes of "1 0 5 ffff". -/
def oddFile : List Byte := [0x31, 0x20, 0x30, 0x20, 0x35, 0x20, 0x66, 0x66, 0x66, 0x66]

theorem odd_not_followed :
    (jr3DownloadFirmware 1 oddFile).1 = 0 ∧ (firstPass oddFile).stop ≠ none ∧
      (secondPass oddFile).stop = none ∧ (secondPass oddFile).writes = [⟨0, 5, 0xffff⟩] ∧
      ∃ second ∈ (jr3DownloadFirmware 1 oddFile).2, ¬ Follows (firstPass oddFile) second := by
  have hok : (firstPass oddFile).stop ≠ none := by decide +kernel
  have hlost : (secondPass oddFile).stop = none := by decide +kernel
  refine ⟨?_, hok, hlost, by decide +kernel, secondPass oddFile, ?_, ?_⟩
  · unfold jr3DownloadFirmware
    rw [if_neg hok]
  · unfold jr3DownloadFirmware
    rw [if_neg hok]
    exact List.mem_cons_self ..
  · exact fun h => hok (h.stop.symm.trans hlost)

end Comedi.Jr3Firmware
