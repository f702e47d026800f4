import Comedi.DataModel

namespace Comedi.Pcidas64Block

abbrev U16 := BitVec 16

/-- `hw_fifo_info_t`. -/
structure HwFifoInfo where
  numSegments : U32
  maxSegmentLength : U32
  samplePackingRatio : U32
  fifoSizeRegMask : U16

/-- The private data of the analog input FIFO, and what was last written to `FIFO_SIZE_REG`. -/
@[ext]
structure Dev where
  fifoSizeBits : U16
  aiFifoSegmentLength : U32
  fifoSizeReg : U16

def bytesInSample : U32 := 2

def incrementSize : U32 := 0x100

section Functions

variable (fifo : HwFifoInfo) (dev : Dev)

/-- What is returned is the new segment length as an `int`. -/
def setAiFifoSegmentLength (numEntries : U32) : Int × Dev :=
  let numEntries := if numEntries < incrementSize then incrementSize else numEntries
  let numEntries :=
    if fifo.maxSegmentLength < numEntries then fifo.maxSegmentLength else numEntries
  let numIncrements := (numEntries + incrementSize / 2) / incrementSize
  let bits := (~~~(numIncrements - 1)).setWidth 16 &&& fifo.fifoSizeRegMask
  let fifoSizeBits := (dev.fifoSizeBits &&& ~~~fifo.fifoSizeRegMask) ||| bits
  let length := numIncrements * incrementSize
  (length.toInt, ⟨fifoSizeBits, length, fifoSizeBits⟩)

/-- What is returned is the new size in samples as an `int`. -/
def setAiFifoSize (numSamples : U32) : Int × Dev :=
  let numFifoEntries := numSamples / fifo.samplePackingRatio
  let set := setAiFifoSegmentLength fifo dev (numFifoEntries / fifo.numSegments)
  if set.1 < 0 then set
  else
    ((BitVec.ofInt 32 set.1 * fifo.numSegments * fifo.samplePackingRatio).toInt, set.2)

def aiFifoSize : U32 := dev.aiFifoSegmentLength * fifo.numSegments * fifo.samplePackingRatio

/-- What is returned, and the word that is left in `data[1]`. -/
def aiConfigBlockSize (requestedBlockSize : U32) : Int × Dev × U32 :=
  let set :=
    if requestedBlockSize ≠ 0 then
      setAiFifoSize fifo dev (requestedBlockSize * fifo.numSegments / bytesInSample)
    else (0, dev)
  if set.1 < 0 then (set.1, set.2, requestedBlockSize)
  else (2, set.2, aiFifoSize fifo set.2 / fifo.numSegments * bytesInSample)

end Functions

/-- What the descriptions of the boards' FIFOs have in common. -/
structure Described (fifo : HwFifoInfo) : Prop where
  segments : 1 ≤ fifo.numSegments.toNat
  length_pos : 0 < fifo.maxSegmentLength.toNat
  length_dvd : 256 ∣ fifo.maxSegmentLength.toNat
  packing : 1 ≤ fifo.samplePackingRatio.toNat
  covers : ∀ k < fifo.maxSegmentLength.toNat / 256,
    k < 2 ^ 16 ∧ BitVec.ofNat 16 k &&& fifo.fifoSizeRegMask = BitVec.ofNat 16 k

/-- The segment length that the FIFO has by its register. -/
def decoded (fifo : HwFifoInfo) (register : U16) : Nat :=
  ((~~~register &&& fifo.fifoSizeRegMask).toNat + 1) * 256

/-- The segment lengths that the FIFO can have. -/
def Possible (fifo : HwFifoInfo) (length : Nat) : Prop :=
  256 ∣ length ∧ 256 ≤ length ∧ length ≤ fifo.maxSegmentLength.toNat

/-- The block of bytes that is moved for a segment length. -/
def blockSize (fifo : HwFifoInfo) (length : Nat) : Nat :=
  length * fifo.samplePackingRatio.toNat * 2

/-- The segment length is one whose block is closest to the request, and the register and the reply
have it. -/
structure Faithful (fifo : HwFifoInfo) (dev : Dev) (request : U32) (reply : Int × Dev × U32) :
    Prop where
  ret : reply.1 = 2
  possible : Possible fifo reply.2.1.aiFifoSegmentLength.toNat
  closest : ∀ length, Possible fifo length →
    ((blockSize fifo reply.2.1.aiFifoSegmentLength.toNat : Int) - request.toNat).natAbs ≤
      ((blockSize fifo length : Int) - request.toNat).natAbs
  reported : reply.2.2.toNat = blockSize fifo reply.2.1.aiFifoSegmentLength.toNat
  written : reply.2.1.fifoSizeReg = reply.2.1.fifoSizeBits
  decodes : decoded fifo reply.2.1.fifoSizeReg = reply.2.1.aiFifoSegmentLength.toNat
  others : reply.2.1.fifoSizeReg &&& ~~~fifo.fifoSizeRegMask =
    dev.fifoSizeBits &&& ~~~fifo.fifoSizeRegMask

/-- The entries that a segment is asked to have, to an increment within the limits. -/
def roundedLength (most entries : Nat) : Nat :=
  (min (max entries 256) most + 128) / 256 * 256

section Lengths

variable {most entries length d r : Nat}

theorem roundedLength_possible (hpos : 0 < most) (hdvd : 256 ∣ most) :
    256 ∣ roundedLength most entries ∧ 256 ≤ roundedLength most entries ∧
      roundedLength most entries ≤ most := by
  unfold roundedLength
  obtain ⟨k, rfl⟩ := hdvd
  refine ⟨Nat.dvd_mul_left _ _, ?_, ?_⟩ <;> omega

theorem roundedLength_mono {more : Nat} (h : entries ≤ more) :
    roundedLength most entries ≤ roundedLength most more := by
  unfold roundedLength
  have hclamp : min (max entries 256) most ≤ min (max more 256) most := by omega
  exact Nat.mul_le_mul_right _ (Nat.div_le_div_right (Nat.add_le_add_right hclamp _))

theorem roundedLength_self (h : 256 ∣ length) (hlo : 256 ≤ length) (hhi : length ≤ most) :
    roundedLength most length = length := by
  obtain ⟨k, rfl⟩ := h
  unfold roundedLength
  omega

/-- No possible length is closer to `entries` and a part of the next one. -/
theorem roundedLength_closest (hpos : 0 < most) (hdvd : 256 ∣ most) (hr : r < d)
    (hlength : 256 ∣ length) (hlo : 256 ≤ length) (hhi : length ≤ most) :
    ((d * roundedLength most entries : Nat) - (d * entries + r : Nat) : Int).natAbs ≤
      ((d * length : Nat) - (d * entries + r : Nat) : Int).natAbs := by
  have hrounded : 256 ∣ roundedLength most entries := (roundedLength_possible hpos hdvd).1
  rcases Nat.lt_trichotomy (roundedLength most entries) length with h | rfl | h
  · have hbelow : entries ≤ roundedLength most entries + 127 := by
      unfold roundedLength at h ⊢
      omega
    have hnext : roundedLength most entries + 256 ≤ length := by omega
    have hentries := Nat.mul_le_mul_left d hbelow
    have hmul := Nat.mul_le_mul_left d hnext
    rw [Nat.mul_add] at hentries hmul
    omega
  · exact le_refl _
  · have habove : roundedLength most entries ≤ entries + 128 := by
      unfold roundedLength at h ⊢
      omega
    have hnext : length + 256 ≤ roundedLength most entries := by omega
    have hentries := Nat.mul_le_mul_left d habove
    have hmul := Nat.mul_le_mul_left d hnext
    rw [Nat.mul_add] at hentries hmul
    omega

end Lengths

section Registers

variable {fifo : HwFifoInfo}

/-- The complement in the field of the register, read back through the mask. -/
theorem field_complement (bits mask field : U16) :
    ~~~((bits &&& ~~~mask) ||| (~~~field &&& mask)) &&& mask = field &&& mask := by
  ext i hi
  simp only [BitVec.getElem_and, BitVec.getElem_not, BitVec.getElem_or]
  cases bits[i] <;> cases mask[i] <;> cases field[i] <;> rfl

theorem field_others (bits mask field : U16) :
    ((bits &&& ~~~mask) ||| (field &&& mask)) &&& ~~~mask = bits &&& ~~~mask := by
  ext i hi
  simp only [BitVec.getElem_and, BitVec.getElem_not, BitVec.getElem_or]
  cases bits[i] <;> cases mask[i] <;> cases field[i] <;> rfl

/-- A register is its field and its other bits. -/
theorem register_ext {x y mask : U16} (hothers : x &&& ~~~mask = y &&& ~~~mask)
    (hfield : ~~~x &&& mask = ~~~y &&& mask) : x = y := by
  ext i hi
  have hothers' := congrArg (fun bits : U16 => bits[i]) hothers
  have hfield' := congrArg (fun bits : U16 => bits[i]) hfield
  simp only [BitVec.getElem_and, BitVec.getElem_not] at hothers' hfield'
  revert hothers' hfield'
  cases x[i] <;> cases y[i] <;> cases mask[i] <;> decide

theorem setWidth_not (x : U32) : (~~~x).setWidth 16 = ~~~(x.setWidth 16 : U16) := by
  ext i hi
  rw [BitVec.getElem_setWidth, BitVec.getElem_not, BitVec.getElem_setWidth, BitVec.getLsbD_not]
  simp [show i < 32 by omega]

theorem register_decodes (hfifo : Described fifo) (bits : U16) {increments : U32}
    (h : 1 ≤ increments.toNat)
    (hmost : increments.toNat * 256 ≤ fifo.maxSegmentLength.toNat) :
    decoded fifo ((bits &&& ~~~fifo.fifoSizeRegMask) |||
      ((~~~(increments - 1)).setWidth 16 &&& fifo.fifoSizeRegMask)) = increments.toNat * 256 := by
  have hone : (1 : U32).toNat = 1 := rfl
  have hless : (increments - 1).toNat = increments.toNat - 1 := by
    rw [BitVec.toNat_sub_of_le (BitVec.le_def.mpr (by rw [hone]; exact h)), hone]
  obtain ⟨hlt, hmask⟩ := hfifo.covers (increments.toNat - 1) (by omega)
  have hfield : (increments - 1).setWidth 16 = BitVec.ofNat 16 (increments.toNat - 1) := by
    apply BitVec.eq_of_toNat_eq
    rw [BitVec.toNat_setWidth, hless, BitVec.toNat_ofNat]
  unfold decoded
  rw [setWidth_not, field_complement, hfield, hmask, BitVec.toNat_ofNat, Nat.mod_eq_of_lt hlt,
    Nat.sub_add_cancel h]

end Registers

section Sizes

variable {fifo : HwFifoInfo} {dev : Dev} {entries request : U32}

theorem clamped_toNat (least most x : U32) :
    (if most < (if x < least then least else x) then most else if x < least then least else x).toNat
      = min (max x.toNat least.toNat) most.toNat := by
  have hleast : (if x < least then least else x).toNat = max x.toNat least.toNat := by
    split
    next h => exact (max_eq_right (BitVec.lt_def.mp h).le).symm
    next h => exact (max_eq_left (BitVec.le_def.mp (BitVec.not_lt.mp h))).symm
  rw [← hleast]
  generalize (if x < least then least else x) = low
  split
  next h => exact (min_eq_right (BitVec.lt_def.mp h).le).symm
  next h => exact (min_eq_left (BitVec.le_def.mp (BitVec.not_lt.mp h))).symm

/-- What `set_ai_fifo_segment_length` makes of a number of entries. -/
structure SegmentSet (fifo : HwFifoInfo) (dev : Dev) (entries : U32) (set : Int × Dev) : Prop where
  ret : set.1 = set.2.aiFifoSegmentLength.toInt
  length : set.2.aiFifoSegmentLength.toNat =
    roundedLength fifo.maxSegmentLength.toNat entries.toNat
  written : set.2.fifoSizeReg = set.2.fifoSizeBits
  decodes : decoded fifo set.2.fifoSizeReg = set.2.aiFifoSegmentLength.toNat
  others : set.2.fifoSizeReg &&& ~~~fifo.fifoSizeRegMask =
    dev.fifoSizeBits &&& ~~~fifo.fifoSizeRegMask

theorem segmentSet (hfifo : Described fifo) (dev : Dev) (entries : U32) :
    SegmentSet fifo dev entries (setAiFifoSegmentLength fifo dev entries) := by
  obtain ⟨hdvd, hlo, hhi⟩ :=
    @roundedLength_possible fifo.maxSegmentLength.toNat entries.toNat hfifo.length_pos
      hfifo.length_dvd
  have hmost := fifo.maxSegmentLength.isLt
  have hincrement : incrementSize.toNat = 256 := rfl
  have hhalf : (incrementSize / 2).toNat = 128 := rfl
  have hclamped := clamped_toNat incrementSize fifo.maxSegmentLength entries
  rw [hincrement] at hclamped
  unfold setAiFifoSegmentLength
  dsimp only
  generalize (if fifo.maxSegmentLength < (if entries < incrementSize then incrementSize else
    entries) then fifo.maxSegmentLength else if entries < incrementSize then incrementSize else
    entries) = clamped at hclamped ⊢
  have hincrements : ((clamped + incrementSize / 2) / incrementSize).toNat * 256 =
      roundedLength fifo.maxSegmentLength.toNat entries.toNat := by
    unfold roundedLength
    rw [BitVec.toNat_udiv, BitVec.toNat_add, hhalf, hincrement, hclamped]
    have hdvd' := hfifo.length_dvd
    rw [Nat.mod_eq_of_lt (by omega)]
  generalize (clamped + incrementSize / 2) / incrementSize = increments at hincrements ⊢
  have hlength : (increments * incrementSize).toNat = increments.toNat * 256 := by
    rw [BitVec.toNat_mul, hincrement, Nat.mod_eq_of_lt (by omega)]
  refine ⟨rfl, hlength.trans hincrements, rfl, ?_, ?_⟩
  · rw [hlength]
    exact register_decodes hfifo _ (by omega) (by omega)
  · exact field_others _ _ _

/-- The whole FIFO in samples is an `int`. -/
def Fits (fifo : HwFifoInfo) : Prop :=
  fifo.maxSegmentLength.toNat * fifo.numSegments.toNat * fifo.samplePackingRatio.toNat < 2 ^ 31

instance (fifo : HwFifoInfo) : Decidable (Fits fifo) := inferInstanceAs (Decidable (_ < _))

/-- The entries of a segment that a block is asked to fill. -/
def askedEntries (fifo : HwFifoInfo) (request : U32) : Nat :=
  request.toNat / (2 * fifo.samplePackingRatio.toNat)

theorem entries_toNat (hfifo : Described fifo)
    (hrequest : request.toNat * fifo.numSegments.toNat < 2 ^ 32) :
    (request * fifo.numSegments / bytesInSample / fifo.samplePackingRatio /
      fifo.numSegments).toNat = askedEntries fifo request := by
  have htwo : bytesInSample.toNat = 2 := rfl
  rw [BitVec.toNat_udiv, BitVec.toNat_udiv, BitVec.toNat_udiv, BitVec.toNat_mul, htwo,
    Nat.mod_eq_of_lt hrequest, Nat.div_div_eq_div_mul, Nat.div_div_eq_div_mul, ← Nat.mul_assoc]
  exact Nat.mul_div_mul_right _ _ hfifo.segments

theorem toInt_of_lt {x : U32} (h : x.toNat < 2 ^ 31) : ¬ x.toInt < 0 := by
  rw [BitVec.toInt_eq_toNat_of_lt (by omega)]
  omega

theorem fifo_size (hfits : Fits fifo) {length : U32}
    (h : length.toNat ≤ fifo.maxSegmentLength.toNat) :
    (length * fifo.numSegments * fifo.samplePackingRatio).toNat =
      length.toNat * fifo.numSegments.toNat * fifo.samplePackingRatio.toNat ∧
    length.toNat * fifo.numSegments.toNat * fifo.samplePackingRatio.toNat < 2 ^ 31 := by
  have hle : length.toNat * fifo.numSegments.toNat * fifo.samplePackingRatio.toNat <  2 ^ 31 :=
    lt_of_le_of_lt (Nat.mul_le_mul_right _ (Nat.mul_le_mul_right _ h)) hfits
  refine ⟨?_, hle⟩
  rw [BitVec.toNat_mul, BitVec.toNat_mul, Nat.mod_mul_mod, Nat.mod_eq_of_lt (by omega)]

/-- The block that is reported for a segment length. -/
theorem reported_block (hfifo : Described fifo) (hfits : Fits fifo) {length : U32}
    (h : length.toNat ≤ fifo.maxSegmentLength.toNat) :
    (length * fifo.numSegments * fifo.samplePackingRatio / fifo.numSegments *
      bytesInSample).toNat = blockSize fifo length.toNat := by
  obtain ⟨hsize, hlt⟩ := fifo_size hfits h
  have htwo : bytesInSample.toNat = 2 := rfl
  have hone := hfifo.segments
  have hblock : length.toNat * fifo.numSegments.toNat * fifo.samplePackingRatio.toNat /
      fifo.numSegments.toNat = length.toNat * fifo.samplePackingRatio.toNat := by
    rw [Nat.mul_right_comm]
    exact Nat.mul_div_cancel _ hone
  have hle : length.toNat * fifo.samplePackingRatio.toNat ≤
      length.toNat * fifo.numSegments.toNat * fifo.samplePackingRatio.toNat := by
    rw [Nat.mul_right_comm]
    exact Nat.le_mul_of_pos_right _ hone
  rw [BitVec.toNat_mul, BitVec.toNat_udiv, hsize, hblock, htwo, Nat.mod_eq_of_lt (by omega),
    blockSize]

/-- A request sets the segments and reports their block. -/
theorem aiConfigBlockSize_eq (hfifo : Described fifo) (hfits : Fits fifo) (dev : Dev)
    (hpos : request ≠ 0) {set : Int × Dev}
    (hset : SegmentSet fifo dev (request * fifo.numSegments / bytesInSample /
      fifo.samplePackingRatio / fifo.numSegments) set)
    (heq : setAiFifoSegmentLength fifo dev (request * fifo.numSegments / bytesInSample /
      fifo.samplePackingRatio / fifo.numSegments) = set) :
    aiConfigBlockSize fifo dev request =
      (2, set.2, aiFifoSize fifo set.2 / fifo.numSegments * bytesInSample) := by
  have hlength : set.2.aiFifoSegmentLength.toNat ≤ fifo.maxSegmentLength.toNat := by
    rw [hset.length]
    exact (roundedLength_possible hfifo.length_pos hfifo.length_dvd).2.2
  obtain ⟨hsize, hlt⟩ := fifo_size hfits hlength
  have hsmall : set.2.aiFifoSegmentLength.toNat < 2 ^ 31 := by
    refine lt_of_le_of_lt ?_ hlt
    rw [Nat.mul_assoc]
    exact Nat.le_mul_of_pos_right _ (Nat.mul_pos hfifo.segments hfifo.packing)
  have hsegment : ¬ set.1 < 0 := by
    rw [hset.ret]
    exact toInt_of_lt hsmall
  have hsamples : ¬ (BitVec.ofInt 32 set.1 * fifo.numSegments *
      fifo.samplePackingRatio).toInt < 0 := by
    rw [hset.ret, BitVec.ofInt_toInt]
    exact toInt_of_lt (by rw [hsize]; exact hlt)
  unfold aiConfigBlockSize setAiFifoSize
  dsimp only
  rw [if_pos hpos, heq, if_neg hsegment]
  dsimp only
  rw [if_neg hsamples]

/-- The segment length that a request sets. -/
def setLength (fifo : HwFifoInfo) (dev : Dev) (request : U32) : Nat :=
  (aiConfigBlockSize fifo dev request).2.1.aiFifoSegmentLength.toNat

end Sizes

section Requests

variable {fifo : HwFifoInfo}

theorem faithful (hfifo : Described fifo) (hfits : Fits fifo) (dev : Dev) {request : U32}
    (hpos : request ≠ 0) (hrequest : request.toNat * fifo.numSegments.toNat < 2 ^ 32) :
    Faithful fifo dev request (aiConfigBlockSize fifo dev request) ∧
      setLength fifo dev request =
        roundedLength fifo.maxSegmentLength.toNat (askedEntries fifo request) := by
  obtain ⟨set, heq⟩ : ∃ set, setAiFifoSegmentLength fifo dev (request * fifo.numSegments /
      bytesInSample / fifo.samplePackingRatio / fifo.numSegments) = set := ⟨_, rfl⟩
  have hset := segmentSet hfifo dev (request * fifo.numSegments / bytesInSample /
    fifo.samplePackingRatio / fifo.numSegments)
  rw [heq] at hset
  obtain ⟨-, hlength, hwritten, hdecodes, hothers⟩ := id hset
  rw [entries_toNat hfifo hrequest] at hlength
  obtain ⟨hdvd, hlo, hhi⟩ := @roundedLength_possible fifo.maxSegmentLength.toNat
    (askedEntries fifo request) hfifo.length_pos hfifo.length_dvd
  unfold setLength
  rw [aiConfigBlockSize_eq hfifo hfits dev hpos hset heq]
  refine ⟨⟨rfl, ?_, ?_, ?_, hwritten, hdecodes, hothers⟩, hlength⟩
  · dsimp only
    rw [hlength]
    exact ⟨hdvd, hlo, hhi⟩
  · rintro length ⟨hdvd', hlo', hhi'⟩
    dsimp only
    rw [hlength]
    have hsplit := Nat.div_add_mod request.toNat (2 * fifo.samplePackingRatio.toNat)
    have hrest := Nat.mod_lt request.toNat
      (show 0 < 2 * fifo.samplePackingRatio.toNat by have := hfifo.packing; omega)
    have hclosest := @roundedLength_closest fifo.maxSegmentLength.toNat
      (askedEntries fifo request) length (2 * fifo.samplePackingRatio.toNat) _
      hfifo.length_pos hfifo.length_dvd hrest hdvd' hlo' hhi'
    unfold askedEntries at hclosest ⊢
    rw [hsplit] at hclosest
    unfold blockSize
    rw [Nat.mul_assoc, Nat.mul_assoc, Nat.mul_comm fifo.samplePackingRatio.toNat 2,
      Nat.mul_comm _ (2 * fifo.samplePackingRatio.toNat),
      Nat.mul_comm length (2 * fifo.samplePackingRatio.toNat)]
    exact hclosest
  · dsimp only
    exact reported_block hfifo hfits (by rw [hlength]; exact hhi)

/-- The reported size, requested again, changes nothing. -/
theorem requested_again (hfifo : Described fifo) (hfits : Fits fifo) (dev : Dev) {request : U32}
    (hpos : request ≠ 0) (hrequest : request.toNat * fifo.numSegments.toNat < 2 ^ 32) :
    aiConfigBlockSize fifo (aiConfigBlockSize fifo dev request).2.1
      (aiConfigBlockSize fifo dev request).2.2 = aiConfigBlockSize fifo dev request := by
  have hfirst := (faithful hfifo hfits dev hpos hrequest).1
  generalize aiConfigBlockSize fifo dev request = first at hfirst ⊢
  obtain ⟨hdvd, hlo, hhi⟩ := hfirst.possible
  have hpacking := hfifo.packing
  have hreported := hfirst.reported
  unfold blockSize at hreported
  have hpos' : first.2.2 ≠ 0 := by
    intro hzero
    rw [hzero] at hreported
    have hblock := Nat.mul_pos (show 0 < first.2.1.aiFifoSegmentLength.toNat by omega) hpacking
    change 0 = _ at hreported
    omega
  have hrequest' : first.2.2.toNat * fifo.numSegments.toNat < 2 ^ 32 := by
    have hlt := (fifo_size hfits hhi).2
    rw [Nat.mul_right_comm] at hlt
    rw [hreported, Nat.mul_right_comm]
    omega
  have hasked : askedEntries fifo first.2.2 = first.2.1.aiFifoSegmentLength.toNat := by
    unfold askedEntries
    rw [hreported, Nat.mul_assoc, Nat.mul_comm _ 2]
    exact Nat.mul_div_cancel _ (Nat.mul_pos (by decide) hpacking)
  obtain ⟨hsecond, hlength⟩ := faithful hfifo hfits first.2.1 hpos' hrequest'
  unfold setLength at hlength
  rw [hasked, roundedLength_self hdvd hlo hhi] at hlength
  generalize aiConfigBlockSize fifo first.2.1 first.2.2 = second at hsecond hlength ⊢
  have hreg : second.2.1.fifoSizeReg = first.2.1.fifoSizeReg := by
    refine register_ext (hsecond.others.trans (by rw [hfirst.written])) ?_
    have hdecodes := hsecond.decodes.trans (hlength.trans hfirst.decodes.symm)
    unfold decoded at hdecodes
    exact BitVec.eq_of_toNat_eq (by omega)
  have hdev : second.2.1 = first.2.1 :=
    Dev.ext (hsecond.written.symm.trans (hreg.trans hfirst.written))
      (BitVec.eq_of_toNat_eq hlength) hreg
  have hword : second.2.2 = first.2.2 :=
    BitVec.eq_of_toNat_eq (hsecond.reported.trans (by rw [hdev, hfirst.reported]))
  exact Prod.ext (hsecond.ret.trans hfirst.ret.symm) (Prod.ext hdev hword)

theorem setLength_mono (hfifo : Described fifo) (hfits : Fits fifo) (dev : Dev)
    {request more : U32} (hpos : request ≠ 0) (hle : request ≤ more)
    (hmore : more.toNat * fifo.numSegments.toNat < 2 ^ 32) :
    setLength fifo dev request ≤ setLength fifo dev more := by
  have hle' := BitVec.le_def.mp hle
  have hnone : more ≠ 0 := by
    rintro rfl
    exact hpos (BitVec.eq_of_toNat_eq (Nat.le_zero.mp hle'))
  have hrequest : request.toNat * fifo.numSegments.toNat < 2 ^ 32 :=
    lt_of_le_of_lt (Nat.mul_le_mul_right _ hle') hmore
  rw [(faithful hfifo hfits dev hpos hrequest).2, (faithful hfifo hfits dev hnone hmore).2]
  exact roundedLength_mono (Nat.div_le_div_right hle')

/-- A request other than 0, small enough for all segments together, sets a closest possible block;
0 asks for the block that is set. -/
theorem block_size (hfifo : Described fifo) (hfits : Fits fifo) (dev : Dev) :
    ((aiConfigBlockSize fifo dev 0).1 = 2 ∧ (aiConfigBlockSize fifo dev 0).2.1 = dev ∧
      (dev.aiFifoSegmentLength.toNat ≤ fifo.maxSegmentLength.toNat →
        (aiConfigBlockSize fifo dev 0).2.2.toNat =
          blockSize fifo dev.aiFifoSegmentLength.toNat)) ∧
    (∀ request, request ≠ 0 → request.toNat * fifo.numSegments.toNat < 2 ^ 32 →
      Faithful fifo dev request (aiConfigBlockSize fifo dev request) ∧
      aiConfigBlockSize fifo (aiConfigBlockSize fifo dev request).2.1
        (aiConfigBlockSize fifo dev request).2.2 = aiConfigBlockSize fifo dev request ∧
      ∀ less, less ≠ 0 → less ≤ request →
        setLength fifo dev less ≤ setLength fifo dev request) := by
  refine ⟨⟨rfl, rfl, fun h => reported_block hfifo hfits h⟩, fun request hpos hrequest => ?_⟩
  exact ⟨(faithful hfifo hfits dev hpos hrequest).1, requested_again hfifo hfits dev hpos hrequest,
    fun less hless hle => setLength_mono hfifo hfits dev hless hle hrequest⟩

end Requests

section Boards

def aiFifo4020 : HwFifoInfo := ⟨2, 0x8000, 2, 0x7f⟩

def aiFifo64xx : HwFifoInfo := ⟨4, 0x800, 1, 0x3f⟩

def aiFifo60xx : HwFifoInfo := ⟨4, 0x800, 1, 0x7f⟩

theorem described_boards : ∀ fifo ∈ [aiFifo4020, aiFifo64xx, aiFifo60xx],
    Described fifo ∧ Fits fifo := by
  intro fifo h
  rcases List.mem_cons.mp h with rfl | h
  · exact ⟨⟨by decide, by decide, by decide, by decide, by decide +kernel⟩, by decide⟩
  rcases List.mem_cons.mp h with rfl | h
  · exact ⟨⟨by decide, by decide, by decide, by decide, by decide⟩, by decide⟩
  · rw [List.mem_singleton.mp h]
    exact ⟨⟨by decide, by decide, by decide, by decide, by decide⟩, by decide⟩

def attached64xx : Dev := ⟨0xffc0, 0x800, 0xffc0⟩

theorem block_size_64xx :
    Faithful aiFifo64xx attached64xx 1000 (aiConfigBlockSize aiFifo64xx attached64xx 1000) := by
  obtain ⟨hfifo, hfits⟩ :=
    described_boards aiFifo64xx (List.mem_cons_of_mem _ List.mem_cons_self)
  exact ((block_size hfifo hfits attached64xx).2 1000 (by decide) (by decide)).1

/-- A request of 0 sets no length, and one that overflows sets the shortest. -/
theorem block_size_not_set :
    ¬ Faithful aiFifo64xx attached64xx 0 (aiConfigBlockSize aiFifo64xx attached64xx 0) ∧
      setLength aiFifo64xx attached64xx 0x40000000 = 256 ∧
      ¬ Faithful aiFifo64xx attached64xx 0x40000000
        (aiConfigBlockSize aiFifo64xx attached64xx 0x40000000) := by
  refine ⟨fun h => ?_, by decide, fun h => ?_⟩
  · have hclosest := h.closest 256 ⟨by decide, by decide, by decide⟩
    revert hclosest
    decide
  · have hclosest := h.closest 2048 ⟨by decide, by decide, by decide⟩
    revert hclosest
    decide

end Boards

end Comedi.Pcidas64Block
