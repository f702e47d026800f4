import Comedi.Instructions

namespace Comedi.StaleWords

open ChanlistCheck RunState Instructions Function

/-- The words of the buffer that an accepted instruction stores by itself. -/
def storedWord (dev : Device) (req : InsnReq) (p : Nat) : Bool :=
  if req.insn.insn = insnGtod then p < 2
  else
    match dev.subdevices[req.insn.subdev.toNat]? with
    | none => false
    | some s =>
      if req.insn.insn = insnRead then
        match s.insnRead with
        | .driver => (req.answer.words p).isSome
        | .emulateBits => p = 0 ∧ req.insn.n ≠ 0
        | .inval => false
      else if req.insn.insn = insnWrite then
        match s.insnWrite with
        | .driver => (req.answer.words p).isSome
        | _ => false
      else if req.insn.insn = insnBits then p < 2 ∨ (req.answer.words p).isSome
      else if req.insn.insn = insnConfig then (req.answer.words p).isSome
      else false

/-- Two runs of one instruction on buffers `d` and `d'` return the same, and if they are
accepted they store the same words and leave the others alone. -/
structure Alike (stored : Nat → Bool) (d d' : Nat → U32) (ret ret' : Int) (out out' : Nat → U32) :
    Prop where
  ret_eq : ret = ret'
  data_eq : 0 ≤ ret → ∀ p, if stored p then out p = out' p else out p = d p ∧ out' p = d' p

theorem Alike.refused {stored : Nat → Bool} {d d' out out' : Nat → U32} {ret : Int} (h : ret < 0) :
    Alike stored d d' ret ret out out' :=
  ⟨rfl, fun hr => absurd hr (by omega)⟩

theorem Alike.kept {stored : Nat → Bool} (h : ∀ p, stored p = false) (d d' : Nat → U32) (ret : Int) :
    Alike stored d d' ret ret d d' :=
  ⟨rfl, fun _ p => by simp [h p]⟩

theorem Alike.store {stored : Nat → Bool} {words : Nat → Option U32}
    (h : ∀ p, stored p = (words p).isSome) (d d' : Nat → U32) (ret : Int) :
    Alike stored d d' ret ret (store words d) (store words d') := by
  refine ⟨rfl, fun _ p => ?_⟩
  rw [h p]
  unfold Instructions.store
  cases words p with
  | none => simp
  | some w => simp

theorem einval_neg : -einval < 0 := by decide

variable {dev : Device} {req : InsnReq} {file : File} {d d' : Nat → U32}

/-- The words that a write instruction finds are the user's. -/
def SameInput (req : InsnReq) (d d' : Nat → U32) : Prop :=
  asksWrite req.insn → ∀ p < req.insn.n.toNat, d p = d' p

theorem emulateBits_read (s : Subdevice) (hi : req.insn.insn = insnRead) :
    Alike (fun p => p = 0 ∧ req.insn.n ≠ 0) d d' (insnRwEmulateBits s req.insn req.answer d).1
      (insnRwEmulateBits s req.insn req.answer d').1
      (insnRwEmulateBits s req.insn req.answer d).2.1
      (insnRwEmulateBits s req.insn req.answer d').2.1 := by
  have hne : ¬ (insnRead = insnWrite ∧ s.subdevFlags &&& sdfWritable = 0) := fun h =>
    absurd h.1 (by decide)
  have hw : ¬ insnRead = insnWrite := by decide
  unfold insnRwEmulateBits
  simp only [hi, if_neg hne, if_neg hw, if_true]
  by_cases hn : req.insn.n = 0
  · simp only [if_pos hn]
    exact .kept (fun p => by simp [hn]) d d' 0
  · simp only [if_neg hn]
    split
    · split
      · next hr => exact .refused hr
      · refine ⟨rfl, fun _ p => ?_⟩
        by_cases hp : p = 0
        · rw [hp, if_pos (decide_eq_true ⟨rfl, hn⟩)]
          simp only [update_self]
        · rw [if_neg (by simp [hp])]
          exact ⟨update_of_ne hp _ _, update_of_ne hp _ _⟩
    · exact .refused einval_neg

theorem emulateBits_write (s : Subdevice) (hi : req.insn.insn = insnWrite) :
    Alike (fun _ => false) d d' (insnRwEmulateBits s req.insn req.answer d).1
      (insnRwEmulateBits s req.insn req.answer d').1
      (insnRwEmulateBits s req.insn req.answer d).2.1
      (insnRwEmulateBits s req.insn req.answer d').2.1 := by
  have hr : ¬ insnWrite = insnRead := by decide
  unfold insnRwEmulateBits
  simp only [hi, if_neg hr]
  split
  · exact .refused einval_neg
  · split
    · exact .kept (fun _ => rfl) d d' 0
    · split
      · split
        · next hneg => exact .refused hneg
        · exact .kept (fun _ => rfl) d d' 1
      · exact .refused einval_neg

theorem shiftIn_of_two_le (shift : Nat) (d : Nat → U32) {p : Nat} (hp : 2 ≤ p) :
    shiftIn shift d p = d p := by
  unfold shiftIn
  split
  · rw [update_of_ne (by omega), update_of_ne (by omega)]
  · rfl

theorem shiftOut_of_ne (shift : Nat) (d : Nat → U32) {p : Nat} (hp : p ≠ 1) :
    shiftOut shift d p = d p := by
  unfold shiftOut
  split
  · rw [update_of_ne hp]
  · rfl

theorem bitsInsn_alike (s : Subdevice) (hi : req.insn.insn = insnBits) (h : SameInput req d d') :
    Alike (fun p => p < 2 ∨ (req.answer.words p).isSome) d d' (bitsInsn s req d).1
      (bitsInsn s req d').1 (bitsInsn s req d).2.1 (bitsInsn s req d').2.1 := by
  have hask : asksWrite req.insn := by rw [asksWrite, hi]; decide
  unfold bitsInsn
  by_cases hn : req.insn.n = 2
  swap
  · simp only [ne_eq, hn, not_false_eq_true, if_true]
    exact .refused einval_neg
  have hn2 : req.insn.n.toNat = 2 := by rw [hn]; rfl
  have h0 : d 0 = d' 0 := h hask 0 (by omega)
  have h1 : d 1 = d' 1 := h hask 1 (by omega)
  simp only [ne_eq, hn, not_true_eq_false, if_false]
  unfold callBits
  split
  · refine ⟨rfl, fun _ p => ?_⟩
    rcases p with _ | _ | p
    · simp [shiftOut_of_ne, h0]
    · have hin : shiftIn (bitShift s req.insn) d 1 = shiftIn (bitShift s req.insn) d' 1 := by
        unfold shiftIn
        split <;> simp [h1]
      have hst : store req.answer.words (shiftIn (bitShift s req.insn) d) 1 =
          store req.answer.words (shiftIn (bitShift s req.insn) d') 1 := by
        rw [Instructions.store, Instructions.store, hin]
      rw [if_pos (by simp)]
      unfold shiftOut
      split <;> simp [hst]
    · have hp : ∀ e x, shiftOut (bitShift s req.insn) (update e 0 x) (p + 2) = e (p + 2) := by
        intro e x
        rw [shiftOut_of_ne _ _ (by omega), update_of_ne (by omega)]
      cases hw : req.answer.words (p + 2) with
      | none => simp [hw, hp, Instructions.store, shiftIn_of_two_le]
      | some w => simp [hw, hp, Instructions.store]
  · exact .refused einval_neg

theorem callRw_read (s : Subdevice) (hi : req.insn.insn = insnRead) :
    Alike (fun p =>
        match s.insnRead with
        | .driver => (req.answer.words p).isSome
        | .emulateBits => p = 0 ∧ req.insn.n ≠ 0
        | .inval => false) d d'
      (callRw s.insnRead .insnRead s req.insn req.answer d).1
      (callRw s.insnRead .insnRead s req.insn req.answer d').1
      (callRw s.insnRead .insnRead s req.insn req.answer d).2.1
      (callRw s.insnRead .insnRead s req.insn req.answer d').2.1 := by
  cases hs : s.insnRead with
  | driver => exact .store (fun _ => rfl) d d' _
  | emulateBits => exact emulateBits_read s hi
  | inval => exact .refused einval_neg

theorem callRw_write (s : Subdevice) (hi : req.insn.insn = insnWrite) :
    Alike (fun p =>
        match s.insnWrite with
        | .driver => (req.answer.words p).isSome
        | _ => false) d d'
      (callRw s.insnWrite .insnWrite s req.insn req.answer d).1
      (callRw s.insnWrite .insnWrite s req.insn req.answer d').1
      (callRw s.insnWrite .insnWrite s req.insn req.answer d).2.1
      (callRw s.insnWrite .insnWrite s req.insn req.answer d').2.1 := by
  cases hs : s.insnWrite with
  | driver => exact .store (fun _ => rfl) d d' _
  | emulateBits => exact emulateBits_write s hi
  | inval => exact .refused einval_neg

theorem checkConfig_same (hi : req.insn.insn = insnConfig) (h : SameInput req d d') :
    checkInsnConfigLength req.insn d = checkInsnConfigLength req.insn d' := by
  have hask : asksWrite req.insn := by rw [asksWrite, hi]; decide
  unfold checkInsnConfigLength
  split
  · rfl
  · next hn =>
    have hpos : 0 < req.insn.n.toNat := by
      rw [BitVec.lt_def] at hn
      have h1 : (1 : U32).toNat = 1 := rfl
      omega
    rw [h hask 0 hpos]

theorem checkConfig_nonpos (insn : Insn) (d : Nat → U32) : checkInsnConfigLength insn d ≤ 0 := by
  have he : -einval ≤ 0 := by decide
  unfold checkInsnConfigLength
  split
  · exact he
  · split
    · split
      · exact le_rfl
      · exact he
    · exact le_rfl

theorem writeCheck_same (s : Subdevice) (hi : req.insn.insn = insnWrite) (h : SameInput req d d') :
    ((List.range req.insn.n.toNat).any fun i => maxdataOf s req.insn < d i) =
      (List.range req.insn.n.toNat).any fun i => maxdataOf s req.insn < d' i := by
  have hask : asksWrite req.insn := by rw [asksWrite, hi]; decide
  rw [Bool.eq_iff_iff]
  simp only [List.any_eq_true, List.mem_range, decide_eq_true_eq]
  constructor
  · rintro ⟨i, hi, hlt⟩
    exact ⟨i, hi, h hask i hi ▸ hlt⟩
  · rintro ⟨i, hi, hlt⟩
    exact ⟨i, hi, (h hask i hi).symm ▸ hlt⟩

theorem runInsn_alike {s t : Subdevice} (hs : dev.subdevices[req.insn.subdev.toNat]? = some s)
    (hr : t.insnRead = s.insnRead) (hw : t.insnWrite = s.insnWrite) (h : SameInput req d d') :
    Alike (storedWord dev req) d d' (runInsn t req d).1 (runInsn t req d').1
      (runInsn t req d).2.1 (runInsn t req d').2.1 := by
  unfold runInsn storedWord
  simp only [hs]
  by_cases h1 : req.insn.insn = insnRead
  · have hg : ¬ insnRead = insnGtod := by decide
    simp only [h1, if_neg hg, if_true, ← hr]
    exact callRw_read t h1
  by_cases h2 : req.insn.insn = insnWrite
  · have hg : ¬ insnWrite = insnGtod := by decide
    have hn : ¬ insnWrite = insnRead := by decide
    simp only [h2, if_neg hg, if_neg hn, if_true, ← hw, writeCheck_same t h2 h]
    by_cases hany : ((List.range req.insn.n.toNat).any fun i => maxdataOf t req.insn < d' i) = true
    · simp only [if_pos hany]
      exact .refused einval_neg
    · simp only [if_neg hany]
      exact callRw_write t h2
  by_cases h3 : req.insn.insn = insnBits
  · have hg : ¬ insnBits = insnGtod := by decide
    have hn : ¬ insnBits = insnRead := by decide
    have hn' : ¬ insnBits = insnWrite := by decide
    simp only [h3, if_neg hg, if_neg hn, if_neg hn', if_true]
    exact bitsInsn_alike t h3 h
  by_cases h4 : req.insn.insn = insnConfig
  · have hg : ¬ insnConfig = insnGtod := by decide
    have hn : ¬ insnConfig = insnRead := by decide
    have hn' : ¬ insnConfig = insnWrite := by decide
    have hn'' : ¬ insnConfig = insnBits := by decide
    simp only [h4, if_neg hg, if_neg hn, if_neg hn', if_neg hn'', if_true, checkConfig_same h4 h]
    by_cases hc : checkInsnConfigLength req.insn d' = 0
    · simp only [hc, ne_eq, not_true_eq_false, if_false]
      unfold callConfig
      split
      · exact .store (fun _ => rfl) d d' _
      · exact .refused einval_neg
    · simp only [ne_eq, hc, not_false_eq_true, if_true]
      exact .refused (lt_of_le_of_ne (checkConfig_nonpos _ _) hc)
  · simp only [if_neg h1, if_neg h2, if_neg h3, if_neg h4]
    exact .refused einval_neg

theorem specialInsn_alike (dev : Device) (hsp : req.insn.insn &&& insnMaskSpecial ≠ 0)
    (h : SameInput req d d') :
    Alike (storedWord dev req) d d' (specialInsn dev req d).ret (specialInsn dev req d').ret
        (specialInsn dev req d).data (specialInsn dev req d').data ∧
      (specialInsn dev req d).dev = (specialInsn dev req d').dev := by
  have hr : ¬ req.insn.insn = insnRead := fun he => by rw [he] at hsp; exact hsp (by decide)
  have hw : ¬ req.insn.insn = insnWrite := fun he => by rw [he] at hsp; exact hsp (by decide)
  have hb : ¬ req.insn.insn = insnBits := fun he => by rw [he] at hsp; exact hsp (by decide)
  have hc : ¬ req.insn.insn = insnConfig := fun he => by rw [he] at hsp; exact hsp (by decide)
  have hstored : req.insn.insn ≠ insnGtod → ∀ p, storedWord dev req p = false := by
    intro hg p
    unfold storedWord
    simp only [if_neg hg, if_neg hr, if_neg hw, if_neg hb, if_neg hc]
    split <;> rfl
  have hone : ∀ hask : asksWrite req.insn, req.insn.n = 1 → d 0 = d' 0 := by
    intro hask hn
    refine h hask 0 ?_
    rw [hn]
    exact Nat.one_pos
  unfold specialInsn
  by_cases h1 : req.insn.insn = insnGtod
  · simp only [h1, if_true]
    split
    · exact ⟨.refused einval_neg, rfl⟩
    · refine ⟨⟨rfl, fun _ p => ?_⟩, rfl⟩
      have hst : storedWord dev req p = (decide (p < 2)) := by rw [storedWord, if_pos h1]
      rw [hst]
      rcases p with _ | _ | p
      · simp
      · simp
      · simp [update_of_ne]
  by_cases h2 : req.insn.insn = insnWait
  · have hask : asksWrite req.insn := by rw [asksWrite, h2]; decide
    simp only [if_neg h1, if_pos h2]
    by_cases hn : req.insn.n = 1
    · simp only [hone hask hn]
      split
      · exact ⟨.refused einval_neg, rfl⟩
      · exact ⟨.kept (hstored h1) d d' 1, rfl⟩
    · simp only [ne_eq, hn, not_false_eq_true, true_or, if_true]
      exact ⟨.refused einval_neg, trivial⟩
  by_cases h3 : req.insn.insn = insnInttrig
  · have hask : asksWrite req.insn := by rw [asksWrite, h3]; decide
    simp only [if_neg h1, if_neg h2, if_pos h3]
    by_cases hn : req.insn.n = 1
    · simp only [ne_eq, hn, not_true_eq_false, if_false, hone hask hn]
      split
      · exact ⟨.refused einval_neg, rfl⟩
      · exact ⟨.kept (hstored h1) d d' _, rfl⟩
    · simp only [ne_eq, hn, not_false_eq_true, if_true]
      exact ⟨.refused einval_neg, trivial⟩
  · simp only [if_neg h1, if_neg h2, if_neg h3]
    exact ⟨.refused einval_neg, trivial⟩

theorem subdeviceInsn_alike {s : Subdevice} (file : File)
    (hs : dev.subdevices[req.insn.subdev.toNat]? = some s) (h : SameInput req d d') :
    Alike (storedWord dev req) d d' (subdeviceInsn s req d file).1 (subdeviceInsn s req d' file).1
        (subdeviceInsn s req d file).2.1 (subdeviceInsn s req d' file).2.1 ∧
      (subdeviceInsn s req d file).2.2.1 = (subdeviceInsn s req d' file).2.2.1 := by
  unfold subdeviceInsn
  by_cases h1 : s.type = .unused
  · simp only [if_pos h1]
    exact ⟨.refused (by decide), trivial⟩
  by_cases h2 : s.lockedOut file = true
  · simp only [if_neg h1, if_pos h2]
    exact ⟨.refused (by decide), trivial⟩
  by_cases h3 : checkChanlist s [req.insn.chanspec] < 0
  · simp only [if_neg h1, if_neg h2, if_pos h3]
    exact ⟨.refused (by decide), trivial⟩
  by_cases h4 : s.busy.isSome = true
  · simp only [if_neg h1, if_neg h2, if_neg h3, if_pos h4]
    exact ⟨.refused (by decide), trivial⟩
  · simp only [if_neg h1, if_neg h2, if_neg h3, if_neg h4]
    exact ⟨runInsn_alike hs rfl rfl h, trivial⟩

theorem ordinaryInsn_alike (dev : Device) (file : File) (h : SameInput req d d') :
    Alike (storedWord dev req) d d' (ordinaryInsn dev req d file).ret
        (ordinaryInsn dev req d' file).ret (ordinaryInsn dev req d file).data
        (ordinaryInsn dev req d' file).data ∧
      (ordinaryInsn dev req d file).dev = (ordinaryInsn dev req d' file).dev := by
  unfold ordinaryInsn
  cases hs : dev.subdevices[req.insn.subdev.toNat]? with
  | none =>
    simp only [hs]
    exact ⟨.refused einval_neg, trivial⟩
  | some s =>
    obtain ⟨halike, hdev⟩ := subdeviceInsn_alike file hs h
    simp only [hs]
    exact ⟨halike, congrArg (dev.set _) hdev⟩

/-- `parse_insn` on two buffers. -/
theorem parseInsn_alike (dev : Device) (file : File) (h : SameInput req d d') :
    Alike (storedWord dev req) d d' (parseInsn dev req d file).ret (parseInsn dev req d' file).ret
        (parseInsn dev req d file).data (parseInsn dev req d' file).data ∧
      (parseInsn dev req d file).dev = (parseInsn dev req d' file).dev := by
  unfold parseInsn
  split
  · next hsp => exact specialInsn_alike dev hsp h
  · exact ordinaryInsn_alike dev file h

/-- The words of the buffer that do not come from the memory that was allocated for it, once
the instruction is accepted. -/
def knownAfter (known : Nat → Bool) (dev : Device) (req : InsnReq) (p : Nat) : Bool :=
  known p ∨ (asksWrite req.insn ∧ p < req.insn.n.toNat) ∨ storedWord dev req p

/-- Each word that is copied to the user was stored before: by the user's input, the clock, a
callback or an earlier instruction of the list. -/
def Filled (file : File) : (Nat → Bool) → Device → List InsnReq → Prop
  | _, _, [] => True
  | known, dev, req :: reqs =>
    ∀ data, fillData req (fun _ => 0) = some data → 0 ≤ (parseInsn dev req data file).ret →
      (asksRead req.insn →
        ∀ p < min req.insn.n.toNat req.takes, knownAfter known dev req p = true) ∧
      ((asksRead req.insn → req.insn.n.toNat ≤ req.takes) →
        Filled file (knownAfter known dev req) (parseInsn dev req data file).dev reqs)

/-- The user's input in the buffer. -/
def withInput (req : InsnReq) (words : Nat → U32) (d : Nat → U32) : Nat → U32 :=
  store (fun p => if asksWrite req.insn ∧ p < req.insn.n.toNat then some (words p) else none) d

theorem fillData_cases (req : InsnReq) :
    (∀ d, fillData req d = none) ∨ ∃ words, ∀ d, fillData req d = some (withInput req words d) := by
  unfold fillData withInput
  by_cases hask : asksWrite req.insn
  · simp only [hask, true_and, if_true]
    cases req.input with
    | none => exact .inl fun d => rfl
    | some words => exact .inr ⟨words, fun d => rfl⟩
  · refine .inr ⟨fun _ => 0, fun d => ?_⟩
    rw [if_neg hask]
    congr 1
    funext p
    simp [store, hask]

theorem withInput_same (req : InsnReq) (words d d' : Nat → U32) :
    SameInput req (withInput req words d) (withInput req words d') := by
  intro hask p hp
  simp [withInput, store, hask, hp]

/-- Two buffers that agree on the words that are known. -/
def AgreeOn (known : Nat → Bool) (d d' : Nat → U32) : Prop := ∀ p, known p = true → d p = d' p

section Step

variable {known : Nat → Bool} {words : Nat → U32}

theorem agree_after (dev : Device) (file : File) (h : AgreeOn known d d')
    (hret : 0 ≤ (parseInsn dev req (withInput req words d) file).ret) :
    AgreeOn (knownAfter known dev req) (parseInsn dev req (withInput req words d) file).data
      (parseInsn dev req (withInput req words d') file).data := by
  intro p hp
  have hdata := (parseInsn_alike dev file (withInput_same req words d d')).1.data_eq hret p
  by_cases hst : storedWord dev req p = true
  · simpa only [if_pos hst] using hdata
  · simp only [if_neg hst] at hdata
    have hk : known p = true ∨ (asksWrite req.insn ∧ p < req.insn.n.toNat) := by
      simpa [knownAfter, hst] using hp
    rw [hdata.1, hdata.2]
    unfold withInput store
    by_cases hin : asksWrite req.insn ∧ p < req.insn.n.toNat
    · simp [hin]
    · simpa only [if_neg hin, Option.getD_none] using h p (hk.resolve_right hin)

/-- A word that is not known afterwards is one that was found in the memory. -/
theorem unknown_after (dev : Device) (file : File) {p : Nat}
    (hp : knownAfter known dev req p = false)
    (hret : 0 ≤ (parseInsn dev req (withInput req words d) file).ret) :
    (parseInsn dev req (withInput req words d) file).data p = d p := by
  have hdata := (parseInsn_alike dev file (withInput_same req words d d)).1.data_eq hret p
  obtain ⟨-, hin, hst⟩ : known p = false ∧ ¬ (asksWrite req.insn ∧ p < req.insn.n.toNat) ∧
      storedWord dev req p = false := by
    simpa [knownAfter] using hp
  rw [hst] at hdata
  rw [hdata.1]
  simp only [withInput, store, if_neg hin, Option.getD_none]

end Step

section List

variable {known : Nat → Bool} {reqs : List InsnReq} {i : Nat}

/-- What is copied from instruction `i` on, once that one is accepted. -/
theorem insnlistLoop_copied (reqs : List InsnReq) {data : Nat → U32} (hfill : fillData req d = some data)
    (hret : 0 ≤ (parseInsn dev req data file).ret) :
    (insnlistLoop file (req :: reqs) i dev d).copied =
      (if asksRead req.insn then [copyBack req (parseInsn dev req data file).data] else []) ++
        if asksRead req.insn ∧ req.takes < req.insn.n.toNat then []
        else (insnlistLoop file reqs (i + 1) (parseInsn dev req data file).dev
          (parseInsn dev req data file).data).copied := by
  simp only [insnlistLoop, hfill, if_neg (not_lt.mpr hret)]
  split
  · rw [List.append_nil]
  · rfl

theorem insnlistLoop_refused {data : Nat → U32} (hfill : fillData req d = some data)
    (hret : (parseInsn dev req data file).ret < 0) :
    (insnlistLoop file (req :: reqs) i dev d).copied = [] := by
  simp only [insnlistLoop, hfill, if_pos hret]

theorem insnlistLoop_fault (hfill : fillData req d = none) :
    (insnlistLoop file (req :: reqs) i dev d).copied = [] := by
  simp only [insnlistLoop, hfill]

/-- Where every copied word was stored before, the memory makes no difference. -/
theorem copied_same (h : Filled file known dev reqs) (hagree : AgreeOn known d d') :
    (insnlistLoop file reqs i dev d).copied = (insnlistLoop file reqs i dev d').copied := by
  induction reqs generalizing known dev d d' i with
  | nil => rfl
  | cons req reqs ih =>
    rcases fillData_cases req with hnone | ⟨words, hsome⟩
    · rw [insnlistLoop_fault (hnone d), insnlistLoop_fault (hnone d')]
    obtain ⟨hal, hdev⟩ := parseInsn_alike dev file (withInput_same req words d d')
    obtain ⟨hal₀, hdev₀⟩ := parseInsn_alike dev file (withInput_same req words (fun _ => 0) d)
    rcases lt_or_ge (parseInsn dev req (withInput req words d) file).ret 0 with hneg | hret
    · rw [insnlistLoop_refused (hsome d) hneg,
        insnlistLoop_refused (hsome d') (hal.ret_eq ▸ hneg)]
    obtain ⟨hfilled, hrest⟩ := h _ (hsome _) (hal₀.ret_eq ▸ hret)
    have hafter := agree_after dev file hagree hret
    rw [insnlistLoop_copied _ (hsome d) hret, insnlistLoop_copied _ (hsome d') (hal.ret_eq ▸ hret)]
    congr 1
    · split
      · next hread =>
        congr 1
        apply List.map_congr_left
        intro p hp
        exact hafter p (hfilled hread p (List.mem_range.mp hp))
      · rfl
    · split
      · rfl
      · next hcont =>
        rw [← hdev]
        rw [hdev₀] at hrest
        exact ih (hrest fun hread => not_lt.mp fun hlt => hcont ⟨hread, hlt⟩) hafter

/-- Where the memory makes no difference, every copied word was stored before. -/
theorem filled_of_copied_same (base : Nat → U32)
    (h : ∀ d d', AgreeOn known d base → AgreeOn known d' base →
      (insnlistLoop file reqs i dev d).copied = (insnlistLoop file reqs i dev d').copied) :
    Filled file known dev reqs := by
  induction reqs generalizing known dev base i with
  | nil => trivial
  | cons req reqs ih =>
    intro data hfill hret
    rcases fillData_cases req with hnone | ⟨words, hsome⟩
    · rw [hnone] at hfill
      cases hfill
    have hdata : data = withInput req words (fun _ => 0) := by
      rw [hsome] at hfill
      exact (Option.some.inj hfill).symm
    subst hdata
    have hret' : ∀ d, 0 ≤ (parseInsn dev req (withInput req words d) file).ret := fun d =>
      (parseInsn_alike dev file (withInput_same req words (fun _ => 0) d)).1.ret_eq ▸ hret
    have hdev : ∀ d, (parseInsn dev req (withInput req words d) file).dev =
        (parseInsn dev req (withInput req words (fun _ => 0)) file).dev := fun d =>
      (parseInsn_alike dev file (withInput_same req words d (fun _ => 0))).2
    have hcopied := fun d => insnlistLoop_copied (i := i) reqs (hsome d) (hret' d)
    refine ⟨fun hread p hp => ?_, fun hcont => ?_⟩
    · by_contra hunknown
      have hpk : knownAfter known dev req p = false := by simpa using hunknown
      have hk : known p = false := by
        simp only [knownAfter, decide_eq_false_iff_not, not_or] at hpk
        simpa using hpk.1
      -- two memories that differ in the word `p` only
      have hagree : ∀ w : U32, AgreeOn known (Function.update base p w) base := by
        intro w q hq
        rw [update_of_ne]
        rintro rfl
        rw [hk] at hq
        cases hq
      have heq := h _ _ (hagree 0) (hagree 1)
      rw [hcopied, hcopied, if_pos hread, if_pos hread] at heq
      have hhead := (List.cons.inj heq).1
      have hword := congrArg (fun l => l[p]?) hhead
      simp only [copyBack, List.getElem?_map, List.getElem?_range hp, Option.map_some] at hword
      rw [unknown_after dev file hpk (hret' _), unknown_after dev file hpk (hret' _)] at hword
      simp at hword
    · refine ih (i := i + 1) (parseInsn dev req (withInput req words base) file).data ?_
      intro e e' he he'
      -- a memory for which the instruction leaves the buffer `e` behind
      have hback : ∀ e, AgreeOn (knownAfter known dev req) e
          (parseInsn dev req (withInput req words base) file).data → ∃ d, AgreeOn known d base ∧
            (parseInsn dev req (withInput req words d) file).data = e := by
        intro e he
        have hd : AgreeOn known (fun p => if known p then base p else e p) base := by
          intro p hp
          simp [hp]
        refine ⟨_, hd, ?_⟩
        funext p
        cases hk : knownAfter known dev req p with
        | true => rw [agree_after dev file hd (hret' _) p hk, he p hk]
        | false =>
          have hkp : known p = false := by
            simp only [knownAfter, decide_eq_false_iff_not, not_or] at hk
            simpa using hk.1
          rw [unknown_after dev file hk (hret' _)]
          simp [hkp]
      obtain ⟨d, hd, hde⟩ := hback e he
      obtain ⟨d', hd', hde'⟩ := hback e' he'
      have heq := h d d' hd hd'
      have hgo : ¬ (asksRead req.insn ∧ req.takes < req.insn.n.toNat) := fun hc =>
        absurd hc.2 (not_lt.mpr (hcont hc.1))
      rw [hcopied, hcopied, if_neg hgo, if_neg hgo, hdev d, hdev d', hde, hde'] at heq
      refine (List.append_inj heq ?_).2
      split <;> rfl

theorem copied_same_iff_filled (reqs : List InsnReq) :
    (∀ mem mem', (insnlistLoop file reqs i dev mem).copied =
      (insnlistLoop file reqs i dev mem').copied) ↔ Filled file (fun _ => false) dev reqs := by
  constructor
  · exact fun h => filled_of_copied_same (i := i) (fun _ => 0) fun d d' _ _ => h d d'
  · exact fun h mem mem' => copied_same h fun p hp => absurd hp (by decide)

end List

theorem doInsnIoctl_copied (dev : Device) (req : InsnReq) {allocOk : Bool} (file : File)
    (halloc : req.insn.n = 0 ∨ allocOk = true) (mem : Nat → U32) :
    (doInsnIoctl dev req allocOk file mem).copied = (insnlistLoop file [req] 0 dev mem).copied := by
  have hgo : ¬ (req.insn.n ≠ 0 ∧ ¬ allocOk = true) := fun h => h.2 (halloc.resolve_left h.1)
  unfold doInsnIoctl
  rw [if_neg hgo]
  cases hfill : fillData req mem with
  | none => rw [insnlistLoop_fault hfill]
  | some data =>
    rcases lt_or_ge (parseInsn dev req data file).ret 0 with hneg | hret
    · simp only [insnlistLoop_refused hfill hneg, if_pos hneg]
    · rw [insnlistLoop_copied _ hfill hret]
      simp only [if_neg (not_lt.mpr hret), insnlistLoop, ite_self, List.append_nil]
      split <;> rfl

/-- The words that `do_insn_ioctl` and `do_insnlist_ioctl` copy to the user are the same
whatever was in the memory that `kmalloc` gave them, exactly if each of them was stored. -/
theorem stale_words (dev : Device) (file : File) :
    (∀ req allocOk, (∀ mem mem', (doInsnIoctl dev req allocOk file mem).copied =
        (doInsnIoctl dev req allocOk file mem').copied) ↔
      (req.insn.n = 0 ∨ allocOk = true → Filled file (fun _ => false) dev [req])) ∧
    ∀ insns allocInsns allocData,
      (∀ mem mem', (doInsnlistIoctl dev insns allocInsns allocData file mem).copied =
        (doInsnlistIoctl dev insns allocInsns allocData file mem').copied) ↔
      ∀ reqs, insns = some reqs → allocInsns = true →
        ((∀ req ∈ reqs, req.insn.n = 0) ∨ allocData = true) →
        Filled file (fun _ => false) dev reqs := by
  constructor
  · intro req allocOk
    by_cases halloc : req.insn.n = 0 ∨ allocOk = true
    · simp only [doInsnIoctl_copied dev req file halloc, halloc, true_implies]
      exact copied_same_iff_filled [req]
    · have hnone : ∀ mem, doInsnIoctl dev req allocOk file mem = ⟨-enomem, [], dev, []⟩ :=
        fun mem => if_pos (not_or.mp halloc)
      simp only [hnone, halloc, false_implies, implies_true]
  · intro insns allocInsns allocData
    unfold doInsnlistIoctl
    cases allocInsns with
    | false => simp
    | true =>
      cases insns with
      | none => simp
      | some reqs =>
        by_cases halloc : (∀ req ∈ reqs, req.insn.n = 0) ∨ allocData = true
        · have hgo : ¬ ((∃ req ∈ reqs, req.insn.n ≠ 0) ∧ ¬ allocData = true) := by
            rintro ⟨⟨req, hreq, hn⟩, hd⟩
            exact hn (halloc.resolve_right hd req hreq)
          simp only [not_true_eq_false, if_false, if_neg hgo]
          rw [copied_same_iff_filled]
          exact ⟨fun h _ hr _ _ => Option.some.inj hr ▸ h, fun h => h reqs rfl trivial halloc⟩
        · have hno : (∃ req ∈ reqs, req.insn.n ≠ 0) ∧ ¬ allocData = true := by
            obtain ⟨h₁, h₂⟩ := not_or.mp halloc
            exact ⟨by simpa using h₁, h₂⟩
          simp only [not_true_eq_false, if_false, if_pos hno]
          exact ⟨fun _ r hr _ ha => absurd (Option.some.inj hr ▸ ha) halloc, fun _ _ _ => trivial⟩

/-- A digital input of which `insn_bits` is the only function the driver has. -/
def digitalInput : Device where
  subdevices := [{
    type := .di, nChan := 8, rangeTable := some { length := 1 }, maxdata := 1,
    insnRead := .emulateBits, insnWrite := .emulateBits }]

theorem emulated_read_stale :
    (doInsnIoctl digitalInput { insn := { insn := insnRead, n := 2 } } true 0 fun _ => 0).copied ≠
      (doInsnIoctl digitalInput { insn := { insn := insnRead, n := 2 } } true 0 fun _ => 1).copied := by
  decide

end Comedi.StaleWords
