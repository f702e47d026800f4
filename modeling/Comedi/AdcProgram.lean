import Comedi.ResetAdc

namespace Comedi.AdcProgram

open CodeRuns ResetAdc Rps
open ChanlistCheck (crChan crRange)
open FakeWaveform (chanspec)
open RtTimer (trigNow trigFollow)

variable {base ana : U32} {off adcItems i : Nat} {hw hw' : Hw} {item : PollItem} {cmd : Cmd}

/-- No conversion is under way, and none is being started. -/
structure Idle (hw : Hw) : Prop where
  gpio : hw.gpio &&& gpio1Hi ≠ 0
  busy : hw.busy = none

/-- The state after a word is written over the local bus. -/
def debi (hw : Hw) (reg data : U32) : Hw :=
  { ({ hw with debicmd := debiCmdWrword ||| reg, debiad := data, uploaded := false }).writeDebi with
    uploaded := true }

def waited (hw : Hw) : Hw := { hw with trace := hw.trace ++ [.wait] ++ [.clear] }

/-- The state after a conversion, with the data of the one before in the feedback buffer. -/
def converted (hw : Hw) : Hw :=
  { hw with
    gpio := gpioBase ||| gpio1Hi
    started := hw.started + 1
    busy := none
    shifted := some hw.selected
    fbBuffer1 := hw.shifted
    trace := hw.trace ++ [.start hw.selected] }

def stored (hw : Hw) (adcItems : Nat) : Hw :=
  { hw with samples := Function.update hw.samples adcItems hw.fbBuffer1 }

section Pieces

theorem debiWrite_executes (reg data : U32) :
    Executes (rps base ana) off (debiWrite reg data) hw (debi hw reg data) := by
  have hcmd : decode (rpsLdreg ||| (pDebicmd >>> 2)) = some (.ldreg pDebicmd) := by decide
  have had : decode (rpsLdreg ||| (pDebiad >>> 2)) = some (.ldreg pDebiad) := by decide
  have hclear : decode (rpsClrsignal ||| rpsDebi) = some (.clrsignal rpsDebi) := by decide
  have hupload : decode (rpsUpload ||| rpsDebi) = some (.upload rpsDebi) := by decide
  have hpause : decode (rpsPause ||| rpsDebi) = some (.pause rpsDebi) := by decide
  refine (executes_ldreg hcmd).append ((executes_ldreg had).append
    ((executes_clrsignal hclear).cons ((executes_upload hupload).cons
      (executes_pause hpause ?_))))
  rfl

theorem waitTrigger_executes :
    Executes (rps base ana) off waitTrigger hw (waited hw) := by
  have hpause : decode (rpsPause ||| rpsSigadc) = some (.pause rpsSigadc) := by decide
  have hclear : decode (rpsClrsignal ||| rpsSigadc) = some (.clrsignal rpsSigadc) := by decide
  exact (executes_pause hpause rfl).cons (executes_clrsignal hclear)

theorem ldreg_gpio (value : U32) : hw.ldreg pGpio value = hw.writeGpio value := rfl

theorem writeGpio_fall (h : hw.gpio &&& gpio1Hi ≠ 0) : hw.writeGpio (gpioBase ||| gpio1Lo) =
    { hw with
      gpio := gpioBase ||| gpio1Lo
      started := hw.started + 1
      busy := some hw.selected
      trace := hw.trace ++ [.start hw.selected] } := if_pos ⟨h, by decide⟩

theorem writeGpio_rise :
    hw.writeGpio (gpioBase ||| gpio1Hi) = { hw with gpio := gpioBase ||| gpio1Hi } :=
  if_neg fun hboth => absurd hboth.2 (by decide)

theorem convertAdc_executes (h : Idle hw) :
    Executes (rps base ana) off convertAdc hw (converted hw) := by
  have hgpio : decode (rpsLdreg ||| (pGpio >>> 2)) = some (.ldreg pGpio) := by decide
  have hnop : decode rpsNop = some (.clrsignal 0) := by decide
  have hpause : decode (rpsPause ||| rpsGpio2) = some (.pause rpsGpio2) := by decide
  have hbegin := @executes_ldreg base ana _ (gpioBase ||| gpio1Lo) _ off hw hgpio
  rw [ldreg_gpio, writeGpio_fall h.gpio] at hbegin
  refine hbegin.append ((executes_clrsignal hnop).cons ((executes_ldreg hgpio).append
    (executes_pause hpause ?_)))
  rw [ldreg_gpio, writeGpio_rise]
  rfl

theorem storeAdc_executes (h : adcItems < 2 ^ 30) :
    Executes (rps base ana) off (storeAdc ana adcItems) hw (stored hw adcItems) := by
  have hdecode : decode (rpsStreg ||| ((pFbBuffer1 - 4) >>> 2)) =
      some (.streg (pFbBuffer1 - 4)) := by decide
  have hword : (ana + (BitVec.ofNat 32 adcItems <<< 2) - ana).toNat / 4 = adcItems := by
    rw [BitVec.add_comm, BitVec.add_sub_cancel, BitVec.toNat_shiftLeft, BitVec.toNat_ofNat]
    omega
  have hstreg : hw.streg ana (pFbBuffer1 - 4) (ana + (BitVec.ofNat 32 adcItems <<< 2)) =
      stored hw adcItems := by
    unfold Hw.streg stored
    rw [if_pos (by decide), hword]
  rw [← hstreg]
  exact executes_streg hdecode

theorem jumps_executes (n : Nat) (h : 4 * (off + 2 * n) < 2 ^ 32) :
    Executes (rps base ana) off (jumps n (base + BitVec.ofNat 32 (4 * off))) hw hw := by
  have hdecode : decode rpsJump = some .jump := by decide
  induction n generalizing off with
  | zero => exact Executes.nil
  | succ n ih =>
    have hnext : base + BitVec.ofNat 32 (4 * off) + 8 = base + BitVec.ofNat 32 (4 * (off + 2)) := by
      rw [BitVec.add_assoc]
      congr 1
      bv_omega
    unfold jumps
    rw [hnext]
    exact (executes_jump hdecode (place_word base (by omega))).append
      (@ih (off + 2) (by omega))

theorem nops_executes (n : Nat) :
    Executes (rps base ana) off (List.replicate n rpsNop) hw hw := by
  have hnop : decode rpsNop = some (.clrsignal 0) := by decide
  induction n generalizing off with
  | zero => exact Executes.nil
  | succ n ih => exact (executes_clrsignal hnop).cons ih

end Pieces

section Slots

/-- The conversion of a slot, the `k`-th one. -/
def conversion (item : PollItem) (k : Nat) : Conversion :=
  ⟨localPpl item &&& 0xff, (localPpl item >>> 8) &&& 0xf, k⟩

def waitEvents (waits : Prop) [Decidable waits] : List Event :=
  if waits then [.wait, .clear] else []

def slotEvents (cmd : Cmd) (x : PollItem × Nat) : List Event :=
  waitEvents (cmd.convertSrc ≠ trigNow) ++ [.start (conversion x.1 x.2)]

/-- The words from the `i`-th on, one after the other. -/
def fill {α : Type} : (Nat → α) → Nat → List α → Nat → α
  | words, _, [] => words
  | words, i, x :: xs => fill (Function.update words i x) (i + 1) xs

/-- The end of the poll list is marked, and only there. -/
def Marked : List PollItem → Prop
  | [] => False
  | [item] => item &&& eopl ≠ 0
  | item :: ppl => item &&& eopl = 0 ∧ Marked ppl

/-- What the code for the slots `ppl` does. The data of the last one is still to be shifted out. -/
structure Digitizes (cmd : Cmd) (adcItems : Nat) (ppl : List PollItem) (hw hw' : Hw) : Prop where
  idle : Idle hw'
  started : hw'.started = hw.started + ppl.length
  samples : Function.update hw'.samples (adcItems + ppl.length) hw'.shifted =
    fill hw.samples adcItems
      (hw.shifted :: (ppl.zipIdx hw.started).map fun x => some (conversion x.1 x.2))
  trace : hw'.trace = hw.trace ++ (ppl.zipIdx hw.started).flatMap (slotEvents cmd)

def waitIf (waits : Prop) [Decidable waits] (hw : Hw) : Hw := if waits then waited hw else hw

theorem waitIf_executes (waits : Prop) [Decidable waits] :
    Executes (rps base ana) off (if waits then waitTrigger else []) hw (waitIf waits hw) := by
  unfold waitIf
  split
  · exact waitTrigger_executes
  · exact Executes.nil

theorem waitIf_eq (waits : Prop) [Decidable waits] :
    waitIf waits hw = { hw with trace := hw.trace ++ waitEvents waits } := by
  unfold waitIf waitEvents waited
  split
  · rw [List.append_assoc]
    rfl
  · rw [List.append_nil]

/-- The state after a slot. -/
def afterSlot (cmd : Cmd) (hw : Hw) (adcItems : Nat) (item : PollItem) : Hw :=
  stored (converted (waitIf (cmd.convertSrc ≠ trigNow)
    (debi (debi hw lpGsel (localPpl item)) lpIsel (localPpl item)))) adcItems

theorem slotCode_executes (hidle : Idle hw) (hoff : off < 2 ^ 20) (hitems : adcItems < 2 ^ 30) :
    Executes (rps base ana) off (slotCode cmd base ana off adcItems item) hw
      (afterSlot cmd hw adcItems item) := by
  have hwaited : Idle (waitIf (cmd.convertSrc ≠ trigNow)
      (debi (debi hw lpGsel (localPpl item)) lpIsel (localPpl item))) := by
    rw [waitIf_eq]
    exact ⟨hidle.gpio, hidle.busy⟩
  unfold slotCode
  refine Executes.append (Executes.append (Executes.append (Executes.append (Executes.append
    (debiWrite_executes _ _) (debiWrite_executes _ _)) ?_) (waitIf_executes _))
    (convertAdc_executes hwaited)) (storeAdc_executes hitems)
  exact jumps_executes _ (by
    have hjumps : 10 * rpsclkPerUs / 2 = 20 := rfl
    rw [hjumps]
    change 4 * (off + 14 + 2 * 20) < 2 ^ 32
    omega)

theorem debi_gsel (data : U32) : debi hw lpGsel data =
    { hw with
      debicmd := debiCmdWrword ||| lpGsel
      debiad := data
      uploaded := true
      gsel := data } := rfl

theorem debi_isel (data : U32) : debi hw lpIsel data =
    { hw with
      debicmd := debiCmdWrword ||| lpIsel
      debiad := data
      uploaded := true
      isel := data } := rfl

theorem afterSlot_eq (cmd : Cmd) (hw : Hw) (adcItems : Nat) (item : PollItem) :
    afterSlot cmd hw adcItems item =
      { hw with
        debicmd := debiCmdWrword ||| lpIsel
        debiad := localPpl item
        uploaded := true
        gsel := localPpl item
        isel := localPpl item
        gpio := gpioBase ||| gpio1Hi
        started := hw.started + 1
        busy := none
        shifted := some (conversion item hw.started)
        fbBuffer1 := hw.shifted
        samples := Function.update hw.samples adcItems hw.shifted
        trace := hw.trace ++ slotEvents cmd (item, hw.started) } := by
  unfold afterSlot slotEvents
  rw [debi_gsel, debi_isel, waitIf_eq, ← List.append_assoc]
  rfl

theorem afterSlot_idle (cmd : Cmd) (hw : Hw) (adcItems : Nat) (item : PollItem) :
    Idle (afterSlot cmd hw adcItems item) := by
  have hgpio : (gpioBase ||| gpio1Hi) &&& gpio1Hi ≠ 0 := by decide
  rw [afterSlot_eq]
  exact ⟨hgpio, rfl⟩

theorem Digitizes.nil (hidle : Idle hw) : Digitizes cmd adcItems [] hw hw :=
  ⟨hidle, rfl, rfl, (List.append_nil _).symm⟩

theorem Digitizes.cons {ppl : List PollItem}
    (h : Digitizes cmd (adcItems + 1) ppl (afterSlot cmd hw adcItems item) hw') :
    Digitizes cmd adcItems (item :: ppl) hw hw' := by
  obtain ⟨hidle, hstarted, hsamples, htrace⟩ := h
  rw [afterSlot_eq] at hstarted hsamples htrace
  dsimp only at hstarted hsamples htrace
  refine ⟨hidle, ?_, ?_, ?_⟩
  · rw [hstarted, List.length_cons]
    omega
  · rw [List.length_cons, List.zipIdx_cons, List.map_cons, Nat.add_comm ppl.length,
      ← Nat.add_assoc]
    exact hsamples
  · rw [htrace, List.zipIdx_cons, List.flatMap_cons, List.append_assoc]

/-- The words for a slot. -/
def slotWords (cmd : Cmd) : Nat := if cmd.convertSrc ≠ trigNow then 64 else 62

theorem jumps_length (n : Nat) (jmpAdrs : U32) : (jumps n jmpAdrs).length = 2 * n := by
  induction n generalizing jmpAdrs with
  | zero => rfl
  | succ n ih =>
    unfold jumps
    rw [List.length_cons, List.length_cons, ih]
    omega

theorem slotCode_length (cmd : Cmd) (off adcItems : Nat) (item : PollItem) :
    (slotCode cmd base ana off adcItems item).length = slotWords cmd := by
  have hjumps : 10 * rpsclkPerUs / 2 = 20 := rfl
  unfold slotCode slotWords
  simp only [List.length_append, jumps_length, hjumps]
  split
  · rfl
  · rfl

/-- The slots are digitized one after the other, up to the end marker. -/
theorem slots_executes {ppl : List PollItem} (hmarked : Marked ppl) (hidle : Idle hw)
    (hoff : off + 64 * ppl.length < 2 ^ 20) (hitems : adcItems + ppl.length ≤ 16) :
    (slots cmd base ana off adcItems ppl).1.length = slotWords cmd * ppl.length ∧
      (slots cmd base ana off adcItems ppl).2 = adcItems + ppl.length ∧
      ∃ hw', Executes (rps base ana) off (slots cmd base ana off adcItems ppl).1 hw hw' ∧
        Digitizes cmd adcItems ppl hw hw' := by
  have hwords : slotWords cmd ≤ 64 := by
    unfold slotWords
    split <;> decide
  induction ppl generalizing off adcItems hw with
  | nil => exact hmarked.elim
  | cons item ppl ih =>
    rw [List.length_cons] at hoff hitems
    have hcode := @slotCode_executes base ana off adcItems hw item cmd hidle (by omega) (by omega)
    have hlength := @slotCode_length base ana cmd off adcItems item
    unfold slots
    rw [if_pos (by omega)]
    dsimp only
    cases ppl with
    | nil =>
      rw [if_pos (show item &&& eopl ≠ 0 from hmarked)]
      refine ⟨?_, rfl, _, hcode, (Digitizes.nil (afterSlot_idle cmd hw adcItems item)).cons⟩
      rw [hlength, List.length_singleton, Nat.mul_one]
    | cons next ppl =>
      obtain ⟨hunmarked, hmarked⟩ := hmarked
      rw [if_neg (not_not.mpr hunmarked)]
      obtain ⟨hlen, hcount, hw', hrest, hdigitizes⟩ :=
        @ih (off + slotWords cmd) (adcItems + 1) (afterSlot cmd hw adcItems item) hmarked
          (afterSlot_idle cmd hw adcItems item) (by omega) (by omega)
      rw [hlength]
      refine ⟨?_, ?_, hw', hcode.append ?_, hdigitizes.cons⟩
      · rw [List.length_append, hlength, hlen, Nat.add_comm]
        exact (Nat.mul_succ _ _).symm
      · have hlast : (item :: next :: ppl).length = (next :: ppl).length + 1 := rfl
        rw [hcount, hlast]
        omega
      · rw [hlength]
        exact hrest

end Slots

section Lists

variable {α : Type} {words : Nat → α}

theorem fill_before (xs : List α) {i j : Nat} (h : j < i) : fill words i xs j = words j := by
  induction xs generalizing words i with
  | nil => rfl
  | cons x xs ih =>
    unfold fill
    rw [ih (Nat.lt_succ_of_lt h)]
    exact Function.update_of_ne h.ne x words

theorem fill_get {xs : List α} {x : α} {i j : Nat} (h : xs[j]? = some x) :
    fill words i xs (i + j) = x := by
  induction xs generalizing words i j with
  | nil => cases h
  | cons y ys ih =>
    unfold fill
    cases j with
    | zero =>
      have hkept := @fill_before α (Function.update words i y) ys (i + 1) i (Nat.lt_add_one i)
      exact (hkept.trans (Function.update_self i y words)).trans (Option.some.inj h)
    | succ j =>
      have hplace : i + (j + 1) = i + 1 + j := by omega
      rw [hplace]
      exact ih h

end Lists

section Commands

/-- What the core makes sure of: a list that the subdevice takes, of channels that it has. -/
structure Offered (cmd : Cmd) : Prop where
  pos : 0 < cmd.chanlistLen.toNat
  most : cmd.chanlistLen.toNat ≤ 16
  channels : ∀ i < cmd.chanlistLen.toNat, crChan (chanspec cmd i) < 16

/-- The conversion of entry `i` of the channel list, where `started` ones came before the list. -/
def entryConversion (cmd : Cmd) (started i : Nat) : Conversion :=
  ⟨if crRange (chanspec cmd i) = 0 then gselBipolar5v else gselBipolar10v,
    crChan (chanspec cmd i), started + i⟩

def entryEvents (cmd : Cmd) (started i : Nat) : List Event :=
  waitEvents (cmd.convertSrc ≠ trigNow) ++ [.start (entryConversion cmd started i)]

/-- An item of the poll list. -/
def pollItem (chan : U32) (five last : Bool) : PollItem :=
  let item := chan.setWidth 8 ||| (if five then range5v else range10v)
  if last then item ||| eopl else item

def itemOf (cmd : Cmd) (i : Nat) : PollItem :=
  pollItem (crChan (chanspec cmd i)) (crRange (chanspec cmd i) = 0)
    (i + 1 = cmd.chanlistLen.toNat)

theorem polllist_eq (cmd : Cmd) :
    s626AiLoadPolllist cmd = (List.range cmd.chanlistLen.toNat).map (itemOf cmd) := by
  unfold s626AiLoadPolllist itemOf pollItem
  simp only [decide_eq_true_eq]

theorem pollItem_bits {chan : U32} (h : chan < 16) (five last : Bool) :
    localPpl (pollItem chan five last) &&& 0xff =
        (if five then gselBipolar5v else gselBipolar10v) ∧
      (localPpl (pollItem chan five last) >>> 8) &&& 0xf = chan ∧
        (pollItem chan five last &&& eopl ≠ 0 ↔ last) := by
  have hall : ∀ (chan : Fin 16) (five last : Bool),
      localPpl (pollItem (BitVec.ofNat 32 chan) five last) &&& 0xff =
          (if five then gselBipolar5v else gselBipolar10v) ∧
        (localPpl (pollItem (BitVec.ofNat 32 chan) five last) >>> 8) &&& 0xf =
            BitVec.ofNat 32 chan ∧
          (pollItem (BitVec.ofNat 32 chan) five last &&& eopl ≠ 0 ↔ last) := by
    decide
  have hchan := hall ⟨chan.toNat, h⟩ five last
  rwa [BitVec.ofNat_toNat, BitVec.setWidth_eq] at hchan

theorem conversion_itemOf (h : crChan (chanspec cmd i) < 16) (started : Nat) :
    conversion (itemOf cmd i) (started + i) = entryConversion cmd started i := by
  obtain ⟨hgain, hchan, -⟩ := pollItem_bits h (crRange (chanspec cmd i) = 0)
    (i + 1 = cmd.chanlistLen.toNat)
  unfold conversion entryConversion itemOf
  rw [hgain, hchan]
  simp only [decide_eq_true_eq]

theorem Marked.cons {ppl : List PollItem} (h : Marked ppl) (hitem : item &&& eopl = 0) :
    Marked (item :: ppl) := by
  cases ppl with
  | nil => exact h.elim
  | cons next ppl => exact ⟨hitem, h⟩

theorem marked_map {f : Nat → PollItem} {n : Nat} (hlast : f n &&& eopl ≠ 0)
    (hrest : ∀ i < n, f i &&& eopl = 0) : Marked ((List.range (n + 1)).map f) := by
  induction n generalizing f with
  | zero => exact hlast
  | succ n ih =>
    rw [List.range_succ_eq_map, List.map_cons, List.map_map]
    exact (@ih (f ∘ Nat.succ) hlast fun i hi => hrest (i + 1) (Nat.succ_lt_succ hi)).cons
      (hrest 0 (Nat.succ_pos n))

theorem marked_polllist (h : Offered cmd) : Marked (s626AiLoadPolllist cmd) := by
  have hmark : ∀ i < cmd.chanlistLen.toNat,
      (itemOf cmd i &&& eopl ≠ 0 ↔ i + 1 = cmd.chanlistLen.toNat) := by
    intro i hi
    have hbits := pollItem_bits (h.channels i hi) (crRange (chanspec cmd i) = 0)
      (i + 1 = cmd.chanlistLen.toNat)
    exact hbits.2.2.trans decide_eq_true_iff
  have hpos := h.pos
  rw [polllist_eq]
  obtain ⟨n, hn⟩ : ∃ n, cmd.chanlistLen.toNat = n + 1 := ⟨cmd.chanlistLen.toNat - 1, by omega⟩
  rw [hn]
  refine marked_map ((hmark n (by omega)).mpr hn.symm) fun i hi => ?_
  exact not_not.mp fun hne => absurd ((hmark i (by omega)).mp hne) (by omega)

theorem zipIdx_polllist (cmd : Cmd) (started : Nat) : (s626AiLoadPolllist cmd).zipIdx started =
    (List.range cmd.chanlistLen.toNat).map fun i => (itemOf cmd i, started + i) := by
  rw [polllist_eq]
  apply List.ext_getElem
  · simp only [List.length_zipIdx, List.length_map]
  · intro i hi hi'
    simp only [List.getElem_zipIdx, List.getElem_map, List.getElem_range]

/-- A loop of the program goes round: it waits for the triggers that there are, it selects the gain
and the channel of each entry for its conversion, and it interrupts at the end, when the word behind
that of an entry has the conversion of the entry. -/
structure Loops (cmd : Cmd) (hw hw' : Hw) : Prop where
  idle : Idle hw'
  trace : ∃ samples dummy, hw'.trace = hw.trace ++
      (waitEvents (cmd.scanBeginSrc ≠ trigFollow) ++
        (List.range cmd.chanlistLen.toNat).flatMap (entryEvents cmd hw.started) ++
        [.start dummy, .irq samples]) ∧
    ∀ i < cmd.chanlistLen.toNat, samples (i + 1) = some (entryConversion cmd hw.started i)

/-- The program is within its buffer, and runs round and round as `Loops` says. -/
structure Correct (cmd : Cmd) (base ana : U32) (program : List U32) : Prop where
  fits : 4 * program.length ≤ dmabufSize
  loops : ∀ hw, Idle hw → ∃ hw', Runs (rps base ana) program (0, hw) (0, hw') ∧ Loops cmd hw hw'

theorem final_executes (h : Idle hw) (hitems : adcItems < 2 ^ 30) :
    Executes (rps base ana) off (finalCode ana adcItems true) hw
      (stored (converted hw) adcItems).irq := by
  have hdecode : decode rpsIrq = some .irq := by decide
  unfold finalCode
  exact (((nops_executes _).append (convertAdc_executes h)).append
    (storeAdc_executes hitems)).append (executes_irq hdecode)

theorem scan_executes : Executes (rps base ana) off (scanCode cmd) hw
    (debi (waitIf (cmd.scanBeginSrc ≠ trigFollow) hw) lpGsel gselBipolar5v) :=
  (waitIf_executes _).append (debiWrite_executes _ _)

theorem entryEvents_polllist (h : Offered cmd) (started : Nat) :
    ((s626AiLoadPolllist cmd).zipIdx started).flatMap (slotEvents cmd) =
      (List.range cmd.chanlistLen.toNat).flatMap (entryEvents cmd started) := by
  rw [zipIdx_polllist, List.flatMap_map]
  refine List.flatMap_congr fun i hi => ?_
  unfold slotEvents entryEvents
  rw [conversion_itemOf (h.channels i (List.mem_range.mp hi))]

theorem samples_polllist (h : Offered cmd) {words : Nat → Option Conversion}
    {junk : Option Conversion} {started : Nat} (hi : i < cmd.chanlistLen.toNat) :
    fill words 0 (junk :: ((s626AiLoadPolllist cmd).zipIdx started).map fun x =>
      some (conversion x.1 x.2)) (i + 1) = some (entryConversion cmd started i) := by
  rw [zipIdx_polllist, List.map_map, ← Nat.zero_add (i + 1)]
  refine fill_get ?_
  rw [List.getElem?_cons_succ, List.getElem?_map, List.getElem?_range hi]
  exact congrArg (fun c => some (some c)) (conversion_itemOf (h.channels i hi) started)

/-- A jump back to the first word of the program. -/
theorem jump_back {code : List U32} :
    rps base ana (fun place => (code ++ [rpsJump, base])[place]?) (code.length, hw) =
      some (0, hw) := by
  have hdecode : decode rpsJump = some .jump := by decide
  have hjump : (code ++ [rpsJump, base])[code.length]? = some rpsJump := by
    rw [List.getElem?_append_right (Nat.le_refl _), Nat.sub_self]
    rfl
  have hbase : (code ++ [rpsJump, base])[code.length + 1]? = some base := by
    rw [List.getElem?_append_right (Nat.le_add_right _ _), Nat.add_sub_cancel_left]
    rfl
  have hplace : place base base = some 0 := by
    unfold place
    rw [BitVec.sub_self]
    rfl
  rw [rps_eq hjump hdecode]
  change ((code ++ [rpsJump, base])[code.length + 1]?).bind _ = _
  rw [hbase, Option.bind_some, hplace]
  rfl

/-- The program up to its last jump, and the jump. -/
theorem resetAdc_loops (h : Offered cmd) (hidle : Idle hw) :
    ∃ hw', Runs (rps base ana) (resetAdc cmd base ana (s626AiLoadPolllist cmd) true)
      (0, hw) (0, hw') ∧ Loops cmd hw hw' := by
  have hlength : (s626AiLoadPolllist cmd).length = cmd.chanlistLen.toNat := by
    rw [polllist_eq, List.length_map, List.length_range]
  have hmost := h.most
  have hscan := @scan_executes base ana 0 hw cmd
  generalize hstart : debi (waitIf (cmd.scanBeginSrc ≠ trigFollow) hw) lpGsel gselBipolar5v = hw₀
    at hscan
  rw [waitIf_eq, debi_gsel] at hstart
  have hidle₀ : Idle hw₀ := by
    rw [← hstart]
    exact ⟨hidle.gpio, hidle.busy⟩
  have hoff : (scanCode cmd).length ≤ 9 := by
    unfold scanCode
    split <;> decide
  obtain ⟨-, hcount, hw₁, hslots, hdigitized⟩ :=
    @slots_executes base ana (scanCode cmd).length 0 hw₀ cmd _ (marked_polllist h) hidle₀
      (by omega) (by omega)
  obtain ⟨hidle₁, -, hsamples, htrace⟩ := hdigitized
  have hcode := hscan.append (by rwa [Nat.zero_add])
  have hwhole := hcode.append (final_executes hidle₁ (by omega : (slots cmd base ana
    (scanCode cmd).length 0 (s626AiLoadPolllist cmd)).2 < 2 ^ 30))
  subst hstart
  rw [hcount, hlength, Nat.zero_add] at hwhole
  rw [hlength, Nat.zero_add] at hsamples
  have hgpio : (gpioBase ||| gpio1Hi) &&& gpio1Hi ≠ 0 := by decide
  refine ⟨(stored (converted hw₁) cmd.chanlistLen.toNat).irq, ?_, ⟨hgpio, rfl⟩, ?_⟩
  · unfold resetAdc
    dsimp only
    rw [hcount, hlength, Nat.zero_add]
    exact (hwhole.runs [rpsJump, base]).step jump_back
  refine ⟨Function.update hw₁.samples cmd.chanlistLen.toNat hw₁.shifted, hw₁.selected, ?_, ?_⟩
  · change hw₁.trace ++ [.start hw₁.selected] ++ [.irq _] = _
    rw [htrace, entryEvents_polllist h]
    simp only [List.append_assoc]
    rfl
  · intro i hi
    rw [hsamples]
    exact samples_polllist h hi

theorem resetAdc_length (h : Offered cmd) :
    (resetAdc cmd base ana (s626AiLoadPolllist cmd) true).length =
      (scanCode cmd).length + slotWords cmd * cmd.chanlistLen.toNat + 19 := by
  have hlength : (s626AiLoadPolllist cmd).length = cmd.chanlistLen.toNat := by
    rw [polllist_eq, List.length_map, List.length_range]
  have hmost := h.most
  have hoff : (scanCode cmd).length ≤ 9 := by
    unfold scanCode
    split <;> decide
  have hidle : Idle ⟨0, 0, false, 0, 0, gpio1Hi, 0, none, none, none, fun _ => none, []⟩ :=
    ⟨(by decide : gpio1Hi &&& gpio1Hi ≠ 0), rfl⟩
  obtain ⟨hlen, -, -⟩ := @slots_executes base ana (scanCode cmd).length 0 _ cmd _
    (marked_polllist h) hidle (by omega) (by omega)
  unfold resetAdc
  dsimp only
  rw [List.length_append, List.length_append, List.length_append, hlen, hlength]
  rfl

/-- The program is correct, but for the longest lists with conversions that wait for a trigger it
is longer than its buffer. -/
theorem correct_iff (h : Offered cmd) (base ana : U32) :
    Correct cmd base ana (resetAdc cmd base ana (s626AiLoadPolllist cmd) true) ↔
      ¬ (cmd.chanlistLen = 16 ∧ cmd.convertSrc ≠ trigNow) := by
  have hmost := h.most
  have hlength := @resetAdc_length base ana cmd h
  have hscan : 7 ≤ (scanCode cmd).length ∧ (scanCode cmd).length ≤ 9 := by
    unfold scanCode
    split <;> decide
  have hsize : dmabufSize = 4096 := rfl
  constructor
  · rintro ⟨hfits, -⟩ ⟨hlen, hconvert⟩
    have hwords : slotWords cmd = 64 := if_pos hconvert
    have hsixteen : cmd.chanlistLen.toNat = 16 := by
      rw [hlen]
      rfl
    rw [hlength, hwords, hsixteen] at hfits
    omega
  · intro hshort
    refine ⟨?_, fun hw hidle => resetAdc_loops h hidle⟩
    rw [hlength]
    unfold slotWords
    split
    next hconvert =>
      have hless : cmd.chanlistLen.toNat ≠ 16 := fun heq =>
        hshort ⟨BitVec.eq_of_toNat_eq heq, hconvert⟩
      omega
    next hnow => omega

/-- The first channels, with timed scans and conversions and the range of 10 V. -/
def timedList (channels : Nat) : Cmd :=
  { scanBeginSrc := RtTimer.trigTimer, convertSrc := RtTimer.trigTimer,
    chanlist := .kernel ((List.range channels).map fun i => BitVec.ofNat 32 (0x10000 + i)),
    chanlistLen := BitVec.ofNat 32 channels }

theorem correct_timedList :
    Correct (timedList 15) 0x1000 0x2000
        (resetAdc (timedList 15) 0x1000 0x2000 (s626AiLoadPolllist (timedList 15)) true) ∧
      ¬ Correct (timedList 16) 0x1000 0x2000
        (resetAdc (timedList 16) 0x1000 0x2000 (s626AiLoadPolllist (timedList 16)) true) := by
  constructor
  · exact (correct_iff ⟨by decide, by decide, by decide⟩ _ _).mpr (by decide)
  · exact fun hcorrect => absurd ((correct_iff ⟨by decide, by decide, by decide⟩ _ _).mp hcorrect)
      (by decide)

/-- Sixteen channels with timed conversions take 1052 words of a buffer of 1024. -/
theorem sixteen_overflow :
    Offered (timedList 16) ∧ (resetAdc (timedList 16) 0x1000 0x2000
      (s626AiLoadPolllist (timedList 16)) true).length = 1052 ∧ dmabufSize = 4 * 1024 := by
  have hoffered : Offered (timedList 16) := ⟨by decide, by decide, by decide⟩
  refine ⟨hoffered, ?_, rfl⟩
  rw [resetAdc_length hoffered]
  decide

end Commands

end Comedi.AdcProgram
