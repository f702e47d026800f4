import Comedi.PcidasSettles

namespace Comedi.PcidasSamples

open ChanlistCheck Pcidas PcidasSettles Retests SampleSink
open FakeWaveform (chanspec)
open Pci230 (trigExt crAref arefDiff)
open RtTimer (trigNone trigNow trigFollow trigTimer trigCount cmdtestHelper)

variable {board : CbPcidasBoard} {cmd : Cmd} {x : AiTest}

section Mux

/-- The channel of sample `k`: from the first channel of the word up to the last one, modulo the
number of channels, again and again. -/
def muxChan (nChan word : U32) (k : Nat) : Nat :=
  let first := (word &&& 0xf).toNat
  let last := ((word &&& 0xf0) >>> 4).toNat
  (first + k % ((last + nChan.toNat - first) % nChan.toNat + 1)) % nChan.toNat

def muxRange (word : U32) : U32 :=
  (word &&& 0x300) >>> 8 ||| if word &&& unip ≠ 0 then isUnipolar else 0

def muxDifferential (word : U32) : Prop := word &&& se = 0

instance (word : U32) : Decidable (muxDifferential word) := inferInstanceAs (Decidable (_ = _))

/-- Each sample is taken as the channel list asks for it. -/
def Delivers (board : CbPcidasBoard) (cmd : Cmd) : Prop :=
  ∀ k, let entry := chanspec cmd (k % cmd.chanlistLen.toNat)
    muxChan board.aiSeChans (adcmux cmd) k = (crChan entry).toNat ∧
      muxRange (adcmux cmd) = crRange entry ∧
      (muxDifferential (adcmux cmd) ↔ crAref entry = arefDiff)

/-- The entries are all differential, or none is. -/
def OneReference (cmd : Cmd) : Prop :=
  ∀ i < cmd.chanlistLen.toNat,
    (crAref (chanspec cmd i) = arefDiff ↔ crAref (chanspec cmd 0) = arefDiff)

/-- What the core checks of a channel list. -/
structure Listed (board : CbPcidasBoard) (cmd : Cmd) : Prop where
  some : cmd.chanlist ≠ .null
  pos : 0 < cmd.chanlistLen.toNat
  le : cmd.chanlistLen ≤ board.aiSeChans
  chan : ∀ i < cmd.chanlistLen.toNat, crChan (chanspec cmd i) < board.aiSeChans
  range : ∀ i < cmd.chanlistLen.toNat, crRange (chanspec cmd i) < 8

theorem endScan_eq (c : U32) : endScan c = c <<< 4 &&& 0xf0 := by
  unfold endScan
  rw [BitVec.shiftLeft_and_distrib]
  rfl

theorem gainBits_eq (r : U32) : gainBits r = r <<< 8 &&& 0x300 := by
  unfold gainBits
  rw [BitVec.shiftLeft_and_distrib]
  rfl

theorem other_field {v m m' : U32} (h : m &&& m' = 0) : v &&& m &&& m' = 0 := by
  rw [BitVec.and_assoc, h]
  exact BitVec.and_zero

theorem own_field (v m : U32) : v &&& m &&& m = v &&& m := by
  rw [BitVec.and_assoc, BitVec.and_self]

/-- The fields of a word do not overlap. -/
theorem word_fields {a b g u s p : U32} (hu : u = unip ∨ u = 0) (hs : s = se ∨ s = 0)
    (hp : p = pacerExtRise ∨ p = pacerInt) :
    let word := beginScan a ||| endScan b ||| gainBits g ||| u ||| s ||| p
    word &&& 0xf = a &&& 0xf ∧ word &&& 0xf0 = endScan b ∧ word &&& 0x300 = gainBits g ∧
      word &&& unip = u ∧ word &&& se = s := by
  intro word
  have hword : word = a &&& (0xf : U32) ||| b <<< 4 &&& (0xf0 : U32) |||
      g <<< 8 &&& (0x300 : U32) ||| u &&& unip ||| s &&& se ||| p &&& (0x3000 : U32) := by
    change beginScan a ||| endScan b ||| gainBits g ||| u ||| s ||| p = _
    rw [endScan_eq, gainBits_eq]
    rcases hu with rfl | rfl <;> rcases hs with rfl | rfl <;> rcases hp with rfl | rfl <;> rfl
  have hunip : u &&& unip = u := by
    rcases hu with rfl | rfl <;> rfl
  have hse : s &&& se = s := by
    rcases hs with rfl | rfl <;> rfl
  have hor : ∀ v : U32, v ||| 0 = v := fun _ => BitVec.or_zero
  have hor' : ∀ v : U32, 0 ||| v = v := fun _ => BitVec.zero_or
  rw [hword, endScan_eq, gainBits_eq]
  refine ⟨?_, ?_, ?_, ?_, ?_⟩
  · simp (disch := decide) only [BitVec.and_or_distrib_right, other_field, own_field,
      hor]
  · simp (disch := decide) only [BitVec.and_or_distrib_right, other_field, own_field,
      hor, hor']
  · simp (disch := decide) only [BitVec.and_or_distrib_right, other_field, own_field,
      hor, hor']
  · simp (disch := decide) only [BitVec.and_or_distrib_right, other_field, hor, hor', hunip]
  · simp (disch := decide) only [BitVec.and_or_distrib_right, other_field, hor, hor', hse]

/-- What the word of a command says. -/
theorem adcmux_fields (hlist : Listed board cmd) (hboard : board.aiSeChans = 16) :
    adcmux cmd &&& 0xf = crChan (chanspec cmd 0) ∧
      (adcmux cmd &&& 0xf0) >>> 4 = crChan (chanspec cmd (cmd.chanlistLen.toNat - 1)) ∧
      muxRange (adcmux cmd) = crRange (chanspec cmd 0) ∧
      (muxDifferential (adcmux cmd) ↔ crAref (chanspec cmd 0) = arefDiff) := by
  have hsmall : ∀ c : U32, c < 16 → c &&& 0xf = c ∧ endScan c >>> 4 = c := by
    intro c hc
    have hall : ∀ c : Fin 16, (BitVec.ofNat 32 c.val &&& 0xf : U32) = BitVec.ofNat 32 c.val ∧
        endScan (BitVec.ofNat 32 c.val) >>> 4 = BitVec.ofNat 32 c.val := by decide
    have hc' := hall ⟨c.toNat, hc⟩
    rwa [BitVec.ofNat_toNat, BitVec.setWidth_eq] at hc'
  have hgain : ∀ r : U32, r < 8 →
      gainBits r >>> 8 ||| (if (if r &&& isUnipolar ≠ 0 then unip else 0) ≠ 0
        then isUnipolar else 0) = r := by
    intro r hr
    have hall : ∀ r : Fin 8, gainBits (BitVec.ofNat 32 r.val) >>> 8 |||
        (if (if (BitVec.ofNat 32 r.val : U32) &&& isUnipolar ≠ 0 then unip else 0) ≠ 0
          then isUnipolar else 0) = BitVec.ofNat 32 r.val := by decide
    have hr' := hall ⟨r.toNat, hr⟩
    rwa [BitVec.ofNat_toNat, BitVec.setWidth_eq] at hr'
  have hlast : (cmd.chanlistLen - 1).toNat = cmd.chanlistLen.toNat - 1 :=
    BitVec.toNat_sub_of_le (show (1 : U32).toNat ≤ cmd.chanlistLen.toNat from hlist.pos)
  have hchan0 := hlist.chan 0 hlist.pos
  have hchan1 := hlist.chan (cmd.chanlistLen.toNat - 1) (by have := hlist.pos; omega)
  rw [hboard] at hchan0 hchan1
  obtain ⟨hfirst, hend, hrange, hunip, hse⟩ := @word_fields (crChan (chanspec cmd 0))
    (crChan (chanspec cmd (cmd.chanlistLen - 1).toNat)) (crRange (chanspec cmd 0))
    (if crRange (chanspec cmd 0) &&& isUnipolar ≠ 0 then unip else 0)
    (if crAref (chanspec cmd 0) ≠ arefDiff then se else 0)
    (if cmd.convertSrc = trigExt ∨ cmd.scanBeginSrc = trigExt then pacerExtRise else pacerInt)
    (ite_eq_or_eq _ _ _) (ite_eq_or_eq _ _ _) (ite_eq_or_eq _ _ _)
  refine ⟨?_, ?_, ?_, ?_⟩
  · exact hfirst.trans (hsmall _ hchan0).1
  · rw [← hlast] at hchan1 ⊢
    exact (congrArg (fun word : U32 => word >>> 4) hend).trans (hsmall _ hchan1).2
  · unfold muxRange
    change (adcmux cmd &&& 0x300) >>> 8 ||| (if adcmux cmd &&& unip ≠ 0 then isUnipolar else 0) = _
    rw [show adcmux cmd &&& 0x300 = _ from hrange, show adcmux cmd &&& unip = _ from hunip]
    exact hgain _ (hlist.range 0 hlist.pos)
  · unfold muxDifferential
    rw [show adcmux cmd &&& se = _ from hse]
    split
    next h => exact iff_of_false (by decide) h
    next h => exact iff_of_true rfl (not_not.mp h)

/-- The entries of a list that passes count upwards, and have one gain. -/
theorem listed_entries (hgood : ¬ badChanlist board.aiSeChans cmd) (hlist : Listed board cmd)
    {i : Nat} (hi : i < cmd.chanlistLen.toNat) :
    (crChan (chanspec cmd i)).toNat =
        ((crChan (chanspec cmd 0)).toNat + i) % board.aiSeChans.toNat ∧
      crRange (chanspec cmd i) = crRange (chanspec cmd 0) := by
  cases i with
  | zero =>
    refine ⟨?_, rfl⟩
    have hlt : (crChan (chanspec cmd 0)).toNat < board.aiSeChans.toNat := hlist.chan 0 hi
    rw [Nat.add_zero, Nat.mod_eq_of_lt hlt]
  | succ i =>
    by_contra hbad
    refine hgood ⟨hlist.some, i + 1, hi, Nat.le_add_left 1 i, ?_⟩
    by_cases hchan : (crChan (chanspec cmd (i + 1))).toNat =
        ((crChan (chanspec cmd 0)).toNat + (i + 1)) % board.aiSeChans.toNat
    · exact .inr fun hrange => hbad ⟨hchan, hrange⟩
    · exact .inl hchan

/-- The word leads through the channels as the list does. -/
theorem muxChan_eq (hgood : ¬ badChanlist board.aiSeChans cmd) (hlist : Listed board cmd)
    (hboard : board.aiSeChans = 16) (k : Nat) :
    muxChan board.aiSeChans (adcmux cmd) k =
      (crChan (chanspec cmd (k % cmd.chanlistLen.toNat))).toNat := by
  have hpos := hlist.pos
  have hle : cmd.chanlistLen.toNat ≤ board.aiSeChans.toNat := hlist.le
  have hchan : (crChan (chanspec cmd 0)).toNat < board.aiSeChans.toNat := hlist.chan 0 hpos
  obtain ⟨hfirst, hend, -, -⟩ := adcmux_fields hlist hboard
  obtain ⟨hlast, -⟩ := listed_entries hgood hlist
    (Nat.sub_lt hpos Nat.one_pos : cmd.chanlistLen.toNat - 1 < cmd.chanlistLen.toNat)
  obtain ⟨hentry, -⟩ := listed_entries hgood hlist (Nat.mod_lt k hpos)
  unfold muxChan
  dsimp only
  rw [hfirst, hend, hlast, hentry]
  have hsixteen : board.aiSeChans.toNat = 16 := by
    rw [hboard]
    rfl
  rw [hsixteen] at hle hchan ⊢
  generalize (crChan (chanspec cmd 0)).toNat = first at hchan ⊢
  have hspan : ((first + (cmd.chanlistLen.toNat - 1)) % 16 + 16 - first) % 16 + 1 =
      cmd.chanlistLen.toNat := by omega
  rw [hspan]

theorem delivers_iff (hgood : ¬ badChanlist board.aiSeChans cmd) (hlist : Listed board cmd)
    (hboard : board.aiSeChans = 16) : Delivers board cmd ↔ OneReference cmd := by
  obtain ⟨-, -, hrange, hreference⟩ := adcmux_fields hlist hboard
  constructor
  · intro h i hi
    have hentry := (h i).2.2
    rw [Nat.mod_eq_of_lt hi] at hentry
    exact hentry.symm.trans hreference
  · intro h k entry
    have hk := Nat.mod_lt k hlist.pos
    refine ⟨muxChan_eq hgood hlist hboard k, ?_, hreference.trans (h _ hk).symm⟩
    rw [hrange]
    exact (listed_entries hgood hlist hk).2.symm

theorem badChanlist_congr {n : U32} {cmd' : Cmd} (hlist : cmd'.chanlist = cmd.chanlist)
    (hlen : cmd'.chanlistLen = cmd.chanlistLen) : badChanlist n cmd' ↔ badChanlist n cmd := by
  unfold badChanlist badEntry chanspec
  rw [hlist, hlen]

theorem roundArgs_chanlist (x : AiTest) :
    (roundArgs x).2.cmd.chanlist = x.cmd.chanlist ∧
      (roundArgs x).2.cmd.chanlistLen = x.cmd.chanlistLen := by
  have hscan : ∀ x, (roundScanBegin x).2.cmd.chanlist = x.cmd.chanlist ∧
      (roundScanBegin x).2.cmd.chanlistLen = x.cmd.chanlistLen := by
    intro x
    unfold roundScanBegin
    split
    · exact ⟨rfl, rfl⟩
    · exact ⟨rfl, rfl⟩
  have hconvert : ∀ x, (roundConvert x).2.cmd.chanlist = x.cmd.chanlist ∧
      (roundConvert x).2.cmd.chanlistLen = x.cmd.chanlistLen := by
    intro x
    unfold roundConvert
    split
    · exact ⟨rfl, rfl⟩
    · exact ⟨rfl, rfl⟩
  exact ⟨(hconvert _).1.trans (hscan x).1, (hconvert _).2.trans (hscan x).2⟩

/-- A channel list that does not pass is refused, whatever the other steps find. -/
theorem refused_of_badChanlist (h : badChanlist board.aiSeChans x.cmd) :
    (cbPcidasAiCmdtest board x).1 ≠ 0 := by
  have hright := fixArgs_snd board (maskSources x.cmd).2
  obtain ⟨hlist, hlen⟩ :=
    roundArgs_chanlist { x with cmd := righted board (maskSources x.cmd).2 }
  have hbad : badChanlist board.aiSeChans (roundArgs _).2.cmd :=
    (badChanlist_congr hlist hlen).mpr h
  unfold cbPcidasAiCmdtest
  dsimp only
  rw [hright]
  split
  · exact one_ne_zero
  split
  · exact two_ne_zero
  split
  · exact three_ne_zero
  split
  · exact four_ne_zero
  · exact (by decide : (5 : Int) ≠ 0)

theorem accepted_chanlist (h : (cbPcidasAiCmdtest board x).1 = 0) :
    ¬ badChanlist board.aiSeChans x.cmd := fun hbad => refused_of_badChanlist hbad h

end Mux

section Counting

variable {left : U32} {y : Acq} {r : Reading}

/-- The samples that a command with a count asks for. -/
def total (cmd : Cmd) : Nat := cmd.chanlistLen.toNat * cmd.stopArg.toNat

/-- The samples that an interrupt reads. -/
def demand (board : CbPcidasBoard) (cmd : Cmd) (y : Acq) (r : Reading) : Nat :=
  if r.status &&& adhfi ≠ 0 then (numSamples board cmd y.count).toNat
  else if r.status &&& (adnei ||| eobi) ≠ 0 then min (min timeout r.notEmpty) y.count.toNat
  else 0

/-- An interrupt while samples are wanted, without an overflow of the FIFO and with room in the
buffer for what is read. -/
structure Orderly (board : CbPcidasBoard) (cmd : Cmd) (y : Acq) (r : Reading) : Prop where
  wanted : y.count ≠ 0
  kept : r.status &&& ladful = 0
  room : demand board cmd y r ≤ r.free

inductive Run (board : CbPcidasBoard) (cmd : Cmd) (left : U32) : Acq → Prop
  | start : Run board cmd left (aiCmd cmd left)
  | interrupt {y : Acq} {r : Reading} : Run board cmd left y → Orderly board cmd y r →
    Run board cmd left (interrupt board cmd y r)

/-- `n` samples have been read, and the acquisition is over if they were the last ones. -/
structure Reads (n : Nat) (y y' : Acq) : Prop where
  out : y'.sink.out.length = y.sink.out.length + n
  count : y'.count.toNat + n = y.count.toNat
  ended : Completes y'.sink.events ↔ y'.count = 0

theorem not_completes {events : U32} (h : events &&& endBits = 0) : ¬ Completes events := by
  unfold Completes
  rw [h]
  decide

theorem reads_none (hpos : y.count ≠ 0) (h : y.sink.events &&& endBits = 0) : Reads 0 y y :=
  ⟨rfl, rfl, iff_of_false (not_completes h) hpos⟩

theorem toNat_pred {count : U32} (h : count ≠ 0) : (count - 1).toNat = count.toNat - 1 := by
  have hpos : count.toNat ≠ 0 := fun hzero => h (BitVec.eq_of_toNat_eq hzero)
  exact BitVec.toNat_sub_of_le (Nat.pos_of_ne_zero hpos : (1 : U32).toNat ≤ count.toNat)

theorem drain_reads (hcounts : counts cmd) {words : List U16} (hpos : y.count ≠ 0)
    (hevents : y.sink.events &&& endBits = 0)
    (hroom : min words.length y.count.toNat ≤ y.sink.free) :
    Reads (min words.length y.count.toNat) y (drain cmd y words) := by
  induction words generalizing y with
  | nil =>
    have hnone : min ([] : List U16).length y.count.toNat = 0 := Nat.zero_min _
    rw [hnone]
    exact reads_none hpos hevents
  | cons word words ih =>
    have hcount : y.count.toNat ≠ 0 := fun hzero => hpos (BitVec.eq_of_toNat_eq hzero)
    have hpred := toNat_pred hpos
    rw [List.length_cons] at hroom ⊢
    have hsome : 0 < y.sink.free := by omega
    have hadds := put_adds hsome word
    have hlen : (put y.sink word).out.length = y.sink.out.length + 1 := by
      rw [hadds.out, List.length_append, List.length_singleton]
    have hfree := hadds.free
    rw [List.length_singleton] at hfree
    rw [drain, if_pos hcounts]
    by_cases hlast : y.count - 1 = 0
    · rw [if_pos hlast]
      have hone : y.count.toNat = 1 := by
        rw [hlast] at hpred
        change 0 = _ at hpred
        omega
      have hmin : min (words.length + 1) y.count.toNat = 1 := by omega
      rw [hmin]
      refine ⟨hlen, ?_, iff_of_true ?_ hlast⟩
      · dsimp only
        omega
      · exact raise_eoa (hadds.events.trans hevents)
    · rw [if_neg hlast]
      have hmin : min words.length (y.count - 1).toNat + 1 =
          min (words.length + 1) y.count.toNat := by omega
      have hroom' : min words.length (y.count - 1).toNat ≤ (put y.sink word).free := by omega
      obtain ⟨hout, hcount', hended⟩ := @ih ⟨y.count - 1, put y.sink word⟩ hlast
        (hadds.events.trans hevents) hroom'
      dsimp only at hout hcount'
      refine ⟨?_, ?_, hended⟩
      · omega
      · omega

theorem readHalf_reads (hcounts : counts cmd)
    (hevents : y.sink.events &&& endBits = 0)
    (hroom : (numSamples board cmd y.count).toNat ≤ y.sink.free) :
    Reads (numSamples board cmd y.count).toNat y (readHalf board cmd y r) := by
  have hle : (numSamples board cmd y.count).toNat ≤ y.count.toNat := by
    unfold numSamples
    split
    · exact le_rfl
    next h => exact Nat.not_lt.mp fun hlt => h ⟨hcounts, hlt⟩
  have hlen : ((List.range (numSamples board cmd y.count).toNat).map r.word).length =
      (numSamples board cmd y.count).toNat := by
    rw [List.length_map, List.length_range]
  have hsub : (y.count - numSamples board cmd y.count).toNat =
      y.count.toNat - (numSamples board cmd y.count).toNat := BitVec.toNat_sub_of_le hle
  have hadds := putArray_adds (hlen.le.trans hroom)
  have hout : (readHalf board cmd y r).sink.out = y.sink.out ++
      (List.range (numSamples board cmd y.count).toNat).map r.word := by
    rw [← hadds.out]
    unfold readHalf
    dsimp only
    split
    · rfl
    · rfl
  refine ⟨?_, ?_, ?_⟩
  · rw [hout, List.length_append, hlen]
  · change (y.count - numSamples board cmd y.count).toNat + _ = _
    omega
  · unfold readHalf
    dsimp only
    by_cases hlast : y.count - numSamples board cmd y.count = 0
    · rw [if_pos ⟨hcounts, hlast⟩]
      exact iff_of_true (raise_eoa (hadds.events.trans hevents)) hlast
    · rw [if_neg fun hboth => hlast hboth.2]
      exact iff_of_false (not_completes (hadds.events.trans hevents)) hlast

/-- An orderly interrupt reads what it demands. -/
theorem interrupt_reads (hcounts : counts cmd) (h : Orderly board cmd y r) :
    Reads (demand board cmd y r) y (interrupt board cmd y r) := by
  obtain ⟨hpos, hkept, hroom⟩ := h
  have hclear : (0 : U32) &&& endBits = 0 := by decide
  unfold interrupt
  dsimp only
  rw [if_neg (not_not.mpr hkept)]
  unfold serve demand at *
  split at hroom
  next hhalf =>
    rw [if_pos hhalf, if_pos hhalf]
    have hreads := @readHalf_reads board cmd
      { y with sink := { y.sink with free := r.free, events := 0 } } r hcounts hclear hroom
    exact ⟨hreads.out, hreads.count, hreads.ended⟩
  next hhalf =>
    rw [if_neg hhalf, if_neg hhalf]
    split at hroom
    next hfull =>
      rw [if_pos hfull, if_pos hfull]
      have hlen : ((List.range (min timeout r.notEmpty)).map r.word).length =
          min timeout r.notEmpty := by
        rw [List.length_map, List.length_range]
      have hreads := @drain_reads cmd
        { y with sink := { y.sink with free := r.free, events := 0 } } hcounts
        ((List.range (min timeout r.notEmpty)).map r.word) hpos hclear (hlen.symm ▸ hroom)
      rw [hlen] at hreads
      exact ⟨hreads.out, hreads.count, hreads.ended⟩
    next hfull =>
      rw [if_neg hfull, if_neg hfull]
      exact ⟨rfl, rfl, iff_of_false (not_completes hclear) hpos⟩

/-- The samples that were written, and those that are still wanted. -/
theorem Run.count (hcounts : counts cmd) (htotal : total cmd < 2 ^ 32)
    (h : Run board cmd left y) : y.sink.out.length + y.count.toNat = total cmd := by
  induction h with
  | start =>
    have hcount : (aiCmd cmd left).count = cmd.chanlistLen * cmd.stopArg := if_pos hcounts
    have hsink : (aiCmd cmd left).sink.out.length = 0 := rfl
    rw [hcount, hsink, BitVec.toNat_mul, Nat.zero_add]
    exact Nat.mod_eq_of_lt htotal
  | interrupt hrun horderly ih =>
    have hreads := interrupt_reads hcounts horderly
    have hout := hreads.out
    have hcount := hreads.count
    omega

theorem Run.complete (hcounts : counts cmd) (htotal : total cmd < 2 ^ 32)
    (h : Run board cmd left y) : y.sink.out.length ≤ total cmd ∧
      ∀ r, Orderly board cmd y r → (Completes (Pcidas.interrupt board cmd y r).sink.events ↔
        (Pcidas.interrupt board cmd y r).sink.out.length = total cmd) := by
  have hcount := h.count hcounts htotal
  refine ⟨by omega, fun r horderly => ?_⟩
  have hnext := (h.interrupt horderly).count hcounts htotal
  rw [(interrupt_reads hcounts horderly).ended]
  constructor
  · intro hzero
    rw [hzero] at hnext
    exact hnext
  · intro hall
    apply BitVec.eq_of_toNat_eq
    change _ = 0
    omega

end Counting

section Commands

/-- Scans of two samples on external pulses, the first one with its level to the ground. -/
def twoChannels (aref : U32) : AiTest :=
  { cmd :=
      { startSrc := trigNow, scanBeginSrc := trigFollow, convertSrc := trigExt,
        scanEndSrc := trigCount, scanEndArg := 2, stopSrc := trigCount, stopArg := 1,
        chanlist := .kernel [0, aref <<< 24 ||| 1], chanlistLen := 2 } }

def pcidas1602 : CbPcidasBoard :=
  { aiSpeed := 5000, aoNchan := 2, hasAoFifo := true, aoScanSpeed := 10000, fifoSize := 512,
    hasAiTrigInvert := true }

theorem pcidas1602_mem : pcidas1602 ∈ cbPcidasBoards := List.mem_cons_self

theorem listed_twoChannels (aref : U32) (h : crChan (aref <<< 24 ||| 1) < 16 ∧
    crRange (aref <<< 24 ||| 1) < 8) : Listed pcidas1602 (twoChannels aref).cmd where
  some := Chanlist.noConfusion
  pos := (by decide : 0 < (2 : U32).toNat)
  le := (by decide : (2 : U32) ≤ 16)
  chan i hi := by
    have hcases : i = 0 ∨ i = 1 := by
      change i < 2 at hi
      omega
    rcases hcases with rfl | rfl
    · exact (by decide : (crChan 0 : U32) < 16)
    · exact h.1
  range i hi := by
    have hcases : i = 0 ∨ i = 1 := by
      change i < 2 at hi
      omega
    rcases hcases with rfl | rfl
    · exact (by decide : (crRange 0 : U32) < 8)
    · exact h.2

end Commands

end Comedi.PcidasSamples
