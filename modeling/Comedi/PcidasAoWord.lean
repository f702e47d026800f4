import Comedi.PcidasAo
import Comedi.PcidasSamples

namespace Comedi.PcidasAoWord

open ChanlistCheck Pcidas PcidasAo
open FakeWaveform (chanspec)
open PcidasSamples (total other_field own_field)
open Pci230 (trigExt)
open RtTimer (trigNone trigTimer trigCount cmdtestHelper)

variable {board : CbPcidasBoard} {cmd : Cmd} {st : Ao} {bits source word : U32}

section Word

/-- The control word enables the channels of a command and no others, with their ranges, and has
the pacer of its scans. -/
structure Exact (cmd : Cmd) (word : U32) : Prop where
  enabled : ∀ c < 2, word &&& dacChanEn c ≠ 0 ↔ ∃ e ∈ entries cmd, crChan e = c
  range : ∀ e ∈ entries cmd,
    word &&& dacRangeMask (crChan e) = dacRange (crChan e) (crRange e)
  pacer : pacer cmd = some (word &&& dacPacerMask)

/-- What is left in the control word is part of what a command sets. -/
structure Clean (cmd : Cmd) (bits : U32) : Prop where
  enabled : ∀ c < 2, bits &&& dacChanEn c ≠ 0 → ∃ e ∈ entries cmd, crChan e = c
  range : ∀ e ∈ entries cmd,
    bits &&& dacRangeMask (crChan e) &&& ~~~dacRange (crChan e) (crRange e) = 0
  pacer : ∀ source, PcidasAo.pacer cmd = some source → bits &&& dacPacerMask &&& ~~~source = 0

/-- What the core checks of a channel list. -/
structure Listed (cmd : Cmd) : Prop where
  some : cmd.chanlist ≠ .null
  pos : 0 < cmd.chanlistLen.toNat
  le : cmd.chanlistLen.toNat ≤ 2
  chan : ∀ i < cmd.chanlistLen.toNat, crChan (chanspec cmd i) < 2

/-- What the entries of a command set. -/
def wanted (cmd : Cmd) : U32 := (entries cmd).foldl enable 0

def started : U32 := dacStart ||| dacen ||| dacEmpty

theorem foldl_enable (l : List U32) (bits : U32) :
    l.foldl enable bits = bits ||| l.foldl enable 0 := by
  induction l generalizing bits with
  | nil => exact BitVec.or_zero.symm
  | cons e l ih =>
    rw [List.foldl_cons, List.foldl_cons, ih, ih (enable 0 e)]
    unfold enable
    have hzero : (0 : U32) ||| dacChanEn (crChan e) = dacChanEn (crChan e) := BitVec.zero_or
    rw [hzero]
    simp only [BitVec.or_assoc]

theorem chan_cases {c : U32} (h : c < 2) : c = 0 ∨ c = 1 := by
  have hlt : c.toNat < 2 := h
  rcases (by omega : c.toNat = 0 ∨ c.toNat = 1) with hc | hc
  · exact .inl (BitVec.eq_of_toNat_eq hc)
  · exact .inr (BitVec.eq_of_toNat_eq hc)

/-- One channel, or both of them in order. -/
theorem entries_cases (hlist : Listed cmd) (hgood : ¬ badChanlist cmd) :
    (∃ e, entries cmd = [e] ∧ (crChan e = 0 ∨ crChan e = 1)) ∨
      ∃ e e', entries cmd = [e, e'] ∧ crChan e = 0 ∧ crChan e' = 1 := by
  obtain ⟨hsome, hpos, hle, hchan⟩ := hlist
  unfold entries
  rcases (by omega : cmd.chanlistLen.toNat = 1 ∨ cmd.chanlistLen.toNat = 2) with hlen | hlen
  · left
    rw [hlen]
    exact ⟨chanspec cmd 0, rfl, chan_cases (hchan 0 hpos)⟩
  · right
    rw [hlen]
    have hmore : 1 < cmd.chanlistLen := by
      change (1 : U32).toNat < cmd.chanlistLen.toNat
      rw [hlen]
      decide
    refine ⟨chanspec cmd 0, chanspec cmd 1, rfl, ?_, ?_⟩
    · by_contra hne
      exact hgood ⟨hsome, hmore, .inl hne⟩
    · by_contra hne
      exact hgood ⟨hsome, hmore, .inr hne⟩

theorem dacRange_low (c r : U32) : dacRange c (r &&& 3) = dacRange c r := by
  unfold dacRange
  rw [BitVec.and_assoc]
  rfl

theorem low_cases (r : U32) : ∃ k : Fin 4, r &&& 3 = BitVec.ofNat 32 k.val := by
  have hlt : (r &&& 3).toNat < 4 := by
    rw [BitVec.toNat_and]
    exact Nat.lt_of_le_of_lt Nat.and_le_right (by decide)
  refine ⟨⟨(r &&& 3).toNat, hlt⟩, ?_⟩
  rw [BitVec.ofNat_toNat, BitVec.setWidth_eq]

/-- What one entry sets, whatever else is in the word. -/
theorem enable_fields (r : U32) (x : Fin 2) :
    let c : U32 := BitVec.ofNat 32 x.val
    let other : U32 := BitVec.ofNat 32 (1 - x.val)
    let own := dacChanEn c ||| dacRange c r
    own &&& dacChanEn c = dacChanEn c ∧ own &&& dacChanEn other = 0 ∧
      own &&& dacRangeMask c = dacRange c r ∧ own &&& dacRangeMask other = 0 ∧
      own &&& dacPacerMask = 0 := by
  have hall : ∀ (x : Fin 2) (k : Fin 4),
      let c : U32 := BitVec.ofNat 32 x.val
      let r : U32 := BitVec.ofNat 32 k.val
      let other : U32 := BitVec.ofNat 32 (1 - x.val)
      let own := dacChanEn c ||| dacRange c r
      own &&& dacChanEn c = dacChanEn c ∧ own &&& dacChanEn other = 0 ∧
        own &&& dacRangeMask c = dacRange c r ∧ own &&& dacRangeMask other = 0 ∧
        own &&& dacPacerMask = 0 := by decide
  obtain ⟨k, hk⟩ := low_cases r
  have hcase := hall x k
  dsimp only at hcase ⊢
  rwa [← hk, dacRange_low] at hcase

/-- The fields of what a command sets. -/
structure Sets (cmd : Cmd) (own : U32) : Prop where
  enabled : ∀ c < 2, own &&& dacChanEn c ≠ 0 ↔ ∃ e ∈ entries cmd, crChan e = c
  range : ∀ e ∈ entries cmd, own &&& dacRangeMask (crChan e) = dacRange (crChan e) (crRange e)
  pacer : own &&& dacPacerMask = 0

theorem dacChanEn_ne_zero {c : U32} (h : c < 2) : dacChanEn c ≠ 0 := by
  rcases chan_cases h with rfl | rfl <;> decide

theorem sets_one {e : U32} (hentries : entries cmd = [e]) (h : crChan e = 0 ∨ crChan e = 1) :
    Sets cmd (dacChanEn (crChan e) ||| dacRange (crChan e) (crRange e)) := by
  have hmem : ∀ e', e' ∈ entries cmd ↔ e' = e := by
    rw [hentries]
    exact fun _ => List.mem_singleton
  have hfields : ∃ other : U32, (∀ c < 2, c = crChan e ∨ c = other) ∧ other ≠ crChan e ∧
      let own := dacChanEn (crChan e) ||| dacRange (crChan e) (crRange e)
      own &&& dacChanEn (crChan e) = dacChanEn (crChan e) ∧ own &&& dacChanEn other = 0 ∧
        own &&& dacRangeMask (crChan e) = dacRange (crChan e) (crRange e) ∧
        own &&& dacRangeMask other = 0 ∧ own &&& dacPacerMask = 0 := by
    rcases h with hchan | hchan
    · rw [hchan]
      exact ⟨1, fun c hc => chan_cases hc, by decide, enable_fields (crRange e) 0⟩
    · rw [hchan]
      exact ⟨0, fun c hc => (chan_cases hc).symm, by decide, enable_fields (crRange e) 1⟩
  obtain ⟨other, hcases, hne, hen, hother, hrange, -, hpacer⟩ := hfields
  refine ⟨fun c hc => ?_, fun e' he' => ?_, hpacer⟩
  · rcases hcases c hc with rfl | rfl
    · rw [hen]
      exact iff_of_true (dacChanEn_ne_zero hc) ⟨e, (hmem e).mpr rfl, rfl⟩
    · rw [hother]
      refine iff_of_false (not_not.mpr rfl) ?_
      rintro ⟨e', he', heq⟩
      rw [(hmem e').mp he'] at heq
      exact hne heq.symm
  · rw [(hmem e').mp he']
    exact hrange

theorem sets_two {e e' : U32} (hentries : entries cmd = [e, e']) (h : crChan e = 0)
    (h' : crChan e' = 1) : Sets cmd (dacChanEn 0 ||| dacRange 0 (crRange e) |||
      (dacChanEn 1 ||| dacRange 1 (crRange e'))) := by
  obtain ⟨hen, hother, hrange, hrange', hpacer⟩ := enable_fields (crRange e) 0
  obtain ⟨hen1, hother1, hrange1, hrange1', hpacer1⟩ := enable_fields (crRange e') 1
  change (dacChanEn 0 ||| dacRange 0 (crRange e)) &&& dacChanEn 0 = dacChanEn 0 at hen
  change (dacChanEn 0 ||| dacRange 0 (crRange e)) &&& dacChanEn 1 = 0 at hother
  change (dacChanEn 0 ||| dacRange 0 (crRange e)) &&& dacRangeMask 0 = _ at hrange
  change (dacChanEn 0 ||| dacRange 0 (crRange e)) &&& dacRangeMask 1 = 0 at hrange'
  change (dacChanEn 0 ||| dacRange 0 (crRange e)) &&& dacPacerMask = 0 at hpacer
  change (dacChanEn 1 ||| dacRange 1 (crRange e')) &&& dacChanEn 1 = dacChanEn 1 at hen1
  change (dacChanEn 1 ||| dacRange 1 (crRange e')) &&& dacChanEn 0 = 0 at hother1
  change (dacChanEn 1 ||| dacRange 1 (crRange e')) &&& dacRangeMask 1 = _ at hrange1
  change (dacChanEn 1 ||| dacRange 1 (crRange e')) &&& dacRangeMask 0 = 0 at hrange1'
  change (dacChanEn 1 ||| dacRange 1 (crRange e')) &&& dacPacerMask = 0 at hpacer1
  have hmem : ∀ e'', e'' ∈ entries cmd ↔ e'' = e ∨ e'' = e' := by
    rw [hentries]
    simp
  refine ⟨fun c hc => ?_, fun e'' he'' => ?_, ?_⟩
  · rcases chan_cases hc with rfl | rfl
    · rw [BitVec.and_or_distrib_right, hen, hother1]
      exact iff_of_true (by decide) ⟨e, (hmem e).mpr (.inl rfl), h⟩
    · rw [BitVec.and_or_distrib_right, hother, hen1]
      exact iff_of_true (by decide) ⟨e', (hmem e').mpr (.inr rfl), h'⟩
  · rcases (hmem e'').mp he'' with rfl | rfl
    · rw [h, BitVec.and_or_distrib_right, hrange, hrange1']
      exact BitVec.or_zero
    · rw [h', BitVec.and_or_distrib_right, hrange', hrange1]
      exact BitVec.zero_or
  · rw [BitVec.and_or_distrib_right, hpacer, hpacer1]
    rfl

theorem sets_wanted (hlist : Listed cmd) (hgood : ¬ badChanlist cmd) :
    Sets cmd (wanted cmd) := by
  have hzero : ∀ v : U32, 0 ||| v = v := fun _ => BitVec.zero_or
  unfold wanted
  rcases entries_cases hlist hgood with ⟨e, hentries, hchan⟩ | ⟨e, e', hentries, hchan, hchan'⟩
  · have hsets := sets_one hentries hchan
    rw [hentries]
    change Sets cmd (0 ||| dacChanEn (crChan e) ||| _)
    rw [hzero]
    exact hsets
  · have hsets := sets_two hentries hchan hchan'
    rw [hentries]
    change Sets cmd (0 ||| dacChanEn (crChan e) ||| _ ||| dacChanEn (crChan e') ||| _)
    rw [hzero, hchan, hchan', BitVec.or_assoc]
    exact hsets

theorem pacer_cases (h : pacer cmd = some source) :
    source = dacPacerInt ∨ source = dacPacerExtRise := by
  unfold pacer at h
  split at h
  · exact .inl (Option.some.inj h).symm
  split at h
  · exact .inr (Option.some.inj h).symm
  · exact absurd h nofun

/-- Bits that lie among others do not change them. -/
theorem or_of_among {x y : U32} (h : x &&& ~~~y = 0) : x ||| y = y := by
  apply BitVec.eq_of_getLsbD_eq
  intro i hi
  have hbit : (x &&& ~~~y).getLsbD i = false := by
    rw [h]
    exact BitVec.getLsbD_zero
  rw [BitVec.getLsbD_and, BitVec.getLsbD_not] at hbit
  rw [BitVec.getLsbD_or]
  cases hx : x.getLsbD i <;> cases hy : y.getLsbD i <;> simp_all

/-- A command that finds nothing else in the control word is started with a word of its own. -/
theorem exact_of_clean (hlist : Listed cmd) (hgood : ¬ badChanlist cmd)
    (hsource : pacer cmd = some source) (hclean : Clean cmd bits) :
    Exact cmd (bits ||| wanted cmd ||| source ||| started) := by
  have hsets := sets_wanted hlist hgood
  have hor : ∀ v : U32, v ||| 0 = v := fun _ => BitVec.or_zero
  have hnone : (source &&& dacChanEn 0 = 0 ∧ source &&& dacChanEn 1 = 0) ∧
      (source &&& dacRangeMask 0 = 0 ∧ source &&& dacRangeMask 1 = 0) ∧
      source &&& dacPacerMask = source := by
    rcases pacer_cases hsource with rfl | rfl <;> decide
  have hstart : (started &&& dacChanEn 0 = 0 ∧ started &&& dacChanEn 1 = 0) ∧
      (started &&& dacRangeMask 0 = 0 ∧ started &&& dacRangeMask 1 = 0) ∧
      started &&& dacPacerMask = 0 := by decide
  have hsplit : ∀ m, source &&& m = 0 → started &&& m = 0 →
      (bits ||| wanted cmd ||| source ||| started) &&& m = bits &&& m ||| wanted cmd &&& m := by
    intro m hm hm'
    rw [BitVec.and_or_distrib_right, BitVec.and_or_distrib_right, BitVec.and_or_distrib_right, hm,
      hm', hor, hor]
  refine ⟨fun c hc => ?_, fun e he => ?_, ?_⟩
  · have hfield : (bits ||| wanted cmd ||| source ||| started) &&& dacChanEn c =
        bits &&& dacChanEn c ||| wanted cmd &&& dacChanEn c := by
      rcases chan_cases hc with rfl | rfl
      · exact hsplit _ hnone.1.1 hstart.1.1
      · exact hsplit _ hnone.1.2 hstart.1.2
    rw [hfield, ← hsets.enabled c hc]
    constructor
    · intro hne hzero
      by_cases hbits : bits &&& dacChanEn c = 0
      · rw [hbits, hzero] at hne
        exact hne (by decide)
      · exact (hsets.enabled c hc).mpr (hclean.enabled c hc hbits) hzero
    · intro hne hzero
      exact hne (BitVec.or_eq_zero_iff.mp hzero).2
  · have hchan : crChan e < 2 := by
      obtain ⟨i, hi, rfl⟩ := List.mem_map.mp he
      exact hlist.chan i (List.mem_range.mp hi)
    have hfield : (bits ||| wanted cmd ||| source ||| started) &&& dacRangeMask (crChan e) =
        bits &&& dacRangeMask (crChan e) ||| wanted cmd &&& dacRangeMask (crChan e) := by
      rcases chan_cases hchan with hc | hc <;> rw [hc]
      · exact hsplit _ hnone.2.1.1 hstart.2.1.1
      · exact hsplit _ hnone.2.1.2 hstart.2.1.2
    rw [hfield, hsets.range e he]
    exact or_of_among (hclean.range e he)
  · rw [BitVec.and_or_distrib_right, BitVec.and_or_distrib_right, BitVec.and_or_distrib_right,
      hsets.pacer, hnone.2.2, hstart.2.2, hor, hor, or_of_among (hclean.pacer source hsource)]
    exact hsource

end Word

section Accepted

variable {x : AiTest}

/-- What an accepted command is like. -/
structure Accepted (cmd : Cmd) : Prop where
  chanlist : ¬ PcidasAo.badChanlist cmd
  pacer : ∃ source, PcidasAo.pacer cmd = some source

theorem fix_kept {bad : Prop} [Decidable bad] {fixed : Cmd}
    (h : (ComediTest.fix bad fixed cmd).1 = false) : (ComediTest.fix bad fixed cmd).2 = cmd := by
  unfold ComediTest.fix at h ⊢
  split at h
  · exact absurd h.symm Bool.false_ne_true
  next hgood => rw [if_neg hgood]

theorem fixArgs_kept (h : (PcidasAo.fixArgs board cmd).1 = false) :
    (PcidasAo.fixArgs board cmd).2 = cmd := by
  unfold PcidasAo.fixArgs at h ⊢
  simp only [Bool.or_eq_false_iff] at h
  obtain ⟨⟨⟨hstart, hscan⟩, hend⟩, hstop⟩ := h
  have h1 := fix_kept hstart
  rw [h1] at hscan hend hstop
  have h2 : (slowScan board cmd).2 = cmd := fix_kept hscan
  rw [h2] at hend hstop
  have h3 : (fixScanEnd cmd).2 = cmd := fix_kept hend
  rw [h3] at hstop
  have h4 : (fixStop cmd).2 = cmd := fix_kept hstop
  dsimp only
  rw [h1, h2, h3, h4]

theorem roundScanBegin_kept (h : (roundScanBegin x).1 = false) :
    (roundScanBegin x).2.cmd = x.cmd := by
  unfold roundScanBegin at h ⊢
  by_cases htimer : x.cmd.scanBeginSrc = trigTimer
  · rw [if_pos htimer] at h ⊢
    have hsame : x.cmd.scanBeginArg = (pace x x.cmd.scanBeginArg).nanosec := by
      simpa using h
    dsimp only
    rw [← hsame]
  · rw [if_neg htimer]

theorem pacer_of_sources (h : ¬ PcidasAo.badSources cmd) : ∃ source, pacer cmd = some source := by
  unfold pacer
  by_cases htimer : cmd.scanBeginSrc = trigTimer
  · exact ⟨_, if_pos htimer⟩
  · by_cases hext : cmd.scanBeginSrc = trigExt
    · rw [if_neg htimer]
      exact ⟨_, if_pos hext⟩
    · exact absurd (.inl ⟨htimer, hext⟩) h

/-- A command that is accepted is left as it is. -/
theorem accepted_of_test (h : (cbPcidasAoCmdtest board x).1 = 0) :
    (cbPcidasAoCmdtest board x).2.cmd = x.cmd ∧ Accepted x.cmd := by
  by_cases hmasked : (PcidasAo.maskSources x.cmd).1 = true
  · unfold cbPcidasAoCmdtest at h
    dsimp only at h
    rw [if_pos hmasked] at h
    exact absurd h one_ne_zero
  have hmask : (PcidasAo.maskSources x.cmd).2 = x.cmd :=
    RtTimer.cmdtestHelper_ok (Bool.eq_false_iff.mpr hmasked)
  unfold cbPcidasAoCmdtest at h ⊢
  dsimp only at h ⊢
  rw [if_neg hmasked, hmask] at h ⊢
  by_cases hsources : PcidasAo.badSources x.cmd
  · rw [if_pos hsources] at h
    exact absurd h two_ne_zero
  rw [if_neg hsources] at h ⊢
  by_cases hargs : (PcidasAo.fixArgs board x.cmd).1 = true
  · rw [if_pos hargs] at h
    exact absurd h three_ne_zero
  have hkept := fixArgs_kept (Bool.eq_false_iff.mpr hargs)
  rw [if_neg hargs, hkept] at h ⊢
  by_cases hround : (roundScanBegin { x with cmd := x.cmd }).1 = true
  · rw [if_pos hround] at h
    exact absurd h four_ne_zero
  have hsame := roundScanBegin_kept (Bool.eq_false_iff.mpr hround)
  rw [if_neg hround] at h ⊢
  by_cases hlist : PcidasAo.badChanlist (roundScanBegin { x with cmd := x.cmd }).2.cmd
  · rw [if_pos hlist] at h
    exact absurd h (by decide : (5 : Int) ≠ 0)
  rw [if_neg hlist]
  rw [hsame] at hlist
  exact ⟨hsame, hlist, pacer_of_sources hsources⟩

end Accepted

end Comedi.PcidasAoWord
