import Comedi.A2150
import Comedi.ComediTestAmends

namespace Comedi.A2150Lists

open A2150 ChanlistCheck
open ComediTest (fix fixStart fixChanlistLen fixScanEnd fixStop)
open ComediTestAmends (fix_kept maskSrc_bit)
open FakeWaveform (entriesOf)
open Pci230 (trigExt crAref)
open RtTimer (maskSrc trigNone trigNow trigTimer trigCount)

/-- `chanlist` is memory of `chanlist_len` entries. -/
def Owns (cmd : Cmd) : Prop := (entriesOf cmd.chanlist).length = cmd.chanlistLen.toNat

def arefAt (cmd : Cmd) (i : Nat) : U32 := crAref ((entriesOf cmd.chanlist).getD i 0)

/-- There is one result, whatever lies behind the list, even where nothing can be read there. -/
def OwnReads {α : Type} (f : Behind → Option α) : Prop := ∃ r, ∀ behind, f behind = some r

/-- The first four steps of `a2150_ai_cmdtest` find no error. -/
structure Reaches (board : A2150Board) (p : Private) (cmd : Cmd) : Prop where
  masked : (maskSources cmd).1 = false
  sources : ¬ badSources cmd
  args : (fixArgs board cmd).1 = false
  rounded : (roundArgs board p cmd).1 = false

/-- The sources are the board's, and the arguments need no change. -/
structure Valid (board : A2150Board) (cmd : Cmd) : Prop where
  startSrc : cmd.startSrc = trigNow ∨ cmd.startSrc = trigExt
  scanBeginSrc : cmd.scanBeginSrc = trigTimer
  convertSrc : cmd.convertSrc = trigNow
  scanEndSrc : cmd.scanEndSrc = trigCount
  stopSrc : cmd.stopSrc = trigCount ∨ cmd.stopSrc = trigNone
  startArg : cmd.startArg = 0
  scanBeginArg : (timing board cmd.scanBeginArg cmd.flags).1 = cmd.scanBeginArg
  chanlistLen : cmd.chanlistLen ≠ 0
  scanEndArg : cmd.scanEndArg = cmd.chanlistLen
  stopArg : if cmd.stopSrc = trigCount then cmd.stopArg ≠ 0 else cmd.stopArg = 0

/-- The fifth step needs the fourth entry, or the second one where the references of the first
two differ. -/
def TestFits (cmd : Cmd) : Prop :=
  cmd.chanlistLen.toNat = 4 ∨ 2 ≤ cmd.chanlistLen.toNat ∧ arefAt cmd 0 ≠ arefAt cmd 1

/-- The channels that `a2150_set_chanlist` takes, where the list has one or two. -/
def OneOrTwo (cmd : Cmd) : Prop :=
  let start := (crChan ((entriesOf cmd.chanlist).getD 0 0)).toNat
  cmd.chanlistLen.toNat = 1 ∧ start < 4 ∨ cmd.chanlistLen.toNat = 2 ∧ (start = 0 ∨ start = 2)

/-- `a2150_ai_cmd` comes to the coupling, for which it looks at the third entry. -/
structure Couples (p : Private) (cmd : Cmd) : Prop where
  irq : p.irq ≠ 0
  dma : p.dma ≠ 0
  flags : cmd.flags &&& trigRt = 0
  chanlist : OneOrTwo cmd

variable {board : A2150Board} {p p' : Private} {cmd cmd' : Cmd} {behind : Behind} {i : Nat}
  {x : Acq}

theorem entryAt_of_lt (hi : i < (entriesOf cmd.chanlist).length) :
    entryAt cmd behind i = some ((entriesOf cmd.chanlist).getD i 0) := by
  unfold entryAt
  rw [List.getD_eq_getElem?_getD, List.getElem?_eq_getElem hi]
  rfl

theorem entryAt_of_ge (hi : (entriesOf cmd.chanlist).length ≤ i) :
    entryAt cmd behind i = behind (i - (entriesOf cmd.chanlist).length) := by
  unfold entryAt
  rw [List.getElem?_eq_none hi]

theorem fix_fst_eq_false {bad : Prop} [Decidable bad] {fixed cmd : Cmd} :
    (fix bad fixed cmd).1 = false ↔ ¬ bad := by
  unfold fix
  split
  · next h => exact iff_of_false nofun (not_not.mpr h)
  · next h => exact iff_of_true rfl h

theorem fixStop_eq_false :
    (fixStop cmd).1 = false ↔ if cmd.stopSrc = trigCount then cmd.stopArg ≠ 0
      else cmd.stopArg = 0 := by
  unfold fixStop
  split
  · exact fix_fst_eq_false
  · exact fix_fst_eq_false.trans not_not

theorem fixStop_kept (h : (fixStop cmd).1 = false) : (fixStop cmd).2 = cmd := by
  unfold fixStop at h ⊢
  split
  · next hcount =>
    rw [if_pos hcount] at h
    exact fix_kept h
  · next hcount =>
    rw [if_neg hcount] at h
    exact fix_kept h

/-- Step 3 finds no error just if no argument needs a change. -/
structure ArgsRight (board : A2150Board) (cmd : Cmd) : Prop where
  start : (fixStart cmd).1 = false
  convert : (slowConvert board cmd).1 = false
  chanlistLen : (fixChanlistLen cmd).1 = false
  scanEnd : (fixScanEnd cmd).1 = false
  stop : (fixStop cmd).1 = false

theorem ArgsRight.fixArgs_eq (h : ArgsRight board cmd) : fixArgs board cmd = (false, cmd) := by
  have hstart : fixStart cmd = (false, cmd) := Prod.ext h.start (fix_kept h.start)
  have hconvert : slowConvert board cmd = (false, cmd) := Prod.ext h.convert (fix_kept h.convert)
  have hlen : fixChanlistLen cmd = (false, cmd) :=
    Prod.ext h.chanlistLen (fix_kept h.chanlistLen)
  have hscanEnd : fixScanEnd cmd = (false, cmd) := Prod.ext h.scanEnd (fix_kept h.scanEnd)
  have hstop : fixStop cmd = (false, cmd) := Prod.ext h.stop (fixStop_kept h.stop)
  unfold fixArgs
  dsimp only
  rw [hstart]
  dsimp only
  rw [hconvert]
  dsimp only
  rw [hlen]
  dsimp only
  rw [hscanEnd]
  dsimp only
  rw [hstop]
  rfl

theorem argsRight_of_fixArgs (h : (fixArgs board cmd).1 = false) : ArgsRight board cmd := by
  unfold fixArgs at h
  simp only [Bool.or_eq_false_iff] at h
  obtain ⟨⟨⟨⟨hstart, hconvert⟩, hlen⟩, hscanEnd⟩, hstop⟩ := h
  have hs : (fixStart cmd).2 = cmd := fix_kept hstart
  rw [hs] at hconvert hlen hscanEnd hstop
  have hc : (slowConvert board cmd).2 = cmd := fix_kept hconvert
  rw [hc] at hlen hscanEnd hstop
  have hl : (fixChanlistLen cmd).2 = cmd := fix_kept hlen
  rw [hl] at hscanEnd hstop
  have he : (fixScanEnd cmd).2 = cmd := fix_kept hscanEnd
  rw [he] at hstop
  exact ⟨hstart, hconvert, hlen, hscanEnd, hstop⟩

theorem roundArgs_kept (h : (roundArgs board p cmd).1 = false) :
    (roundArgs board p cmd).2.1 = cmd := by
  unfold roundArgs at h ⊢
  split
  · next hsrc =>
    rw [if_pos hsrc] at h
    dsimp only at h ⊢
    rw [← not_not.mp (of_decide_eq_false h)]
  · rfl

theorem roundArgs_eq_false (hsrc : cmd.scanBeginSrc = trigTimer) :
    (roundArgs board p cmd).1 = false ↔
      (timing board cmd.scanBeginArg cmd.flags).1 = cmd.scanBeginArg := by
  unfold roundArgs
  rw [if_pos hsrc]
  exact decide_eq_false_iff_not.trans (not_not.trans eq_comm)

theorem reaches_iff : Reaches board p cmd ↔ Valid board cmd := by
  constructor
  · intro h
    have hmasked := h.masked
    have hsources := h.sources
    have hargs := argsRight_of_fixArgs h.args
    unfold maskSources RtTimer.cmdtestHelper at hmasked
    simp only [Bool.or_eq_false_iff] at hmasked
    obtain ⟨⟨⟨⟨-, hscanBegin⟩, hconvert⟩, hscanEnd⟩, -⟩ := hmasked
    have hscanBegin : cmd.scanBeginSrc = trigTimer := @maskSrc_bit _ 4 hscanBegin
    unfold badSources at hsources
    rw [not_or, not_and_or, not_and_or, not_not, not_not, not_not, not_not] at hsources
    exact {
      startSrc := hsources.1
      scanBeginSrc := hscanBegin
      convertSrc := @maskSrc_bit _ 1 hconvert
      scanEndSrc := @maskSrc_bit _ 5 hscanEnd
      stopSrc := hsources.2
      startArg := not_not.mp (fix_fst_eq_false.mp hargs.start)
      scanBeginArg := (roundArgs_eq_false hscanBegin).mp h.rounded
      chanlistLen := fix_fst_eq_false.mp hargs.chanlistLen
      scanEndArg := not_not.mp (fix_fst_eq_false.mp hargs.scanEnd)
      stopArg := fixStop_eq_false.mp hargs.stop }
  · intro h
    have hargs : ArgsRight board cmd := {
      start := fix_fst_eq_false.mpr (not_not.mpr h.startArg)
      convert := fix_fst_eq_false.mpr fun hc => by
        have htimer := hc.1
        rw [h.convertSrc] at htimer
        exact absurd htimer (by decide)
      chanlistLen := fix_fst_eq_false.mpr h.chanlistLen
      scanEnd := fix_fst_eq_false.mpr (not_not.mpr h.scanEndArg)
      stop := fixStop_eq_false.mpr h.stopArg }
    refine ⟨?_, ?_, congrArg Prod.fst hargs.fixArgs_eq,
      (roundArgs_eq_false h.scanBeginSrc).mpr h.scanBeginArg⟩
    · unfold maskSources RtTimer.cmdtestHelper
      dsimp only
      rw [h.scanBeginSrc, h.convertSrc, h.scanEndSrc]
      rcases h.startSrc with hstart | hstart <;> rcases h.stopSrc with hstop | hstop <;>
        rw [hstart, hstop] <;> rfl
    · unfold badSources
      rintro (⟨hnow, hext⟩ | ⟨hcount, hnone⟩)
      · exact h.startSrc.elim hnow hext
      · exact h.stopSrc.elim hcount hnone

theorem cmdtest_reaches (h : Reaches board p cmd) :
    a2150AiCmdtest board behind p cmd =
      if cmd.chanlist = .null then some (0, cmd, (roundArgs board p cmd).2.2)
      else (badChanlist cmd behind).map fun bad =>
        (if bad then 5 else 0, cmd, (roundArgs board p cmd).2.2) := by
  have hmask : (maskSources cmd).2 = cmd := RtTimer.cmdtestHelper_ok h.masked
  have hargs : (fixArgs board cmd).2 = cmd :=
    congrArg Prod.snd (argsRight_of_fixArgs h.args).fixArgs_eq
  have hround := roundArgs_kept h.rounded
  have hpair : (roundArgs board p cmd).2 = (cmd, (roundArgs board p cmd).2.2) :=
    Prod.ext hround rfl
  unfold a2150AiCmdtest
  dsimp only
  rw [h.masked, hmask, h.args, hargs, h.rounded, if_neg Bool.false_ne_true, if_neg h.sources,
    if_neg Bool.false_ne_true, if_neg Bool.false_ne_true, hpair]
  split
  · rfl
  · cases badChanlist cmd behind with
    | none => rfl
    | some bad => cases bad <;> rfl

/-- A command that does not come to the fifth step is refused, and its list is not looked at. -/
theorem cmdtest_stops (h : ¬ Reaches board p cmd) :
    ∃ r, r.1 ≠ 0 ∧ ∀ behind, a2150AiCmdtest board behind p cmd = some r := by
  unfold a2150AiCmdtest
  dsimp only
  by_cases hmasked : (maskSources cmd).1 = true
  · refine ⟨_, ?_, fun _ => if_pos hmasked⟩
    exact one_ne_zero
  have hmasked' := Bool.eq_false_iff.mpr hmasked
  have hmask : (maskSources cmd).2 = cmd := RtTimer.cmdtestHelper_ok hmasked'
  simp only [if_neg hmasked, hmask]
  by_cases hsources : badSources cmd
  · refine ⟨_, ?_, fun _ => if_pos hsources⟩
    exact two_ne_zero
  simp only [if_neg hsources]
  by_cases hargs : (fixArgs board cmd).1 = true
  · refine ⟨_, ?_, fun _ => if_pos hargs⟩
    exact three_ne_zero
  have hargs' := Bool.eq_false_iff.mpr hargs
  have hkept : (fixArgs board cmd).2 = cmd :=
    congrArg Prod.snd (argsRight_of_fixArgs hargs').fixArgs_eq
  simp only [if_neg hargs, hkept]
  by_cases hround : (roundArgs board p cmd).1 = true
  · refine ⟨_, ?_, fun _ => if_pos hround⟩
    exact four_ne_zero
  exact absurd ⟨hmasked', hsources, hargs', Bool.eq_false_iff.mpr hround⟩ h

/-- An accepted command is left as it is, and it wants at least one sample. -/
theorem cmdtest_accepts (h : a2150AiCmdtest board behind p cmd = some (0, cmd', p')) :
    cmd' = cmd ∧ cmd.chanlistLen ≠ 0 ∧ (cmd.stopSrc = trigCount → cmd.stopArg ≠ 0) := by
  by_cases hr : Reaches board p cmd
  · have hv := reaches_iff.mp hr
    refine ⟨?_, hv.chanlistLen, fun hcount => ?_⟩
    swap
    · have hstop := hv.stopArg
      rwa [if_pos hcount] at hstop
    rw [cmdtest_reaches hr] at h
    split at h
    · exact (congrArg (fun r => r.2.1) (Option.some.inj h)).symm
    · obtain ⟨bad, -, hbad⟩ := Option.map_eq_some_iff.mp h
      exact (congrArg (fun r => r.2.1) hbad).symm
  · obtain ⟨r, hne, hall⟩ := cmdtest_stops hr
    rw [hall behind] at h
    exact absurd (congrArg Prod.fst (Option.some.inj h)) hne

theorem mapM_entries {n : Nat} (hn : n < (entriesOf cmd.chanlist).length) :
    ((List.range n).mapM fun i => entryAt cmd behind (i + 1)) =
      some ((List.range n).map fun i => (entriesOf cmd.chanlist).getD (i + 1) 0) := by
  have hall : ∀ l : List Nat, (∀ i ∈ l, i + 1 < (entriesOf cmd.chanlist).length) →
      (l.mapM fun i => entryAt cmd behind (i + 1)) =
        some (l.map fun i => (entriesOf cmd.chanlist).getD (i + 1) 0) := by
    intro l hl
    induction l with
    | nil => rfl
    | cons i l ih =>
      rw [List.forall_mem_cons] at hl
      rw [List.mapM_cons, entryAt_of_lt hl.1, ih hl.2]
      rfl
  exact hall _ fun i hi => by
    have := List.mem_range.mp hi
    omega

/-- The part of the fifth step that looks at entries of the list only. -/
def restBad (cmd : Cmd) : Bool :=
  notConsecutive (crChan ((entriesOf cmd.chanlist).getD 0 0))
      ((List.range (cmd.chanlistLen - 1).toNat).map fun i =>
        (entriesOf cmd.chanlist).getD (i + 1) 0) ||
    (cmd.chanlistLen = 2 ∧ crChan ((entriesOf cmd.chanlist).getD 0 0) = 1) || cmd.chanlistLen = 3

theorem badChanlist_eq (ho : Owns cmd) (hlen : 0 < cmd.chanlistLen.toNat) :
    badChanlist cmd behind = (badAref cmd behind).map fun aref => restBad cmd || aref := by
  have hle : (1 : U32) ≤ cmd.chanlistLen := hlen
  have hpred : (cmd.chanlistLen - 1).toNat = cmd.chanlistLen.toNat - 1 := by
    rw [BitVec.toNat_sub_of_le hle]
    rfl
  unfold Owns at ho
  unfold badChanlist
  rw [entryAt_of_lt (by omega), mapM_entries (by omega)]
  cases badAref cmd behind <;> rfl

theorem badAref_own (ho : Owns cmd) (h : TestFits cmd) : OwnReads (badAref cmd) := by
  unfold Owns at ho
  rcases h with hfour | ⟨htwo, hne⟩
  · refine ⟨if arefAt cmd 0 ≠ arefAt cmd 1 then true else arefAt cmd 2 ≠ arefAt cmd 3,
      fun behind => ?_⟩
    unfold badAref
    rw [entryAt_of_lt (by omega), entryAt_of_lt (by omega), entryAt_of_lt (by omega),
      entryAt_of_lt (by omega)]
    change (if arefAt cmd 0 ≠ arefAt cmd 1 then some true
      else some (decide (arefAt cmd 2 ≠ arefAt cmd 3))) = _
    split <;> rfl
  · refine ⟨true, fun behind => ?_⟩
    unfold badAref
    rw [entryAt_of_lt (by omega), entryAt_of_lt (by omega)]
    exact if_pos hne

/-- Where the fifth step looks past the list, it cannot do without what is there. -/
theorem badAref_outside (ho : Owns cmd) (hlen : cmd.chanlistLen.toNat ≤ 4) (h : ¬ TestFits cmd) :
    badAref cmd (fun _ => none) = none := by
  unfold Owns at ho
  unfold TestFits at h
  unfold badAref
  by_cases htwo : 2 ≤ cmd.chanlistLen.toNat
  · have heq : arefAt cmd 0 = arefAt cmd 1 := by
      by_contra hne
      exact h (.inr ⟨htwo, hne⟩)
    rw [entryAt_of_lt (by omega), entryAt_of_lt (by omega)]
    have hthird : entryAt cmd (fun _ => none) 3 = none := entryAt_of_ge (by omega)
    rw [hthird]
    unfold arefAt at heq
    change (if crAref _ ≠ crAref _ then _ else _) = _
    rw [if_neg (not_not.mpr heq)]
    cases entryAt cmd (fun _ => none) 2 <;> rfl
  · have hfirst : entryAt cmd (fun _ => none) 1 = none := entryAt_of_ge (by omega)
    rw [hfirst]
    cases entryAt cmd (fun _ => none) 0 <;> rfl

theorem setChanlist_accepts {start num : U32} (hstart : start.toNat < 65536)
    (hpos : 1 ≤ num.toNat) (htwo : num.toNat ≤ 2) :
    ¬ (a2150SetChanlist p start num).1 < 0 ↔
      num.toNat = 1 ∧ start.toNat < 4 ∨ num.toNat = 2 ∧ (start.toNat = 0 ∨ start.toNat = 2) := by
  have hsum : (start + num).toNat = start.toNat + num.toNat := by
    rw [BitVec.toNat_add]
    omega
  have hlong : 4 < start + num ↔ 4 < start.toNat + num.toNat := by
    rw [BitVec.lt_def, hsum]
    rfl
  have hone : num = 1 ↔ num.toNat = 1 := BitVec.toNat_inj.symm
  have htwo' : num = 2 ↔ num.toNat = 2 := BitVec.toNat_inj.symm
  have hzero : start = 0 ↔ start.toNat = 0 := BitVec.toNat_inj.symm
  have hsecond : start = 2 ↔ start.toNat = 2 := BitVec.toNat_inj.symm
  have hrefused : ¬ ¬ (-1 : Int) < 0 := by decide
  have hdone : ¬ (0 : Int) < 0 := by decide
  unfold a2150SetChanlist
  split
  · next h => exact iff_of_false hrefused (by have := hlong.mp h; omega)
  next h =>
  have hshort := mt hlong.mpr h
  dsimp only
  split
  · next h₁ => exact iff_of_true hdone (by have := hone.mp h₁; omega)
  next h₁ =>
  have hne := mt hone.mpr h₁
  have htwo₁ : num = 2 := htwo'.mpr (by omega)
  rw [if_pos htwo₁]
  have hnum := htwo'.mp htwo₁
  split
  · next hs => exact iff_of_true hdone (by have := hzero.mp hs; omega)
  next hs =>
  have hs' := mt hzero.mpr hs
  split
  · next hs₂ => exact iff_of_true hdone (by have := hsecond.mp hs₂; omega)
  · next hs₂ => exact iff_of_false hrefused (by have := mt hsecond.mpr hs₂; omega)

theorem crChan_lt (a : U32) : (crChan a).toNat < 65536 := by
  unfold crChan
  rw [BitVec.toNat_and]
  exact Nat.lt_of_le_of_lt Nat.and_le_right (by decide)

theorem aiCmd_own_iff (ho : Owns cmd) (hpos : 1 ≤ cmd.chanlistLen.toNat) :
    OwnReads (fun behind => a2150AiCmd board behind x cmd) ↔
      (Couples x.p cmd → 3 ≤ cmd.chanlistLen.toNat) := by
  unfold Owns at ho
  unfold a2150AiCmd
  by_cases hdev : x.p.irq = 0 ∨ x.p.dma = 0
  · refine iff_of_true ⟨_, fun _ => if_pos hdev⟩ (fun h => ?_)
    exact absurd hdev (not_or.mpr ⟨h.irq, h.dma⟩)
  simp only [if_neg hdev]
  by_cases hrt : cmd.flags &&& trigRt ≠ 0
  · exact iff_of_true ⟨_, fun _ => if_pos hrt⟩ (fun h => absurd h.flags hrt)
  simp only [if_neg hrt, entryAt_of_lt (show 0 < (entriesOf cmd.chanlist).length by omega)]
  simp only [Option.bind_eq_bind, Option.bind_some]
  by_cases hset : (a2150SetChanlist (x.p.outw 0 fifoResetReg)
      (crChan ((entriesOf cmd.chanlist).getD 0 0)) cmd.chanlistLen).1 < 0
  · refine iff_of_true ⟨_, fun _ => if_pos hset⟩ (fun h => ?_)
    by_contra hlt
    exact (setChanlist_accepts (crChan_lt _) hpos (by omega)).mpr h.chanlist hset
  simp only [if_neg hset]
  by_cases hlen : 3 ≤ cmd.chanlistLen.toNat
  · refine iff_of_true ?_ (fun _ => hlen)
    simp only [entryAt_of_lt (show 2 < (entriesOf cmd.chanlist).length by omega)]
    exact ⟨_, fun _ => rfl⟩
  · refine iff_of_false ?_ (fun h => hlen (h ?_))
    · rintro ⟨r, hr⟩
      have hnone := hr fun _ => none
      dsimp only at hnone
      rw [entryAt_of_ge (by omega)] at hnone
      exact nomatch hnone
    · refine ⟨fun h => hdev (.inl h), fun h => hdev (.inr h), not_not.mp hrt, ?_⟩
      exact (setChanlist_accepts (crChan_lt _) hpos (by omega)).mp hset

theorem cmdtest_own_iff (ho : Owns cmd) (hpos : 1 ≤ cmd.chanlistLen.toNat)
    (hlen : cmd.chanlistLen.toNat ≤ 4) :
    OwnReads (fun behind => a2150AiCmdtest board behind p cmd) ↔
      (Valid board cmd → TestFits cmd) := by
  have hlist : cmd.chanlist ≠ .null := by
    intro hnull
    unfold Owns at ho
    rw [hnull] at ho
    change 0 = _ at ho
    omega
  by_cases hr : Reaches board p cmd
  · have heq : ∀ behind, a2150AiCmdtest board behind p cmd =
        (badAref cmd behind).map fun aref =>
          (if restBad cmd || aref then 5 else 0, cmd, (roundArgs board p cmd).2.2) := by
      intro behind
      rw [cmdtest_reaches hr, if_neg hlist, badChanlist_eq ho hpos, Option.map_map]
      rfl
    simp only [heq]
    constructor
    · rintro ⟨r, hall⟩ -
      by_contra hfits
      have hnone := hall fun _ => none
      dsimp only at hnone
      rw [badAref_outside ho hlen hfits] at hnone
      exact nomatch hnone
    · intro hfits
      obtain ⟨aref, haref⟩ := badAref_own ho (hfits (reaches_iff.mp hr))
      refine ⟨(if restBad cmd || aref then 5 else 0, cmd, (roundArgs board p cmd).2.2),
        fun behind => ?_⟩
      dsimp only
      rw [haref behind, Option.map_some]
  · obtain ⟨r, -, hall⟩ := @cmdtest_stops board p cmd hr
    exact iff_of_true ⟨r, hall⟩ (fun hv => absurd (reaches_iff.mpr hv) hr)

/-- Both functions keep to the list of the command just if the test does not come to the
references, or the list has what it looks at, and if the command is not started with one or two
channels. -/
theorem own_reads_iff (board : A2150Board) (p : Private) (x : Acq) (cmd : Cmd) (ho : Owns cmd)
    (hpos : 1 ≤ cmd.chanlistLen.toNat) (hlen : cmd.chanlistLen.toNat ≤ 4) :
    (OwnReads (fun behind => a2150AiCmdtest board behind p cmd) ∧
        OwnReads (fun behind => a2150AiCmd board behind x cmd)) ↔
      (Valid board cmd → TestFits cmd) ∧ (Couples x.p cmd → 3 ≤ cmd.chanlistLen.toNat) :=
  and_congr (cmdtest_own_iff ho hpos hlen) (aiCmd_own_iff ho hpos)

def scanOf (entries : List U32) : Cmd where
  startSrc := trigNow
  scanBeginSrc := trigTimer
  scanBeginArg := 31250
  convertSrc := trigNow
  scanEndSrc := trigCount
  scanEndArg := BitVec.ofNat 32 entries.length
  stopSrc := trigCount
  stopArg := 100
  chanlist := .kernel entries
  chanlistLen := BitVec.ofNat 32 entries.length

theorem own_reads_iff_four :
    (OwnReads (fun behind => a2150AiCmdtest a2150c behind {} (scanOf [0, 1, 2, 3])) ∧
        OwnReads (fun behind => a2150AiCmd a2150c behind ⟨{ irq := 3, dma := 1 }, 0, false,
          fun _ => 0, {}⟩ (scanOf [0, 1, 2, 3]))) ↔
      (Valid a2150c (scanOf [0, 1, 2, 3]) → TestFits (scanOf [0, 1, 2, 3])) ∧
        (Couples { irq := 3, dma := 1 } (scanOf [0, 1, 2, 3]) →
          3 ≤ (scanOf [0, 1, 2, 3]).chanlistLen.toNat) :=
  own_reads_iff a2150c {} ⟨{ irq := 3, dma := 1 }, 0, false, fun _ => 0, {}⟩ (scanOf [0, 1, 2, 3])
    rfl (by decide) (by decide)

/-- One channel: with zeros behind the list the command is accepted, with an analog reference
there it is refused. -/
theorem one_channel_depends :
    Owns (scanOf [0]) ∧
      (a2150AiCmdtest a2150c (fun _ => some 0) {} (scanOf [0])).map (·.1) = some 0 ∧
      (a2150AiCmdtest a2150c (fun _ => some 0x3000000) {} (scanOf [0])).map (·.1) = some 5 ∧
      ¬ OwnReads (fun behind => a2150AiCmdtest a2150c behind {} (scanOf [0])) := by
  refine ⟨rfl, by decide +kernel, by decide +kernel, fun ⟨r, h⟩ => ?_⟩
  have hzero : a2150AiCmdtest a2150c (fun _ => none) {} (scanOf [0]) = none := by decide +kernel
  exact nomatch hzero.symm.trans (h fun _ => none)

end Comedi.A2150Lists
