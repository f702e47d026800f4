import Comedi.BitFlags
import Comedi.Pci230AiCmdtest
import Comedi.Retests

namespace Comedi.Pci230AiSettles

open ArgFixes ChanlistCheck Pci230 Pci230AiCmdtest Pci230Timer Retests
open ConfigRetry (trigRoundUp)
open I8253 (trigRoundMask)
open Pcidas (crFlagsMask)
open RtTimer (trigNone trigNow trigFollow trigTimer trigCount trigInt maskSrc cmdtestHelper)

/-- Each source is a single one that the board has, and the conversions of scans that something
begins are timed. -/
structure Supported (board : Pci230Board) (cmd : Cmd) : Prop where
  start : cmd.startSrc = trigNow ∨ cmd.startSrc = trigInt
  scanBegin : cmd.scanBeginSrc = trigFollow ∨ cmd.scanBeginSrc = trigTimer ∨
    cmd.scanBeginSrc = trigInt ∨
      cmd.scanBeginSrc = trigExt ∧ (board.haveDio ∨ 0 < board.minHwver)
  convert : cmd.convertSrc = trigTimer ∨ cmd.convertSrc = trigInt ∨ cmd.convertSrc = trigExt
  timed : cmd.scanBeginSrc ≠ trigFollow → cmd.convertSrc = trigTimer
  scanEnd : cmd.scanEndSrc = trigCount
  stop : cmd.stopSrc = trigCount ∨ cmd.stopSrc = trigNone

/-- A command with supported sources and a number of channels, but without a channel list. -/
structure Request (board : Pci230Board) (cmd : Cmd) : Prop extends Supported board cmd where
  chanlist : cmd.chanlist = .null
  len : 0 < cmd.chanlistLen.toNat
  most : cmd.chanlistLen.toNat ≤ 256

def mode (cmd : Cmd) : U32 := cmd.flags &&& trigRoundMask

/-- The convert period, at least the least one of the board. -/
def convertOf (hwver : U16) (cmd : Cmd) : Nat :=
  max cmd.convertArg.toNat (maxSpeedAi hwver .null cmd.chanlistLen).toNat

/-- A timed scan can be made long enough for its conversions. -/
def Reaches (hwver : U16) (cmd : Cmd) : Prop :=
  cmd.scanBeginSrc = trigTimer → 1 < cmd.chanlistLen.toNat →
    convertOf hwver cmd * cmd.chanlistLen.toNat < 2 ^ 32 ∧
      rounded (convertOf hwver cmd) (mode cmd) * cmd.chanlistLen.toNat ≤ longest

/-- The counters run for the periods of a timed command, and the scan is long enough for its
conversions. -/
structure Timed (cmd : Cmd) : Prop where
  convert : cmd.convertSrc = trigTimer → ∃ programmed, (aiTimers cmd).lookup 2 = some programmed ∧
    period programmed = cmd.convertArg.toNat
  scan : cmd.scanBeginSrc = trigTimer → ∃ programmed, (aiTimers cmd).lookup 1 = some programmed ∧
    period programmed = cmd.scanBeginArg.toNat
  fits : cmd.scanBeginSrc = trigTimer →
    cmd.convertArg.toNat * cmd.chanlistLen.toNat ≤ cmd.scanBeginArg.toNat

variable {board : Pci230Board} {hwver : U16} {cmd : Cmd}

section Steps

theorem Supported.masked (h : Supported board cmd) : maskSources board cmd = (false, cmd) := by
  have hstart : maskSrc cmd.startSrc (trigNow ||| trigInt) = (cmd.startSrc, false) := by
    rcases h.start with hsrc | hsrc <;> rw [hsrc] <;> decide
  have hscanBegin : maskSrc cmd.scanBeginSrc
      (if board.haveDio ∨ 0 < board.minHwver then trigFollow ||| trigTimer ||| trigInt ||| trigExt
        else trigFollow ||| trigTimer ||| trigInt) = (cmd.scanBeginSrc, false) := by
    rcases h.scanBegin with hsrc | hsrc | hsrc | ⟨hsrc, hpin⟩
    · rw [hsrc]
      split <;> decide
    · rw [hsrc]
      split <;> decide
    · rw [hsrc]
      split <;> decide
    · rw [hsrc, if_pos hpin]
      decide
  have hconvert : maskSrc cmd.convertSrc (trigTimer ||| trigInt ||| trigExt) =
      (cmd.convertSrc, false) := by
    rcases h.convert with hsrc | hsrc | hsrc <;> rw [hsrc] <;> decide
  have hscanEnd : maskSrc cmd.scanEndSrc trigCount = (cmd.scanEndSrc, false) := by
    rw [h.scanEnd]
    decide
  have hstop : maskSrc cmd.stopSrc (trigCount ||| trigNone) = (cmd.stopSrc, false) := by
    rcases h.stop with hsrc | hsrc <;> rw [hsrc] <;> decide
  unfold maskSources cmdtestHelper
  dsimp only
  rw [hstart, hscanBegin, hconvert, hscanEnd, hstop]
  rfl

theorem Supported.sources (h : Supported board cmd) : ¬ badSources cmd := by
  unfold badSources
  rintro (hne | hne | hne | hne | hne | ⟨hscan, hconvert⟩)
  · rcases h.start with hsrc | hsrc <;> exact hne (by rw [hsrc]; decide)
  · rcases h.scanBegin with hsrc | hsrc | hsrc | ⟨hsrc, -⟩ <;>
      exact hne (by rw [hsrc]; decide)
  · rcases h.convert with hsrc | hsrc | hsrc <;> exact hne (by rw [hsrc]; decide)
  · exact hne (by rw [h.scanEnd]; decide)
  · rcases h.stop with hsrc | hsrc <;> exact hne (by rw [hsrc]; decide)
  · exact hconvert (h.timed hscan)

theorem checkList_null (h : cmd.chanlist = .null) : checkList board hwver cmd = 0 :=
  if_neg fun hlist => hlist.1 h

theorem roundArgs_chanlist (cmd : Cmd) : (roundArgs cmd).2.chanlist = cmd.chanlist := rfl

theorem cmdtest_eq (h : Request board cmd) : pci230AiCmdtest board hwver cmd =
    if (fixArgs hwver cmd).1 then (3, (fixArgs hwver cmd).2)
    else (if (roundArgs cmd).1 then 4 else 0, (roundArgs cmd).2) := by
  unfold pci230AiCmdtest
  rw [h.masked]
  dsimp only
  rw [if_neg Bool.false_ne_true, if_neg h.sources]
  split
  · rfl
  next hfix =>
    rw [fixArgs_kept (Bool.eq_false_iff.mpr hfix),
      checkList_null ((roundArgs_chanlist cmd).trans h.chanlist)]
    split <;> rfl

theorem accepted_iff (h : Request board cmd) : (pci230AiCmdtest board hwver cmd).1 = 0 ↔
    (fixArgs hwver cmd).1 = false ∧ (roundArgs cmd).1 = false := by
  rw [cmdtest_eq h]
  cases (fixArgs hwver cmd).1 with
  | true => exact iff_of_false (by decide : ¬ (3 : Int) = 0) nofun
  | false =>
    cases (roundArgs cmd).1 with
    | true => exact iff_of_false (by decide : ¬ (4 : Int) = 0) nofun
    | false => exact iff_of_true rfl ⟨rfl, rfl⟩

theorem Request.fixArgs (h : Request board cmd) : Request board (fixArgs hwver cmd).2 :=
  ⟨⟨h.start, h.scanBegin, h.convert, h.timed, h.scanEnd, h.stop⟩, h.chanlist, h.len, h.most⟩

theorem Request.roundArgs (h : Request board cmd) : Request board (roundArgs cmd).2 :=
  ⟨⟨h.start, h.scanBegin, h.convert, h.timed, h.scanEnd, h.stop⟩, h.chanlist, h.len, h.most⟩

theorem Request.test (h : Request board cmd) :
    Request board (pci230AiCmdtest board hwver cmd).2 := by
  rw [cmdtest_eq h]
  split
  · exact h.fixArgs
  · exact h.roundArgs

/-- An accepted command is left as it is, with or without a channel list. -/
theorem stable (board : Pci230Board) (hwver : U16) : Stable (pci230AiCmdtest board hwver) := by
  intro cmd hret
  have h := accepted_of_ret hret
  have hmasked : (maskSources board cmd).2 = cmd := RtTimer.cmdtestHelper_ok h.masked
  have hfix := fixArgs_eq_false.mpr h.fixed
  have hround := roundArgs_eq_false.mpr ⟨h.convert, h.scanBegin⟩
  unfold pci230AiCmdtest
  dsimp only
  rw [h.masked, hmasked, if_neg Bool.false_ne_true, if_neg h.sources, hfix,
    if_neg Bool.false_ne_true, fixArgs_kept hfix, hround, if_neg Bool.false_ne_true]
  exact roundArgs_kept hround

end Steps

section External

def edgeMask : U32 := crFlagsMask &&& ~~~crInvert

theorem combine_zero (old mask : U32) : combine old 0 mask = old &&& ~~~mask := by
  have hnone : (0 : U32) &&& mask = 0 := BitVec.zero_and
  unfold combine
  rw [hnone]
  exact BitVec.or_zero

theorem combine_edge : combine 0 crEdge edgeMask = crEdge := by decide

theorem clear_snd (arg mask : U32) :
    (put (arg &&& mask ≠ 0) (combine arg 0 mask) arg).2 = arg &&& ~~~mask := by
  rw [combine_zero]
  by_cases h : arg &&& mask = 0
  · rw [put_of_not (not_not.mpr h)]
    exact (BitFlags.clear_absent h).symm
  · rw [put_of h]

/-- The trigger number is cleared, the flags are left. -/
theorem number_snd (arg : U32) : (put (arg &&& ~~~crFlagsMask ≠ 0)
    (combine arg 0 (~~~crFlagsMask)) arg).2 = arg &&& crFlagsMask := by
  rw [clear_snd, BitVec.not_not]

theorem flags_edge (arg : U32) : arg &&& crFlagsMask &&& edgeMask = arg &&& edgeMask := by
  rw [BitVec.and_assoc]
  rfl

/-- What is left of a trigger: the flags, if these are in order. -/
theorem externalArg_flags {arg : U32} (hflags : arg &&& crFlagsMask ≠ 0) :
    (externalArg 0 arg).2 =
      if arg &&& edgeMask = crEdge then arg &&& crFlagsMask else crEdge := by
  unfold externalArg
  rw [if_pos hflags]
  change (put (_ &&& edgeMask ≠ crEdge) (combine 0 crEdge edgeMask) _).2 = _
  rw [number_snd, combine_edge, flags_edge]
  by_cases hedge : arg &&& edgeMask = crEdge
  · rw [put_of_not (not_not.mpr hedge), if_pos hedge]
  · rw [put_of hedge, if_neg hedge]

theorem externalArg_done {arg : U32} (hflags : arg &&& crFlagsMask ≠ 0)
    (hnumber : arg &&& ~~~crFlagsMask = 0) (hedge : arg &&& edgeMask = crEdge) :
    (externalArg 0 arg).1 = false := by
  have hclear := BitFlags.clear_absent hnumber
  rw [BitVec.not_not] at hclear
  unfold externalArg
  rw [if_pos hflags]
  change ((put _ _ _).1 || (put (_ &&& edgeMask ≠ crEdge) _ _).1) = false
  rw [number_snd, hclear, Bool.or_eq_false_iff]
  exact ⟨put_eq_false.mpr (not_not.mpr hnumber), put_eq_false.mpr (not_not.mpr hedge)⟩

theorem sound_externalArg : Sound (externalArg 0) where
  kept _ := externalArg_kept
  done arg := by
    by_cases hflags : arg &&& crFlagsMask = 0
    · have hold : externalArg 0 arg = put (1 < arg) 1 arg := if_neg (not_not.mpr hflags)
      rw [hold]
      by_cases hone : 1 < arg
      · rw [put_of hone]
        decide
      · rw [put_of_not hone]
        unfold externalArg
        rw [if_neg (not_not.mpr hflags)]
        exact put_eq_false.mpr hone
    · rw [externalArg_flags hflags]
      split
      next hedge =>
        refine externalArg_done ?_ ?_ ?_
        · rwa [BitVec.and_assoc, BitVec.and_self]
        · rw [BitVec.and_assoc, BitVec.and_not_self]
          exact BitVec.and_zero
        · rwa [flags_edge]
      · decide

theorem externalScan_done (arg : U32) : (externalScan (externalScan arg).2).1 = false := by
  have hleft : (externalScan arg).2 =
      arg &&& (crFlagsMask &&& ~~~(crFlagsMask &&& ~~~crEdge)) := by
    unfold externalScan
    dsimp only
    rw [number_snd, BitVec.and_assoc (arg &&& crFlagsMask), clear_snd, BitVec.and_assoc]
  have hnone : ∀ m : U32, crFlagsMask &&& ~~~(crFlagsMask &&& ~~~crEdge) &&& m = 0 →
      (externalScan arg).2 &&& m = 0 := by
    intro m hm
    rw [hleft, BitVec.and_assoc, hm]
    exact BitVec.and_zero
  have hnumber : (externalScan arg).2 &&& ~~~crFlagsMask = 0 := hnone _ (by decide)
  have hflags : (externalScan arg).2 &&& crFlagsMask &&& ~~~crEdge = 0 := by
    rw [BitVec.and_assoc]
    exact hnone _ (by decide)
  generalize (externalScan arg).2 = left at hnumber hflags
  unfold externalScan
  dsimp only
  rw [Bool.or_eq_false_iff, put_of_not (not_not.mpr hnumber)]
  exact ⟨rfl, put_eq_false.mpr (not_not.mpr hflags)⟩

/-- The fix of an external trigger does not change the flag: it is clear, or there is nothing
else wrong with the flags. -/
def InvertSafe (arg : U32) : Prop := arg &&& crInvert = 0 ∨ arg &&& edgeMask = crEdge

theorem invert_iff (arg : U32) :
    (externalArg 0 arg).2 &&& crInvert = arg &&& crInvert ↔ InvertSafe arg := by
  have hinvert : arg &&& crFlagsMask &&& crInvert = arg &&& crInvert := by
    rw [BitVec.and_assoc]
    rfl
  unfold InvertSafe
  by_cases hflags : arg &&& crFlagsMask = 0
  · have hclear : (0 : U32) &&& crInvert = 0 := BitVec.zero_and
    rw [hflags, hclear] at hinvert
    have hold : (externalArg 0 arg).2 = (put (1 < arg) 1 arg).2 :=
      congrArg Prod.snd (if_neg (not_not.mpr hflags))
    rw [hold, ← hinvert]
    refine iff_of_true ?_ (.inl rfl)
    by_cases hone : 1 < arg
    · rw [put_of hone]
      decide
    · rw [put_of_not hone]
      exact hinvert.symm
  · rw [externalArg_flags hflags]
    split
    next hedge => exact iff_of_true hinvert (.inr hedge)
    next hedge =>
      have hnone : crEdge &&& crInvert = 0 := by decide
      rw [hnone, or_iff_left hedge]
      exact eq_comm

end External

section Scans

variable {len convert arg roundMode : U32}

/-- The least period of a scan, where it does not overflow. -/
structure Fits (len convert : U32) : Prop where
  len_pos : 0 < len.toNat
  convert_pos : 0 < convert.toNat
  product : convert.toNat * len.toNat ≤ longest

theorem product_toNat (h : convert.toNat * len.toNat < 2 ^ 32) :
    (len * convert).toNat = convert.toNat * len.toNat := by
  rw [BitVec.toNat_mul, Nat.mul_comm]
  exact Nat.mod_eq_of_lt h

theorem check_eq (hlen : 0 < len.toNat) (hpos : 0 < convert.toNat)
    (hfits : convert.toNat * len.toNat < 2 ^ 32) (arg : U32) :
    pci230AiCheckScanPeriod len convert arg = put (arg < len * convert) (len * convert) arg := by
  have hproduct := product_toNat hfits
  have hne : len ≠ 0 := fun hzero => by
    rw [hzero] at hlen
    exact absurd hlen (by decide)
  have hleast : minScanPeriod len convert = (false, len * convert) := by
    unfold minScanPeriod
    rw [if_neg hne]
    refine put_of_not ?_
    rw [BitVec.lt_def, BitVec.lt_def, hproduct, not_or, not_lt, not_lt]
    exact ⟨Nat.le_mul_of_pos_left _ hpos, Nat.le_mul_of_pos_right _ hlen⟩
  unfold pci230AiCheckScanPeriod
  dsimp only
  rw [hleast, Bool.false_or]

theorem check_iff (hlen : 0 < len.toNat) (hpos : 0 < convert.toNat)
    (hfits : convert.toNat * len.toNat < 2 ^ 32) (arg : U32) :
    (pci230AiCheckScanPeriod len convert arg).1 = false ↔
      convert.toNat * len.toNat ≤ arg.toNat := by
  rw [check_eq hlen hpos hfits, put_eq_false, BitVec.lt_def, product_toNat hfits, not_lt]

theorem check_snd (hlen : 0 < len.toNat) (hpos : 0 < convert.toNat)
    (hfits : convert.toNat * len.toNat < 2 ^ 32) (arg : U32) :
    (pci230AiCheckScanPeriod len convert arg).2.toNat =
      max arg.toNat (convert.toNat * len.toNat) := by
  rw [check_eq hlen hpos hfits, ← product_toNat hfits]
  exact put_low (fun _ _ => BitVec.lt_def.symm) _ _

theorem Fits.lt (h : Fits len convert) : convert.toNat * len.toNat < 2 ^ 32 :=
  h.product.trans_lt (by decide : longest < 2 ^ 32)

theorem Fits.check_iff (h : Fits len convert) (arg : U32) :
    (pci230AiCheckScanPeriod len convert arg).1 = false ↔
      convert.toNat * len.toNat ≤ arg.toNat :=
  Pci230AiSettles.check_iff h.len_pos h.convert_pos h.lt arg

/-- The scan period is the rounded one, or if this is too short the least one rounded up. -/
theorem Fits.roundScan_cases (h : Fits len convert) (arg roundMode : U32) :
    roundScan len convert arg roundMode = pci230NsToSingleTimer arg roundMode ∧
        convert.toNat * len.toNat ≤ (pci230NsToSingleTimer arg roundMode).toNat ∨
      (roundScan len convert arg roundMode).toNat =
          rounded (convert.toNat * len.toNat) trigRoundUp ∧
        (pci230NsToSingleTimer arg roundMode).toNat < convert.toNat * len.toNat := by
  have hsingle := check_eq h.len_pos h.convert_pos h.lt (pci230NsToSingleTimer arg roundMode)
  have hproduct := product_toNat h.lt
  unfold roundScan
  dsimp only
  rw [hsingle]
  by_cases hshort : pci230NsToSingleTimer arg roundMode < len * convert
  · right
    have hup : (pci230NsToSingleTimer (len * convert) trigRoundUp).toNat =
        rounded (convert.toNat * len.toNat) trigRoundUp := by
      rw [← hproduct]
      exact single_of_le (hproduct.le.trans h.product)
    rw [put_of hshort, if_pos rfl]
    dsimp only
    rw [check_snd h.len_pos h.convert_pos h.lt, hup]
    exact ⟨max_eq_left (le_rounded_up h.lt), by rwa [BitVec.lt_def, hproduct] at hshort⟩
  · left
    rw [put_of_not hshort, if_neg Bool.false_ne_true]
    rw [BitVec.lt_def, hproduct, not_lt] at hshort
    exact ⟨rfl, hshort⟩

theorem Fits.le_roundScan (h : Fits len convert) (arg roundMode : U32) :
    convert.toNat * len.toNat ≤ (roundScan len convert arg roundMode).toNat := by
  rcases h.roundScan_cases arg roundMode with ⟨heq, hle⟩ | ⟨heq, -⟩
  · rwa [heq]
  · rw [heq]
    exact le_rounded_up h.lt

theorem Fits.roundScan_le (h : Fits len convert) (arg roundMode : U32) :
    (roundScan len convert arg roundMode).toNat ≤ longest := by
  rcases h.roundScan_cases arg roundMode with ⟨heq, -⟩ | ⟨heq, -⟩
  · rw [heq]
    exact single_le arg roundMode
  · rw [heq]
    exact rounded_le trigRoundUp h.product

theorem Fits.exact_roundScan (h : Fits len convert) (harg : arg.toNat ≤ longest) :
    Exact (roundScan len convert arg roundMode).toNat := by
  rcases h.roundScan_cases arg roundMode with ⟨heq, -⟩ | ⟨heq, -⟩
  · rw [heq, single_of_le harg]
    exact exact_rounded roundMode arg.isLt
  · rw [heq]
    exact exact_rounded trigRoundUp h.lt

theorem single_of_exact (h : Exact arg.toNat) :
    pci230NsToSingleTimer arg roundMode = arg := by
  apply BitVec.eq_of_toNat_eq
  rw [single_of_le (h.le_longest arg.isLt)]
  exact rounded_of_exact roundMode h

theorem Fits.roundScan_of_exact (h : Fits len convert) (harg : Exact arg.toNat)
    (hle : convert.toNat * len.toNat ≤ arg.toNat) : roundScan len convert arg roundMode = arg := by
  rcases h.roundScan_cases arg roundMode with ⟨heq, -⟩ | ⟨-, hlt⟩
  · rw [heq]
    exact single_of_exact harg
  · rw [single_of_exact harg] at hlt
    exact absurd hle (not_le.mpr hlt)

end Scans

section Commands

/-- The periods are no longer than what an exact one can be. -/
structure Smooth (cmd : Cmd) : Prop where
  convert : cmd.convertSrc = trigTimer → cmd.convertArg.toNat ≤ longest
  scan : cmd.scanBeginSrc = trigTimer → cmd.scanBeginArg.toNat ≤ longest

theorem speed_bounds (hwver : U16) (len : U32) : 100 ∣ (maxSpeedAi hwver .null len).toNat ∧
    (maxSpeedAi hwver .null len).toNat ≤ 8000 ∧ 0 < (maxSpeedAi hwver .null len).toNat := by
  unfold maxSpeedAi
  rw [if_neg (fun h : Chanlist.null ≠ .null ∧ _ => h.1 rfl)]
  split <;> decide

theorem convert_fixed {speed arg : U32} :
    (within speed 0xffffffff arg).1 = false ↔ speed.toNat ≤ arg.toNat := by
  have hhigh : ¬ (0xffffffff : U32) < arg := by
    rw [BitVec.lt_def]
    exact not_lt.mpr (Nat.le_of_lt_succ arg.isLt)
  rw [within_eq_false, BitVec.lt_def, not_lt]
  exact and_iff_left hhigh

theorem convert_clamped (speed arg : U32) :
    (within speed 0xffffffff arg).2.toNat = max arg.toNat speed.toNat := by
  have hmax : max arg.toNat speed.toNat ≤ 2 ^ 32 - 1 :=
    max_le (Nat.le_of_lt_succ arg.isLt) (Nat.le_of_lt_succ speed.isLt)
  exact (within_snd (fun _ _ => BitVec.lt_def.symm) _ _ _).trans (min_eq_left hmax)

theorem fixArgs_convert (h : Request board cmd) (htimer : cmd.convertSrc = trigTimer) :
    (fixArgs hwver cmd).2.convertArg.toNat = convertOf hwver cmd := by
  change (convertArg _ _ _ _).2.toNat = _
  unfold convertArg
  rw [if_pos htimer, h.chanlist]
  exact convert_clamped _ _

theorem convertOf_eq (h : (maxSpeedAi hwver .null cmd.chanlistLen).toNat ≤ cmd.convertArg.toNat) :
    convertOf hwver cmd = cmd.convertArg.toNat := max_eq_left h

theorem speed_le_convert (hfix : Fixed hwver cmd) (h : Request board cmd)
    (htimer : cmd.convertSrc = trigTimer) :
    (maxSpeedAi hwver .null cmd.chanlistLen).toNat ≤ cmd.convertArg.toNat := by
  have hconvert := hfix.convert
  unfold convertArg at hconvert
  rw [if_pos htimer, h.chanlist] at hconvert
  exact convert_fixed.mp hconvert

theorem convertOf_fix (h : Request board cmd) (htimer : cmd.convertSrc = trigTimer) :
    convertOf hwver (fixArgs hwver cmd).2 = convertOf hwver cmd := by
  refine (convertOf_eq ?_).trans (fixArgs_convert h htimer)
  rw [fixArgs_convert h htimer]
  exact le_max_right _ _

theorem timed_scan (h : Request board cmd) (hscan : cmd.scanBeginSrc = trigTimer) :
    cmd.convertSrc = trigTimer := h.timed (by rw [hscan]; decide)

theorem reaches_fix (h : Request board cmd) :
    Reaches hwver (fixArgs hwver cmd).2 ↔ Reaches hwver cmd := by
  have hsame : cmd.scanBeginSrc = trigTimer →
      convertOf hwver (fixArgs hwver cmd).2 = convertOf hwver cmd :=
    fun hscan => convertOf_fix h (timed_scan h hscan)
  constructor
  · intro hreach hscan hlen
    rw [← hsame hscan]
    exact hreach hscan hlen
  · intro hreach hscan hlen
    rw [hsame hscan]
    exact hreach hscan hlen

theorem Reaches.product_lt (hreach : Reaches hwver cmd) (h : Request board cmd)
    (hscan : cmd.scanBeginSrc = trigTimer) :
    convertOf hwver cmd * cmd.chanlistLen.toNat < 2 ^ 32 := by
  by_cases hone : 1 < cmd.chanlistLen.toNat
  · exact (hreach hscan hone).1
  · have hlen := h.len
    have hlen' : cmd.chanlistLen.toNat = 1 := by omega
    rw [hlen', Nat.mul_one]
    exact max_lt cmd.convertArg.isLt (maxSpeedAi hwver .null cmd.chanlistLen).isLt

theorem fixArgs_again (h : Request board cmd) (hreach : Reaches hwver cmd) :
    Fixed hwver (fixArgs hwver cmd).2 where
  start := only_snd
  convert := by
    change (convertArg _ cmd.convertSrc 0 (convertArg _ cmd.convertSrc (only 0 _).2 _).2).1 = false
    rw [only_snd]
    have hsound : Sound (convertArg (maxSpeedAi hwver cmd.chanlist cmd.chanlistLen)
        cmd.convertSrc 0) := by
      refine sound_ite ⟨fun _ => within_kept, fun a => ?_⟩ (sound_ite sound_externalArg
        (sound_only 0))
      rw [convert_fixed, convert_clamped]
      exact le_max_right _ _
    exact hsound.done _
  scanEnd := only_snd
  stop := by
    change (stopArg _ (stopArg _ _).2).1 = false
    have hsound : Sound (stopArg cmd.stopSrc) := sound_ite (sound_only 0) sound_keep
    exact hsound.done _
  scanBegin := by
    have hconvert : cmd.scanBeginSrc = trigTimer →
        (fixArgs hwver cmd).2.convertArg.toNat = convertOf hwver cmd :=
      fun hscan => fixArgs_convert h (timed_scan h hscan)
    change (scanBeginArg cmd.scanBeginSrc cmd.chanlistLen (fixArgs hwver cmd).2.convertArg
      (scanBeginArg _ _ (fixArgs hwver cmd).2.convertArg _).2).1 = false
    generalize (fixArgs hwver cmd).2.convertArg = convert at hconvert ⊢
    unfold scanBeginArg
    by_cases hext : cmd.scanBeginSrc = trigExt
    · rw [if_pos hext, if_pos hext]
      exact externalScan_done _
    rw [if_neg hext, if_neg hext]
    by_cases hscan : cmd.scanBeginSrc = trigTimer
    · have hlt := hreach.product_lt h hscan
      have hpos : 0 < convert.toNat := by
        rw [hconvert hscan]
        exact lt_max_of_lt_right (speed_bounds hwver cmd.chanlistLen).2.2
      rw [← hconvert hscan] at hlt
      rw [if_pos hscan, if_pos hscan, check_iff h.len hpos hlt, check_snd h.len hpos hlt]
      exact le_max_right _ _
    · rw [if_neg hscan, if_neg hscan]
      exact (sound_only 0).done _

theorem Reaches.convert_le (hreach : Reaches hwver cmd) (hconvert :
    (maxSpeedAi hwver .null cmd.chanlistLen).toNat ≤ cmd.convertArg.toNat)
    (hscan : cmd.scanBeginSrc = trigTimer) (hone : 1 < cmd.chanlistLen.toNat) :
    cmd.convertArg.toNat ≤ longest := by
  have hlt := (hreach hscan hone).1
  rw [convertOf_eq hconvert] at hlt
  have htwo := Nat.mul_le_mul_left cmd.convertArg.toNat hone
  unfold longest
  omega

theorem roundConvert_timed (htimer : cmd.convertSrc = trigTimer) :
    roundConvert cmd = pci230NsToSingleTimer cmd.convertArg (mode cmd) := if_pos htimer

theorem speed_le_round (h : Request board cmd) (hfix : Fixed hwver cmd)
    (htimer : cmd.convertSrc = trigTimer) :
    (maxSpeedAi hwver .null cmd.chanlistLen).toNat ≤ (roundConvert cmd).toNat := by
  obtain ⟨hdvd, hmost, -⟩ := speed_bounds hwver cmd.chanlistLen
  rw [roundConvert_timed htimer]
  exact le_single hdvd hmost (speed_le_convert hfix h htimer)

/-- The least period of the scan for the rounded convert period. -/
theorem Reaches.fits (hreach : Reaches hwver cmd) (h : Request board cmd)
    (hfix : Fixed hwver cmd) (hscan : cmd.scanBeginSrc = trigTimer) :
    Fits cmd.chanlistLen (roundConvert cmd) := by
  have htimer := timed_scan h hscan
  have hspeed := speed_le_convert hfix h htimer
  refine ⟨h.len, (speed_bounds _ _).2.2.trans_le (speed_le_round h hfix htimer), ?_⟩
  rw [roundConvert_timed htimer]
  by_cases hone : 1 < cmd.chanlistLen.toNat
  · have hle := (hreach hscan hone).2
    rw [convertOf_eq hspeed] at hle
    rwa [single_of_le (hreach.convert_le hspeed hscan hone)]
  · have hlen := h.len
    have hlen' : cmd.chanlistLen.toNat = 1 := by omega
    rw [hlen', Nat.mul_one]
    exact single_le _ _

theorem round_fixed (h : Request board cmd) (hfix : Fixed hwver cmd)
    (hreach : Reaches hwver cmd) : Fixed hwver (roundArgs cmd).2 where
  start := hfix.start
  convert := by
    change (convertArg (maxSpeedAi hwver cmd.chanlist cmd.chanlistLen) cmd.convertSrc 0
      (roundConvert cmd)).1 = false
    have hconvert := hfix.convert
    by_cases htimer : cmd.convertSrc = trigTimer
    · unfold convertArg
      rw [if_pos htimer, h.chanlist, convert_fixed]
      exact speed_le_round h hfix htimer
    · unfold roundConvert
      rwa [if_neg htimer]
  scanEnd := hfix.scanEnd
  stop := hfix.stop
  scanBegin := by
    change (scanBeginArg cmd.scanBeginSrc cmd.chanlistLen (roundConvert cmd)
      (roundScanBegin cmd (roundConvert cmd))).1 = false
    have hscanBegin := hfix.scanBegin
    unfold roundScanBegin scanBeginArg at *
    by_cases hscan : cmd.scanBeginSrc = trigTimer
    · have hfits := hreach.fits h hfix hscan
      have hne : trigTimer ≠ trigExt := by decide
      rw [if_pos hscan, hscan, if_neg hne, if_pos rfl, hfits.check_iff]
      exact hfits.le_roundScan _ _
    · rw [if_neg hscan] at hscanBegin ⊢
      rwa [if_neg hscan]

theorem round_smooth (h : Request board cmd) (hfix : Fixed hwver cmd)
    (hreach : Reaches hwver cmd) : Smooth (roundArgs cmd).2 where
  convert := by
    intro (htimer : cmd.convertSrc = trigTimer)
    change (roundConvert cmd).toNat ≤ longest
    unfold roundConvert
    rw [if_pos htimer]
    exact single_le _ _
  scan := by
    intro (hscan : cmd.scanBeginSrc = trigTimer)
    change (roundScanBegin cmd (roundConvert cmd)).toNat ≤ longest
    unfold roundScanBegin
    rw [if_pos hscan]
    exact (hreach.fits h hfix hscan).roundScan_le _ _

theorem exact_convert (hsmooth : Smooth cmd) (htimer : cmd.convertSrc = trigTimer) :
    Exact (roundConvert cmd).toNat := by
  unfold roundConvert
  rw [if_pos htimer, single_of_le (hsmooth.convert htimer)]
  exact exact_rounded _ cmd.convertArg.isLt

theorem convertOf_round (h : Request board cmd) (hfix : Fixed hwver cmd)
    (htimer : cmd.convertSrc = trigTimer) :
    convertOf hwver (roundArgs cmd).2 = (roundConvert cmd).toNat :=
  @convertOf_eq hwver (roundArgs cmd).2 (speed_le_round h hfix htimer)

theorem round_reaches (h : Request board cmd) (hfix : Fixed hwver cmd)
    (hreach : Reaches hwver cmd) : Reaches hwver (roundArgs cmd).2 := by
  intro (hscan : cmd.scanBeginSrc = trigTimer) (hone : 1 < cmd.chanlistLen.toNat)
  have hfits := hreach.fits h hfix hscan
  have htimer := timed_scan h hscan
  have hspeed := speed_le_convert hfix h htimer
  have hexact : Exact (roundConvert cmd).toNat := by
    rw [roundConvert_timed htimer, single_of_le (hreach.convert_le hspeed hscan hone)]
    exact exact_rounded _ cmd.convertArg.isLt
  rw [convertOf_round h hfix htimer, rounded_of_exact _ hexact]
  exact ⟨hfits.lt, hfits.product⟩

theorem lookup_convert (htimer : cmd.convertSrc = trigTimer) : (aiTimers cmd).lookup 2 =
    some (pci230CtSetupNsMode cmd.convertArg.toNat (mode cmd)) := by
  unfold aiTimers
  rw [if_pos htimer]
  rfl

theorem lookup_scan (htimer : cmd.convertSrc = trigTimer) (hscan : cmd.scanBeginSrc = trigTimer) :
    (aiTimers cmd).lookup 1 =
      some (pci230CtSetupNsMode cmd.scanBeginArg.toNat (mode cmd)) := by
  have hne : cmd.scanBeginSrc ≠ trigFollow := by rw [hscan]; decide
  unfold aiTimers
  rw [if_pos htimer, if_pos hne, if_pos hscan]
  rfl

/-- Rounding exact periods does nothing, and they are what the counters run for. -/
theorem round_settled (h : Request board cmd) (hfix : Fixed hwver cmd)
    (hreach : Reaches hwver cmd) (hsmooth : Smooth cmd) :
    (roundArgs (roundArgs cmd).2).1 = false ∧ Timed (roundArgs cmd).2 := by
  have hpos : cmd.convertSrc = trigTimer → 0 < (roundConvert cmd).toNat :=
    fun htimer => (speed_bounds _ _).2.2.trans_le (speed_le_round h hfix htimer)
  have hscanBegin : cmd.scanBeginSrc = trigTimer → roundScanBegin cmd (roundConvert cmd) =
      roundScan cmd.chanlistLen (roundConvert cmd) cmd.scanBeginArg (mode cmd) :=
    fun hscan => if_pos hscan
  have hexact : cmd.scanBeginSrc = trigTimer →
      Exact (roundScanBegin cmd (roundConvert cmd)).toNat := by
    intro hscan
    rw [hscanBegin hscan]
    exact (hreach.fits h hfix hscan).exact_roundScan (hsmooth.scan hscan)
  have hlong : cmd.scanBeginSrc = trigTimer →
      (roundConvert cmd).toNat * cmd.chanlistLen.toNat ≤
        (roundScanBegin cmd (roundConvert cmd)).toNat := by
    intro hscan
    rw [hscanBegin hscan]
    exact (hreach.fits h hfix hscan).le_roundScan _ _
  refine ⟨roundArgs_eq_false.mpr ⟨?_, ?_⟩, ?_, ?_, hlong⟩
  · change (if cmd.convertSrc = trigTimer then pci230NsToSingleTimer (roundConvert cmd) (mode cmd)
      else roundConvert cmd) = roundConvert cmd
    split
    next htimer => exact single_of_exact (exact_convert hsmooth htimer)
    · rfl
  · change (if cmd.scanBeginSrc = trigTimer then roundScan cmd.chanlistLen (roundConvert cmd)
      (roundScanBegin cmd (roundConvert cmd)) (mode cmd)
      else roundScanBegin cmd (roundConvert cmd)) = roundScanBegin cmd (roundConvert cmd)
    split
    next hscan =>
      exact (hreach.fits h hfix hscan).roundScan_of_exact (hexact hscan) (hlong hscan)
    · rfl
  · intro (htimer : cmd.convertSrc = trigTimer)
    exact ⟨_, @lookup_convert (roundArgs cmd).2 htimer,
      period_of_exact _ (exact_convert hsmooth htimer) (hpos htimer)⟩
  · intro (hscan : cmd.scanBeginSrc = trigTimer)
    have htimer := timed_scan h hscan
    have hlen : 0 < (roundConvert cmd).toNat * cmd.chanlistLen.toNat :=
      Nat.mul_pos (hpos htimer) h.len
    exact ⟨_, @lookup_scan (roundArgs cmd).2 htimer hscan,
      period_of_exact _ (hexact hscan) (hlen.trans_le (hlong hscan))⟩

end Commands

section Settling

theorem test_fixed (h : Request board cmd) (hfix : Fixed hwver cmd) :
    (pci230AiCmdtest board hwver cmd).2 = (roundArgs cmd).2 := by
  rw [cmdtest_eq h, fixArgs_eq_false.mpr hfix]
  rfl

theorem settles_smooth (h : Request board cmd) (hfix : Fixed hwver cmd)
    (hreach : Reaches hwver cmd) (hsmooth : Smooth cmd) :
    Settles (pci230AiCmdtest board hwver) Timed 2 cmd := by
  obtain ⟨hround, htimed⟩ := round_settled h hfix hreach hsmooth
  refine Settles.next ?_
  rw [test_fixed h hfix]
  have hfix' := fixArgs_eq_false.mpr (round_fixed h hfix hreach)
  exact settles_now ((accepted_iff h.roundArgs).mpr ⟨hfix', hround⟩) htimed 0

theorem settles_fixed (h : Request board cmd) (hfix : Fixed hwver cmd)
    (hreach : Reaches hwver cmd) : Settles (pci230AiCmdtest board hwver) Timed 3 cmd := by
  refine Settles.next ?_
  rw [test_fixed h hfix]
  exact settles_smooth h.roundArgs (round_fixed h hfix hreach) (round_reaches h hfix hreach)
    (round_smooth h hfix hreach)

theorem settles_of_reaches (h : Request board cmd) (hreach : Reaches hwver cmd) :
    Settles (pci230AiCmdtest board hwver) Timed 4 cmd := by
  by_cases hfix : (fixArgs hwver cmd).1 = false
  · exact (settles_fixed h (fixArgs_eq_false.mp hfix) hreach).mono (by decide)
  · refine Settles.next ?_
    rw [cmdtest_eq h, if_pos (Bool.not_eq_false _ ▸ hfix)]
    exact settles_fixed h.fixArgs (fixArgs_again h hreach) ((reaches_fix h).mpr hreach)

/-- An overflow that is not noticed is too large for the rounding to undo it. -/
theorem product_lt_of_rounded {convert len roundMode : U32} (hone : 1 < len.toNat)
    (hmost : len.toNat ≤ 256) (hcheck : (minScanPeriod len convert).1 = false)
    (hround : (pci230NsToSingleTimer convert roundMode).toNat * len.toNat < 2 ^ 32) :
    convert.toNat * len.toNat < 2 ^ 32 := by
  have hne : len ≠ 0 := fun hzero => by
    rw [hzero] at hone
    exact absurd hone (by decide)
  unfold minScanPeriod at hcheck
  rw [if_neg hne, put_eq_false, not_or, BitVec.lt_def, BitVec.lt_def, not_lt, not_lt,
    BitVec.toNat_mul, Nat.mul_comm] at hcheck
  have hkept := hcheck.2
  have hlt := convert.isLt
  by_contra hover
  rcases Nat.lt_or_ge longest convert.toNat with hlong | hle
  · obtain ⟨gap, hgap⟩ := Nat.exists_eq_add_of_le hlt.le
    have hsum : convert.toNat * len.toNat + gap * len.toNat = 2 ^ 32 * len.toNat := by
      rw [← Nat.add_mul, ← hgap]
    have htwo := Nat.mul_le_mul_left gap hone
    have hgaps := Nat.mul_le_mul_left gap hmost
    unfold longest at hlong
    omega
  · rw [single_of_le hle] at hround
    have hnear := lt_rounded roundMode hlt
    have hnear' := Nat.mul_le_mul_right len.toNat hnear.le
    rw [Nat.add_mul] at hnear'
    rcases timebase_short convert.toNat roundMode with hclk | hshort
    · have htick : pci230Timebase ClkSrc.clk10Mhz = 100 := rfl
      rw [hclk, htick] at hnear'
      have hconvert := Nat.mul_le_mul_left convert.toNat hmost
      omega
    · have htick := Nat.mul_le_mul_left
        (pci230Timebase (pci230ChooseClkCount convert.toNat roundMode).1) hmost
      omega

theorem reaches_of_round (h : Request board cmd) (hfix : Fixed hwver cmd)
    (hreach : Reaches hwver (roundArgs cmd).2) : Reaches hwver cmd := by
  intro hscan hone
  have htimer := timed_scan h hscan
  have hspeed := speed_le_convert hfix h htimer
  obtain ⟨hlt, hle⟩ := hreach hscan hone
  rw [convertOf_round h hfix htimer, roundConvert_timed htimer] at hlt hle
  have hcheck : (minScanPeriod cmd.chanlistLen cmd.convertArg).1 = false := by
    have hne : trigTimer ≠ trigExt := by decide
    have hscanBegin := hfix.scanBegin
    unfold scanBeginArg at hscanBegin
    rw [hscan, if_neg hne, if_pos rfl] at hscanBegin
    exact (Bool.or_eq_false_iff.mp hscanBegin).1
  have hproduct := product_lt_of_rounded hone h.most hcheck hlt
  have hlong : cmd.convertArg.toNat ≤ longest := by
    have htwo := Nat.mul_le_mul_left cmd.convertArg.toNat hone
    unfold longest
    omega
  have hexact := exact_rounded (mode cmd) cmd.convertArg.isLt
  change rounded _ (mode cmd) * cmd.chanlistLen.toNat ≤ longest at hle
  rw [single_of_le hlong, rounded_of_exact _ hexact] at hle
  rw [convertOf_eq hspeed]
  exact ⟨hproduct, hle⟩

theorem reaches_of_test (h : Request board cmd)
    (hreach : Reaches hwver (pci230AiCmdtest board hwver cmd).2) : Reaches hwver cmd := by
  rw [cmdtest_eq h] at hreach
  split at hreach
  · exact (reaches_fix h).mp hreach
  next hfix => exact reaches_of_round h (fixArgs_eq_false.mp (Bool.eq_false_iff.mpr hfix)) hreach

theorem exact_scan (htimed : Timed cmd) (htimer : cmd.convertSrc = trigTimer)
    (hscan : cmd.scanBeginSrc = trigTimer) : Exact cmd.scanBeginArg.toNat := by
  obtain ⟨programmed, hlookup, hperiod⟩ := htimed.scan hscan
  rw [lookup_scan htimer hscan] at hlookup
  rw [← hperiod, ← Option.some.inj hlookup]
  exact exact_of_period (setup_lt _ _)

theorem reaches_of_accepted (h : Request board cmd)
    (hret : (pci230AiCmdtest board hwver cmd).1 = 0) (htimed : Timed cmd) :
    Reaches hwver cmd := by
  intro hscan hone
  obtain ⟨hfix, hround⟩ := (accepted_iff h).mp hret
  have htimer := timed_scan h hscan
  have hspeed := speed_le_convert (fixArgs_eq_false.mp hfix) h htimer
  have hlong := (exact_scan htimed htimer hscan).le_longest cmd.scanBeginArg.isLt
  have hproduct := (htimed.fits hscan).trans hlong
  have hone' : cmd.convertArg.toNat ≤ longest :=
    (Nat.le_mul_of_pos_right _ h.len).trans hproduct
  have hconvert := (roundArgs_eq_false.mp hround).1
  unfold roundConvert at hconvert
  rw [if_pos htimer] at hconvert
  have hrounded : rounded cmd.convertArg.toNat (mode cmd) = cmd.convertArg.toNat :=
    (single_of_le hone').symm.trans (congrArg BitVec.toNat hconvert)
  rw [convertOf_eq hspeed, hrounded]
  exact ⟨hproduct.trans_lt (by decide : longest < 2 ^ 32), hproduct⟩

theorem settles_iff_reaches (h : Request board cmd) :
    Settles (pci230AiCmdtest board hwver) Timed 5 cmd ↔ Reaches hwver cmd :=
  ⟨reach_of_settles (fun _ => Request.test) (fun _ => reaches_of_test)
    (fun _ => reaches_of_accepted) h,
    fun hreach => (settles_of_reaches h hreach).mono (by decide)⟩

end Settling

section Inversion

theorem test_convert (h : Request board cmd) (hext : cmd.convertSrc = trigExt) :
    (pci230AiCmdtest board hwver cmd).2.convertArg = (externalArg 0 cmd.convertArg).2 := by
  have hne : trigExt ≠ trigTimer := by decide
  have hfix : (fixArgs hwver cmd).2.convertArg = (externalArg 0 cmd.convertArg).2 := by
    change (convertArg _ _ (only 0 _).2 _).2 = _
    unfold convertArg
    rw [only_snd, hext, if_neg hne, if_pos rfl]
  rw [cmdtest_eq h]
  split
  · exact hfix
  next hfixed =>
    rw [fixArgs_kept (Bool.eq_false_iff.mpr hfixed)] at hfix
    change roundConvert cmd = _
    unfold roundConvert
    rw [hext, if_neg hne]
    exact hfix

/-- The first test decides the trigger. -/
theorem again_convert (h : Request board cmd) (hext : cmd.convertSrc = trigExt) (n : Nat) :
    (again (pci230AiCmdtest board hwver) (n + 1) cmd).convertArg =
      (externalArg 0 cmd.convertArg).2 := by
  induction n generalizing cmd with
  | zero => exact test_convert h hext
  | succ n ih =>
    have hsrc : (pci230AiCmdtest board hwver cmd).2.convertSrc = trigExt := by
      rw [cmdtest_eq h]
      split <;> exact hext
    rw [again_succ, ih h.test hsrc, test_convert h hext]
    exact sound_externalArg.kept _ (sound_externalArg.done _)

theorem inverts_iff (h : Request board cmd) (hext : cmd.convertSrc = trigExt) :
    (∀ n, (again (pci230AiCmdtest board hwver) n cmd).convertArg &&& crInvert =
      cmd.convertArg &&& crInvert) ↔ InvertSafe cmd.convertArg := by
  rw [← invert_iff]
  constructor
  · intro hkept
    rw [← again_convert h hext 0]
    exact hkept 1
  · intro hkept n
    cases n with
    | zero => rfl
    | succ n =>
      rw [again_convert h hext]
      exact hkept

end Inversion

/-- The command is accepted by one of five tests, with periods that the counters keep, exactly
when its scan can be made long enough without overflow. An external trigger keeps its inversion
exactly when its flags are in order otherwise. -/
theorem settles_keeping_iff (board : Pci230Board) (hwver : U16) (cmd : Cmd)
    (h : Request board cmd) :
    (Settles (pci230AiCmdtest board hwver) Timed 5 cmd ∧ Stable (pci230AiCmdtest board hwver) ∧
      (cmd.convertSrc = trigExt →
        ∀ n, (again (pci230AiCmdtest board hwver) n cmd).convertArg &&& crInvert =
          cmd.convertArg &&& crInvert)) ↔
      Reaches hwver cmd ∧ (cmd.convertSrc = trigExt → InvertSafe cmd.convertArg) := by
  rw [settles_iff_reaches h]
  constructor
  · rintro ⟨hreach, -, hkept⟩
    exact ⟨hreach, fun hext => (inverts_iff h hext).mp (hkept hext)⟩
  · rintro ⟨hreach, hsafe⟩
    exact ⟨hreach, stable board hwver, fun hext => (inverts_iff h hext).mpr (hsafe hext)⟩

section Inputs

def timedScans (scanBeginArg convertArg chanlistLen : U32) : Cmd where
  startSrc := trigNow
  scanBeginSrc := trigTimer
  scanBeginArg := scanBeginArg
  convertSrc := trigTimer
  convertArg := convertArg
  scanEndSrc := trigCount
  scanEndArg := chanlistLen
  stopSrc := trigNone
  chanlistLen := chanlistLen

def externalConversions (convertArg : U32) : Cmd where
  startSrc := trigNow
  scanBeginSrc := trigFollow
  convertSrc := trigExt
  convertArg := convertArg
  scanEndSrc := trigCount
  scanEndArg := 1
  stopSrc := trigNone
  chanlistLen := 1

theorem timedScans_request (scanBeginArg convertArg : U32) :
    Request pci230 (timedScans scanBeginArg convertArg 4) :=
  ⟨⟨.inl rfl, .inr (.inl rfl), .inl rfl, fun _ => rfl, rfl, .inr rfl⟩, rfl,
    (by decide : 0 < (4 : U32).toNat), (by decide : (4 : U32).toNat ≤ 256)⟩

theorem settles_keeping_four_channels :
    (Settles (pci230AiCmdtest pci230 0) Timed 5 (timedScans 12345 3210 4) ∧
      Stable (pci230AiCmdtest pci230 0) ∧ (trigTimer = trigExt →
        ∀ n, (again (pci230AiCmdtest pci230 0) n (timedScans 12345 3210 4)).convertArg &&& crInvert
          = 3210 &&& crInvert)) ↔
      Reaches 0 (timedScans 12345 3210 4) ∧ (trigTimer = trigExt → InvertSafe 3210) :=
  settles_keeping_iff pci230 0 (timedScans 12345 3210 4) (timedScans_request 12345 3210)

/-- A scan of 60 ms is accepted for 256 conversions of 17 ms, and the first test of an inverted
external trigger without an edge flag drops the inversion. -/
theorem scan_too_short :
    (pci230AiCmdtest pci230 0 (timedScans 60000000 17000000 256)).1 = 0 ∧
    60000000 < 17000000 * 256 ∧
    (again (pci230AiCmdtest pci230 0) 1 (externalConversions crInvert)).convertArg &&& crInvert ≠
      crInvert &&& crInvert := by
  decide +kernel

end Inputs

end Comedi.Pci230AiSettles
