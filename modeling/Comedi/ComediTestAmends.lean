import Comedi.ComediTestArgs

namespace Comedi.ComediTestAmends

open RtTimer (cmdtestHelper maskSrc trigNow trigTimer trigCount trigNone)
open ComediTest ComediTestArgs Retests

/-- The periods of the command, where a command that converts at once has none. -/
def argsOf (cmd : Cmd) : Args where
  scanBegin := cmd.scanBeginArg.toNat
  convert := if cmd.convertSrc = trigTimer then cmd.convertArg.toNat else 0
  len := cmd.chanlistLen.toNat

/-- Only the two periods of the command can be wrong. -/
structure Clean (cmd : Cmd) : Prop extends Supported cmd where
  startArg : cmd.startArg = 0
  convertArg : cmd.convertSrc = trigNow → cmd.convertArg = 0
  chanlistLen : cmd.chanlistLen ≠ 0
  scanEndArg : cmd.scanEndArg = cmd.chanlistLen
  stopArg : cmd.stopSrc = trigCount → cmd.stopArg ≠ 0
  stopNone : cmd.stopSrc = trigNone → cmd.stopArg = 0

/-- One of the arguments is outside of what step 3 lets pass. -/
def needsFix (cmd : Cmd) : Prop :=
  cmd.startArg ≠ 0 ∨ (cmd.convertSrc = trigNow ∧ cmd.convertArg ≠ 0) ∨
    cmd.scanBeginArg < nanoPerMicro ∨
    (cmd.convertSrc = trigTimer ∧ cmd.scanBeginArg < cmd.convertArg * cmd.chanlistLen) ∨
    cmd.chanlistLen = 0 ∨ cmd.scanEndArg ≠ cmd.chanlistLen ∨
    (cmd.stopSrc = trigCount ∧ cmd.stopArg = 0) ∨ (cmd.stopSrc = trigNone ∧ cmd.stopArg ≠ 0)

variable {cmd : Cmd}

theorem masked_of_supported (h : Supported cmd) :
    cmdtestHelper cmd trigNow trigTimer (trigNow ||| trigTimer) trigCount
      (trigCount ||| trigNone) = (false, cmd) := by
  unfold cmdtestHelper
  have hstart : maskSrc cmd.startSrc trigNow = (cmd.startSrc, false) := by
    rw [h.start]; rfl
  have hscanBegin : maskSrc cmd.scanBeginSrc trigTimer = (cmd.scanBeginSrc, false) := by
    rw [h.scanBegin]; rfl
  have hconvert : maskSrc cmd.convertSrc (trigNow ||| trigTimer) = (cmd.convertSrc, false) := by
    rcases h.convert with h | h <;> rw [h] <;> rfl
  have hscanEnd : maskSrc cmd.scanEndSrc trigCount = (cmd.scanEndSrc, false) := by
    rw [h.scanEnd]; rfl
  have hstop : maskSrc cmd.stopSrc (trigCount ||| trigNone) = (cmd.stopSrc, false) := by
    rcases h.stop with h | h <;> rw [h] <;> rfl
  rw [hstart, hscanBegin, hconvert, hscanEnd, hstop]
  rfl

theorem not_badSources (h : Supported cmd) : ¬ badSources cmd := by
  rintro (⟨hnow, htimer⟩ | ⟨hcount, hnone⟩)
  · exact h.convert.elim hnow htimer
  · exact h.stop.elim hcount hnone

theorem waveformAiCmdtest_of_supported (h : Supported cmd) : waveformAiCmdtest cmd =
    if (fixArgs cmd).1 then (3, (fixArgs cmd).2)
    else (if (roundArgs (fixArgs cmd).2).1 then 4 else 0, (roundArgs (fixArgs cmd).2).2) := by
  unfold waveformAiCmdtest
  rw [masked_of_supported h]
  dsimp only
  rw [if_neg Bool.false_ne_true, if_neg (not_badSources h)]

theorem fix_fst {bad : Prop} [Decidable bad] {fixed : Cmd} :
    (fix bad fixed cmd).1 = decide bad := by
  unfold fix
  split <;> simp [*]

theorem fix_snd {bad : Prop} [Decidable bad] {fixed : Cmd} (h : ¬ bad → fixed = cmd) :
    (fix bad fixed cmd).2 = fixed := by
  unfold fix
  split
  · rfl
  next hbad => exact (h hbad).symm

/-- The scan period after step 3. -/
def raised (cmd : Cmd) : U32 :=
  let low := if cmd.scanBeginArg < nanoPerMicro then nanoPerMicro else cmd.scanBeginArg
  if cmd.convertSrc = trigTimer ∧ low < cmd.convertArg * cmd.chanlistLen then
    cmd.convertArg * cmd.chanlistLen
  else low

theorem fixStart_snd : (fixStart cmd).2 = { cmd with startArg := 0 } := by
  unfold fixStart
  rw [fix_snd]
  intro h
  rw [← Classical.not_not.mp h]

theorem fixConvert_snd : (fixConvert cmd).2 =
    { cmd with convertArg := if cmd.convertSrc = trigNow then 0 else cmd.convertArg } := by
  unfold fixConvert fix
  split
  next h => rw [if_pos h.1]
  next h =>
    split
    next hnow => rw [← Classical.not_not.mp fun hne => h ⟨hnow, hne⟩]
    · rfl

theorem slowScanBegin_snd : (slowScanBegin cmd).2 =
    { cmd with scanBeginArg :=
        if cmd.scanBeginSrc = trigTimer ∧ cmd.scanBeginArg < nanoPerMicro then nanoPerMicro
        else cmd.scanBeginArg } := by
  unfold slowScanBegin fix
  split <;> rfl

theorem fitScan_snd : (fitScan cmd).2 =
    { cmd with scanBeginArg :=
        if cmd.scanBeginSrc = trigTimer ∧ cmd.convertSrc = trigTimer ∧
            cmd.scanBeginArg < cmd.convertArg * cmd.chanlistLen then
          cmd.convertArg * cmd.chanlistLen
        else cmd.scanBeginArg } := by
  unfold fitScan fix
  split <;> rfl

theorem fixChanlistLen_snd : (fixChanlistLen cmd).2 =
    { cmd with chanlistLen := if cmd.chanlistLen = 0 then 1 else cmd.chanlistLen } := by
  unfold fixChanlistLen fix
  split <;> rfl

theorem fixScanEnd_snd : (fixScanEnd cmd).2 = { cmd with scanEndArg := cmd.chanlistLen } := by
  unfold fixScanEnd
  rw [fix_snd]
  intro h
  cases cmd
  cases Classical.not_not.mp h
  rfl

theorem fixStop_snd : (fixStop cmd).2 =
    { cmd with stopArg :=
        if cmd.stopSrc = trigCount then if cmd.stopArg = 0 then 1 else cmd.stopArg else 0 } := by
  unfold fixStop fix
  split
  · split <;> rfl
  · split
    · rfl
    next h => rw [← Classical.not_not.mp h]

theorem fixArgs_snd (h : Supported cmd) : (fixArgs cmd).2 =
    { cmd with
      startArg := 0
      convertArg := if cmd.convertSrc = trigNow then 0 else cmd.convertArg
      scanBeginArg := raised cmd
      chanlistLen := if cmd.chanlistLen = 0 then 1 else cmd.chanlistLen
      scanEndArg := if cmd.chanlistLen = 0 then 1 else cmd.chanlistLen
      stopArg :=
        if cmd.stopSrc = trigCount then if cmd.stopArg = 0 then 1 else cmd.stopArg else 0 } := by
  have htimer : trigTimer ≠ trigNow := by decide
  unfold fixArgs
  dsimp only
  rw [fixStart_snd, fixConvert_snd]
  dsimp only
  rw [slowScanBegin_snd]
  dsimp only
  rw [fitScan_snd]
  dsimp only
  rw [fixChanlistLen_snd]
  dsimp only
  rw [fixScanEnd_snd]
  dsimp only
  rw [fixStop_snd]
  dsimp only
  unfold raised
  rcases h.convert with hnow | hconvert
  · simp [h.scanBegin, hnow, htimer.symm]
  · simp [h.scanBegin, hconvert, htimer]

theorem fixStop_fst : (fixStop cmd).1 =
    if cmd.stopSrc = trigCount then decide (cmd.stopArg = 0) else decide (cmd.stopArg ≠ 0) := by
  unfold fixStop
  split <;> exact fix_fst

theorem fixArgs_fst (h : Supported cmd) : (fixArgs cmd).1 = true ↔ needsFix cmd := by
  have hnow : trigTimer ≠ trigNow := by decide
  unfold fixArgs
  dsimp only
  rw [fixStart_snd, fixConvert_snd]
  dsimp only
  rw [slowScanBegin_snd]
  dsimp only
  rw [fitScan_snd]
  dsimp only
  rw [fixChanlistLen_snd]
  dsimp only
  rw [fixScanEnd_snd]
  dsimp only
  rw [fixStop_fst]
  dsimp only
  have hstop : (if cmd.stopSrc = trigCount then decide (cmd.stopArg = 0)
      else decide (cmd.stopArg ≠ 0)) = true ↔ cmd.stopSrc = trigCount ∧ cmd.stopArg = 0 ∨
        cmd.stopSrc = trigNone ∧ cmd.stopArg ≠ 0 := by
    have hnone : trigNone ≠ trigCount := by decide
    rcases h.stop with hstop | hstop
    · simp [hstop, hnone.symm]
    · simp [hstop, hnone]
  simp only [Bool.or_eq_true]
  rw [hstop]
  unfold fixStart fixConvert slowScanBegin fitScan fixChanlistLen fixScanEnd needsFix
  simp only [fix_fst, decide_eq_true_iff, h.scanBegin, true_and]
  by_cases hlow : cmd.scanBeginArg < nanoPerMicro
  · simp [hlow]
  by_cases hlen : cmd.chanlistLen = 0#32
  · simp [hlen]
  rcases h.convert with hconvert | hconvert
  · simp [hlow, hlen, hconvert, hnow.symm, or_assoc]
  · simp [hlow, hlen, hconvert, hnow, or_assoc]

/-- The command after step 4. -/
def rounded (cmd : Cmd) : Cmd :=
  { cmd with
    scanBeginArg := nearestMicro cmd.scanBeginArg
    convertArg :=
      if cmd.convertSrc = trigTimer then nearestMicro cmd.convertArg else cmd.convertArg }

theorem roundArgs_eq (h : Supported cmd) : roundArgs cmd =
    (decide (cmd.scanBeginArg ≠ nearestMicro cmd.scanBeginArg ∨
        cmd.convertSrc = trigTimer ∧ cmd.convertArg ≠ nearestMicro cmd.convertArg),
      rounded cmd) := by
  unfold rounded roundArgs roundScanBegin roundConvert
  rw [if_pos h.scanBegin]
  dsimp only
  split
  next hconvert => simp [hconvert]
  next hconvert => simp [hconvert]

theorem toNat_raise (x y : U32) : (if x < y then y else x).toNat = max x.toNat y.toNat := by
  split
  next h =>
    rw [BitVec.lt_def] at h
    omega
  next h =>
    rw [BitVec.lt_def] at h
    omega

theorem raised_toNat (h : Supported cmd) : (raised cmd).toNat = max (argsOf cmd).scanBegin
    (least (argsOf cmd).convert (argsOf cmd).len) := by
  have htimer : trigNow ≠ trigTimer := by decide
  have hmicro : nanoPerMicro.toNat = 1000 := rfl
  unfold raised argsOf least
  dsimp only
  rcases h.convert with hconvert | hconvert
  · simp only [hconvert, htimer, false_and, if_false]
    rw [toNat_raise, Nat.zero_mul]
    omega
  · rw [if_pos hconvert]
    simp only [hconvert, true_and]
    rw [toNat_raise, toNat_raise, BitVec.toNat_mul]
    omega

/-- Step 3 leaves a command of which only the periods can be wrong. -/
theorem clean_fixArgs (h : Supported cmd) : Clean (fixArgs cmd).2 := by
  have hcount : trigNone ≠ trigCount := by decide
  rw [fixArgs_snd h]
  refine ⟨⟨h.start, h.scanBegin, h.convert, h.scanEnd, h.stop⟩, rfl, fun hnow => if_pos hnow, ?_,
    rfl, fun hstop => ?_, fun hstop => if_neg (hstop ▸ hcount)⟩
  · dsimp only
    split
    · decide
    next hlen => exact hlen
  · dsimp only at hstop ⊢
    rw [if_pos hstop]
    split
    · decide
    next harg => exact harg

theorem argsOf_fixArgs (h : Supported cmd) : argsOf (fixArgs cmd).2 =
    ⟨max (argsOf cmd).scanBegin (least (argsOf cmd).convert (argsOf cmd).len),
      (argsOf cmd).convert, max 1 (argsOf cmd).len⟩ := by
  have htimer : trigTimer ≠ trigNow := by decide
  rw [← raised_toNat h, fixArgs_snd h]
  unfold argsOf
  dsimp only
  congr 1
  · split
    next hconvert => rw [if_neg (hconvert ▸ htimer)]
    · rfl
  · split
    next hlen =>
      rw [hlen]
      rfl
    next hlen =>
      have hpos : cmd.chanlistLen.toNat ≠ 0 := fun hzero => hlen (BitVec.eq_of_toNat_eq hzero)
      omega

theorem fix_kept {bad : Prop} [Decidable bad] {fixed : Cmd} (h : (fix bad fixed cmd).1 = false) :
    (fix bad fixed cmd).2 = cmd := by
  unfold fix at h ⊢
  split at h
  · cases h
  next hbad => rw [if_neg hbad]

theorem fixStop_kept (h : (fixStop cmd).1 = false) : (fixStop cmd).2 = cmd := by
  unfold fixStop at h ⊢
  split at h
  next hstop =>
    rw [if_pos hstop]
    exact fix_kept h
  next hstop =>
    rw [if_neg hstop]
    exact fix_kept h

theorem fixArgs_kept (h : (fixArgs cmd).1 = false) : (fixArgs cmd).2 = cmd := by
  unfold fixArgs at h ⊢
  simp only [Bool.or_eq_false_iff] at h
  obtain ⟨⟨⟨⟨⟨⟨hstart, hconvert⟩, hscanBegin⟩, hscan⟩, hlen⟩, hscanEnd⟩, hstop⟩ := h
  dsimp only
  rw [fixStop_kept hstop, fixScanEnd, fix_kept hscanEnd, fixChanlistLen, fix_kept hlen, fitScan,
    fix_kept hscan, slowScanBegin, fix_kept hscanBegin, fixConvert, fix_kept hconvert, fixStart,
    fix_kept hstart]

theorem roundArgs_kept (h : (roundArgs cmd).1 = false) : (roundArgs cmd).2 = cmd := by
  unfold roundArgs roundScanBegin roundConvert at h ⊢
  simp only [Bool.or_eq_false_iff] at h ⊢
  obtain ⟨hscanBegin, hconvert⟩ := h
  have hbegin : (if cmd.scanBeginSrc = trigTimer then
      (decide (cmd.scanBeginArg ≠ nearestMicro cmd.scanBeginArg),
        { cmd with scanBeginArg := nearestMicro cmd.scanBeginArg }) else (false, cmd)).2 = cmd := by
    split at hscanBegin
    next hsrc =>
      rw [if_pos hsrc, ← Classical.not_not.mp (of_decide_eq_false hscanBegin)]
    next hsrc => rw [if_neg hsrc]
  rw [hbegin] at hconvert ⊢
  split at hconvert
  next hsrc => rw [if_pos hsrc, ← Classical.not_not.mp (of_decide_eq_false hconvert)]
  next hsrc => rw [if_neg hsrc]

/-- The test leaves every command alone that it accepts. -/
theorem cmdtest_stable : Stable waveformAiCmdtest := by
  intro cmd h
  unfold waveformAiCmdtest at h ⊢
  dsimp only at h ⊢
  split at h
  · cases h
  next herr =>
  rw [if_neg herr]
  rw [RtTimer.cmdtestHelper_ok (Bool.eq_false_iff.mpr herr)] at h ⊢
  split at h
  · cases h
  next hbad =>
  rw [if_neg hbad]
  split at h
  · cases h
  next hfix =>
  rw [if_neg hfix]
  rw [fixArgs_kept (Bool.eq_false_iff.mpr hfix)] at h ⊢
  dsimp only at h ⊢
  split at h
  · cases h
  next hround => exact roundArgs_kept (Bool.eq_false_iff.mpr hround)

theorem needsFix_iff (h : Clean cmd) : needsFix cmd ↔
    (argsOf cmd).scanBegin < least (argsOf cmd).convert (argsOf cmd).len := by
  have htimer : trigNow ≠ trigTimer := by decide
  have hmicro : nanoPerMicro.toNat = 1000 := rfl
  unfold needsFix argsOf least
  rw [BitVec.lt_def, BitVec.lt_def, BitVec.toNat_mul, hmicro]
  dsimp only
  constructor
  · rintro (hstart | ⟨hnow, harg⟩ | hlow | ⟨hconvert, hfit⟩ | hlen | hend | ⟨hstop, harg⟩ |
      ⟨hstop, harg⟩)
    · exact absurd h.startArg hstart
    · exact absurd (h.convertArg hnow) harg
    · omega
    · rw [if_pos hconvert]
      omega
    · exact absurd hlen h.chanlistLen
    · exact absurd h.scanEndArg hend
    · exact absurd harg (h.stopArg hstop)
    · exact absurd (h.stopNone hstop) harg
  · intro hlt
    by_cases hconvert : cmd.convertSrc = trigTimer
    · rw [if_pos hconvert] at hlt
      rcases Nat.lt_or_ge cmd.scanBeginArg.toNat 1000 with hlow | hlow
      · exact .inr (.inr (.inl hlow))
      · exact .inr (.inr (.inr (.inl ⟨hconvert, by omega⟩)))
    · rw [if_neg hconvert, Nat.zero_mul] at hlt
      exact .inr (.inr (.inl (by omega)))

theorem nearest_zero : nearest 0 = 0 := by
  rw [nearest_of_ordinary (by unfold Ordinary; omega)]

theorem argsOf_rounded (cmd : Cmd) : argsOf (rounded cmd) =
    ⟨nearest (argsOf cmd).scanBegin, nearest (argsOf cmd).convert, (argsOf cmd).len⟩ := by
  unfold argsOf rounded
  dsimp only
  split
  · rw [nearestMicro_toNat, nearestMicro_toNat]
  · rw [nearestMicro_toNat, nearest_zero]

theorem unrounded_iff (cmd : Cmd) :
    (cmd.scanBeginArg ≠ nearestMicro cmd.scanBeginArg ∨
        cmd.convertSrc = trigTimer ∧ cmd.convertArg ≠ nearestMicro cmd.convertArg) ↔
      ¬ (nearest (argsOf cmd).scanBegin = (argsOf cmd).scanBegin ∧
        nearest (argsOf cmd).convert = (argsOf cmd).convert) := by
  have hword : ∀ x : U32, x ≠ nearestMicro x ↔ nearest x.toNat ≠ x.toNat := by
    intro x
    rw [ne_comm, ← nearestMicro_toNat, ne_eq, ne_eq, BitVec.toNat_inj]
  unfold argsOf
  dsimp only
  rw [hword, hword, not_and_or]
  by_cases hconvert : cmd.convertSrc = trigTimer
  · rw [if_pos hconvert, and_iff_right hconvert]
  · rw [if_neg hconvert, nearest_zero]
    exact or_congr_right (iff_of_false (fun h => hconvert h.1) fun h => h rfl)

variable {b c len n : Nat}

/-- The driver's test of a clean command is the test of its two periods. -/
theorem cmdtest_amends (h : Clean cmd) (hargs : argsOf cmd = ⟨b, c, len⟩) :
    (waveformAiCmdtest cmd).1 = (amend ⟨b, c, len⟩).1 ∧ Clean (waveformAiCmdtest cmd).2 ∧
      argsOf (waveformAiCmdtest cmd).2 = (amend ⟨b, c, len⟩).2 := by
  have hsupported := h.toSupported
  have hneeds := needsFix_iff h
  have hfixed := argsOf_fixArgs hsupported
  have hround := unrounded_iff cmd
  have hrounded := argsOf_rounded cmd
  rw [hargs] at hneeds hfixed hround hrounded
  have hlen : max 1 len = len := by
    have hpos : cmd.chanlistLen.toNat ≠ 0 :=
      fun hzero => h.chanlistLen (BitVec.eq_of_toNat_eq hzero)
    have hlen : cmd.chanlistLen.toNat = len := congrArg Args.len hargs
    omega
  rw [waveformAiCmdtest_of_supported hsupported]
  by_cases hlt : b < least c len
  · rw [if_pos ((fixArgs_fst hsupported).mpr (hneeds.mpr hlt)), amend_of_lt hlt]
    dsimp only
    refine ⟨rfl, clean_fixArgs hsupported, ?_⟩
    rw [hfixed, hlen, Nat.max_eq_right (Nat.le_of_lt hlt)]
  have hfix : (fixArgs cmd).1 = false :=
    Bool.eq_false_iff.mpr fun hfix => hlt (hneeds.mp ((fixArgs_fst hsupported).mp hfix))
  rw [hfix, if_neg Bool.false_ne_true, fixArgs_kept hfix, roundArgs_eq hsupported]
  have hclean : Clean (rounded cmd) := by
    refine ⟨⟨h.start, h.scanBegin, h.convert, h.scanEnd, h.stop⟩, h.startArg, fun hnow => ?_,
      h.chanlistLen, h.scanEndArg, h.stopArg, h.stopNone⟩
    unfold rounded at hnow ⊢
    dsimp only at hnow ⊢
    rw [hnow, if_neg (by decide), h.convertArg hnow]
  dsimp only
  by_cases hsame : nearest b = b ∧ nearest c = c
  · rw [amend_of_rounded (Nat.not_lt.mp hlt) hsame, decide_eq_false fun h => hround.mp h hsame]
    refine ⟨rfl, hclean, ?_⟩
    rw [hrounded, hsame.1, hsame.2]
  · rw [amend_of_unrounded (Nat.not_lt.mp hlt) hsame, decide_eq_true (hround.mpr hsame)]
    exact ⟨rfl, hclean, hrounded⟩

theorem maskSrc_bit {src : U32} {i : Nat} (h : (maskSrc src (BitVec.twoPow 32 i)).2 = false) :
    src = BitVec.twoPow 32 i := by
  simp only [maskSrc, decide_eq_false_iff_not, not_or, not_not] at h
  obtain ⟨hne, heq⟩ := h
  rw [BitVec.and_twoPow] at hne heq
  split at hne
  next hbit => rw [heq, if_pos hbit]
  · exact absurd rfl hne

theorem supported_of_accepted (h : (waveformAiCmdtest cmd).1 = 0) :
    Supported cmd ∧ ¬ needsFix cmd := by
  have hsupported : Supported cmd := by
    unfold waveformAiCmdtest at h
    dsimp only at h
    split at h
    · cases h
    next herr =>
    have hkept := RtTimer.cmdtestHelper_ok (Bool.eq_false_iff.mpr herr)
    rw [hkept] at h
    split at h
    · cases h
    next hbad =>
    have herr := Bool.eq_false_iff.mpr herr
    unfold cmdtestHelper at herr
    simp only [Bool.or_eq_false_iff] at herr
    unfold badSources at hbad
    exact ⟨maskSrc_bit (i := 1) herr.1.1.1.1, maskSrc_bit (i := 4) herr.1.1.1.2, by tauto,
      maskSrc_bit (i := 5) herr.1.2, by tauto⟩
  refine ⟨hsupported, fun hneeds => ?_⟩
  rw [waveformAiCmdtest_of_supported hsupported,
    if_pos ((fixArgs_fst hsupported).mpr hneeds)] at h
  cases h

end Comedi.ComediTestAmends
