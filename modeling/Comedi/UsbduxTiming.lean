import Comedi.ArgFixes
import Comedi.Pci230
import Comedi.Retests

namespace Comedi.UsbduxTiming

open ArgFixes Retests
open Pci230 (trigExt)
open RtTimer (trigNone trigNow trigFollow trigTimer trigCount trigInt cmdtestHelper)

/-- The members of `usbduxsub_t` that the timing depends on. -/
structure Usbdux where
  probed : Bool := true
  highSpeed : Bool

/-- Nanoseconds of a microframe and of a frame. -/
def microframe : U32 := 125000
def frame : U32 := 1000000

def intervalFrom : Nat → U32 → U32 → U32
  | 0, i, _ => i
  | fuel + 1, i, chanlistLen =>
    if i < chanlistLen then intervalFrom fuel (i * 2) chanlistLen else i

/-- The power of 2 for the number of channels. -/
def interval (chanlistLen : U32) : U32 := intervalFrom 32 1 chanlistLen

section Cmdtest

def maskSources (cmd : Cmd) : Bool × Cmd :=
  cmdtestHelper cmd (trigNow ||| trigInt) trigTimer trigNow trigCount (trigCount ||| trigNone)

/-- Step 2 of the tests finds an error. -/
def badSources (cmd : Cmd) : Prop :=
  (cmd.scanBeginSrc ≠ trigFollow ∧ cmd.scanBeginSrc ≠ trigExt ∧ cmd.scanBeginSrc ≠ trigTimer) ∨
    (cmd.stopSrc ≠ trigCount ∧ cmd.stopSrc ≠ trigNone)

instance (cmd : Cmd) : Decidable (badSources cmd) := by unfold badSources; infer_instance

/-- A period is brought to the least one, and to the grid below it. -/
def gridArg (least grid arg : U32) : Bool × U32 :=
  let low := put (arg < least) least arg
  let real := only (low.2 / grid * grid) low.2
  (low.1 || real.1, real.2)

/-- The least period of a scan. -/
def aiLeast (dev : Usbdux) (chanlistLen : U32) : U32 :=
  if dev.highSpeed then microframe * interval chanlistLen else frame

def aiGrid (dev : Usbdux) : U32 := if dev.highSpeed then microframe else frame

def aiScanBeginArg (dev : Usbdux) (src chanlistLen arg : U32) : Bool × U32 :=
  if src = trigFollow then only 0 arg
  else if src = trigTimer then gridArg (aiLeast dev chanlistLen) (aiGrid dev) arg
  else (false, arg)

/-- Unlike an input, an output is not brought to the grid. -/
def aoScanBeginArg (src arg : U32) : Bool × U32 :=
  if src = trigFollow then only 0 arg
  else if src = trigTimer then put (arg < frame) frame arg
  else (false, arg)

def aoConvertArg (src arg : U32) : Bool × U32 :=
  if src = trigTimer then put (arg < microframe) microframe arg else (false, arg)

def stopArg (src arg : U32) : Bool × U32 := if src = trigCount then (false, arg) else only 0 arg

/-- Step 3 of a test, for what it makes of the two arguments that are times. -/
def fixArgs (scanBeginArg convertArg : Cmd → Bool × U32) (cmd : Cmd) : Bool × Cmd :=
  let start := only 0 cmd.startArg
  let scanBegin := scanBeginArg cmd
  let convert := convertArg cmd
  let scanEnd := only cmd.chanlistLen cmd.scanEndArg
  let stop := stopArg cmd.stopSrc cmd.stopArg
  (start.1 || scanBegin.1 || convert.1 || scanEnd.1 || stop.1,
    { cmd with
      startArg := start.2
      scanBeginArg := scanBegin.2
      convertArg := convert.2
      scanEndArg := scanEnd.2
      stopArg := stop.2 })

/-- The step 3 of `usbdux_ai_cmdtest`. -/
def aiFixArgs (dev : Usbdux) : Cmd → Bool × Cmd :=
  fixArgs (fun cmd => aiScanBeginArg dev cmd.scanBeginSrc cmd.chanlistLen cmd.scanBeginArg)
    fun cmd => (false, cmd.convertArg)

/-- The step 3 of `usbdux_ao_cmdtest`. -/
def aoFixArgs : Cmd → Bool × Cmd :=
  fixArgs (fun cmd => aoScanBeginArg cmd.scanBeginSrc cmd.scanBeginArg)
    fun cmd => aoConvertArg cmd.convertSrc cmd.convertArg

def cmdtest (dev : Usbdux) (fix : Cmd → Bool × Cmd) (cmd : Cmd) : Int × Cmd :=
  if dev.probed then
    let masked := maskSources cmd
    if masked.1 then (1, masked.2)
    else if badSources masked.2 then (2, masked.2)
    else (if (fix masked.2).1 then 3 else 0, (fix masked.2).2)
  else (-enodev, cmd)

def usbduxAiCmdtest (dev : Usbdux) : Cmd → Int × Cmd := cmdtest dev (aiFixArgs dev)

def usbduxAoCmdtest (dev : Usbdux) : Cmd → Int × Cmd := cmdtest dev aoFixArgs

end Cmdtest

/-- What `usbdux_ai_cmd` sets for the timing. -/
structure AiTiming where
  aiInterval : U32
  aiTimer : U32
  aiCounter : U32

/-- The timing of `usbdux_ai_cmd`. -/
def aiTiming (dev : Usbdux) (cmd : Cmd) : Except Int AiTiming :=
  let aiInterval := if dev.highSpeed then interval cmd.chanlistLen else 1
  let aiTimer :=
    if dev.highSpeed then cmd.scanBeginArg / (microframe * aiInterval)
    else cmd.scanBeginArg / frame
  if aiTimer < 1 then .error (-einval) else .ok ⟨aiInterval, aiTimer, aiTimer⟩

/-- What `usbdux_ao_cmd` sets for the timing. -/
structure AoTiming where
  aoTimer : U32
  aoCounter : U32

/-- The timing of `usbdux_ao_cmd`. -/
def aoTiming (cmd : Cmd) : Except Int AoTiming :=
  let aoTimer := cmd.scanBeginArg / frame
  if aoTimer < 1 then .error (-einval) else .ok ⟨aoTimer, aoTimer⟩

/-- The period of the scans in nanoseconds: a transfer every so many microframes or frames. -/
def aiPeriod (dev : Usbdux) (t : AiTiming) : Nat :=
  if dev.highSpeed then t.aiTimer.toNat * t.aiInterval.toNat * 125000
  else t.aiTimer.toNat * 1000000

def aoPeriod (t : AoTiming) : Nat := t.aoTimer.toNat * 1000000

/-- The command starts, and its period is the one that was asked for. -/
def AiExact (dev : Usbdux) (cmd : Cmd) : Prop :=
  ∃ t, aiTiming dev cmd = .ok t ∧ aiPeriod dev t = cmd.scanBeginArg.toNat ∧ aiPeriod dev t ≠ 0

def AoExact (cmd : Cmd) : Prop :=
  ∃ t, aoTiming cmd = .ok t ∧ aoPeriod t = cmd.scanBeginArg.toNat ∧ aoPeriod t ≠ 0

/-- Sources that both subdevices have, with a single one to stop. -/
structure Supported (cmd : Cmd) : Prop where
  masked : (maskSources cmd).1 = false
  stop : cmd.stopSrc = trigCount ∨ cmd.stopSrc = trigNone

/-- At high speed the whole microframes are a multiple of the interval, unless the period is too
short anyway. -/
def AiOnGrid (dev : Usbdux) (cmd : Cmd) : Prop :=
  dev.highSpeed = true → cmd.scanBeginArg.toNat < 125000 * (interval cmd.chanlistLen).toNat ∨
    (interval cmd.chanlistLen).toNat ∣ cmd.scanBeginArg.toNat / 125000

/-- The period is a multiple of a frame, unless it is too short anyway. -/
def AoOnGrid (cmd : Cmd) : Prop :=
  cmd.scanBeginArg.toNat < 1000000 ∨ 1000000 ∣ cmd.scanBeginArg.toNat

section Grids

variable {least grid arg len : U32}

theorem interval_cases (h : len.toNat ≤ 8) :
    len.toNat ≤ (interval len).toNat ∧ ((interval len).toNat = 1 ∨ (interval len).toNat = 2 ∨
      (interval len).toNat = 4 ∨ (interval len).toNat = 8) := by
  have hlen : len = BitVec.ofNat 32 len.toNat := by
    rw [BitVec.ofNat_toNat, BitVec.setWidth_eq]
  have hall : ∀ n : Fin 9, n.val ≤ (interval (BitVec.ofNat 32 n.val)).toNat ∧
      ((interval (BitVec.ofNat 32 n.val)).toNat = 1 ∨
        (interval (BitVec.ofNat 32 n.val)).toNat = 2 ∨
        (interval (BitVec.ofNat 32 n.val)).toNat = 4 ∨
        (interval (BitVec.ofNat 32 n.val)).toNat = 8) := by decide
  have hn := hall ⟨len.toNat, by omega⟩
  dsimp only at hn
  rwa [← hlen] at hn

theorem grid_toNat (grid arg : U32) :
    (arg / grid * grid).toNat = arg.toNat / grid.toNat * grid.toNat := by
  rw [BitVec.toNat_mul, BitVec.toNat_udiv]
  exact Nat.mod_eq_of_lt (Nat.lt_of_le_of_lt (Nat.div_mul_le_self _ _) arg.isLt)

theorem gridArg_snd (least grid arg : U32) :
    (gridArg least grid arg).2 = raise least arg / grid * grid := only_snd

theorem gridArg_eq_false : (gridArg least grid arg).1 = false ↔
    ¬ arg < least ∧ arg = arg / grid * grid := by
  unfold gridArg
  dsimp only
  rw [Bool.or_eq_false_iff, put_eq_false]
  refine and_congr_right fun hlow => ?_
  rw [put_of_not hlow, only_eq_false]

theorem gridArg_kept (h : (gridArg least grid arg).1 = false) :
    (gridArg least grid arg).2 = arg := by
  obtain ⟨hlow, hreal⟩ := gridArg_eq_false.mp h
  rw [gridArg_snd, raise_of_not hlow, ← hreal]

/-- A period on the grid is not below the least one, which is on the grid itself. -/
theorem sound_gridArg (hgrid : 0 < grid.toNat) (h : grid.toNat ∣ least.toNat) :
    Sound (gridArg least grid) where
  kept _ := gridArg_kept
  done arg := by
    obtain ⟨k, hk⟩ := h
    have hge : least.toNat ≤ (raise least arg).toNat :=
      Nat.not_lt.mp (not_raise_lt (BitVec.lt_irrefl _) arg)
    rw [gridArg_eq_false, gridArg_snd]
    constructor
    · refine Nat.not_lt.mpr ?_
      rw [grid_toNat, hk, Nat.mul_comm grid.toNat]
      refine Nat.mul_le_mul_right _ ((Nat.le_div_iff_mul_le hgrid).mpr ?_)
      rw [Nat.mul_comm, ← hk]
      exact hge
    · apply BitVec.eq_of_toNat_eq
      rw [grid_toNat grid (raise least arg / grid * grid), grid_toNat, Nat.mul_div_cancel _ hgrid]

end Grids

section Tests

variable {dev : Usbdux} {cmd : Cmd} {scanBeginArg convertArg : Cmd → Bool × U32} {P : Cmd → Prop}

theorem sound_stopArg (src : U32) : Sound (stopArg src) := sound_ite sound_keep (sound_only 0)

/-- A time that is not bad is kept, and what step 3 makes of those of the command is not bad. -/
structure Timed (scanBeginArg convertArg : Cmd → Bool × U32) (cmd : Cmd) : Prop where
  scan_kept : ∀ y, (scanBeginArg y).1 = false → (scanBeginArg y).2 = y.scanBeginArg
  convert_kept : ∀ y, (convertArg y).1 = false → (convertArg y).2 = y.convertArg
  scan_done : (scanBeginArg (fixArgs scanBeginArg convertArg cmd).2).1 = false
  convert_done : (convertArg (fixArgs scanBeginArg convertArg cmd).2).1 = false

theorem fixArgs_kept {y : Cmd} (ht : Timed scanBeginArg convertArg y)
    (h : (fixArgs scanBeginArg convertArg cmd).1 = false) :
    (fixArgs scanBeginArg convertArg cmd).2 = cmd := by
  unfold fixArgs at h ⊢
  dsimp only at h ⊢
  simp only [Bool.or_eq_false_iff, only_eq_false] at h
  obtain ⟨⟨⟨⟨hstart, hscan⟩, hconvert⟩, hscanEnd⟩, hstop⟩ := h
  rw [ht.scan_kept cmd hscan, ht.convert_kept cmd hconvert, (sound_stopArg _).kept _ hstop,
    only_snd, only_snd, ← hstart]
  exact congrArg (fun n => { cmd with scanEndArg := n }) hscanEnd.symm

theorem fixArgs_done (ht : Timed scanBeginArg convertArg cmd) :
    (fixArgs scanBeginArg convertArg (fixArgs scanBeginArg convertArg cmd).2).1 = false := by
  have hscan := ht.scan_done
  have hconvert := ht.convert_done
  have hscanEnd : (fixArgs scanBeginArg convertArg cmd).2.scanEndArg = cmd.chanlistLen := only_snd
  have hstart : (fixArgs scanBeginArg convertArg cmd).2.startArg = 0 := only_snd
  have hstop : (stopArg cmd.stopSrc (fixArgs scanBeginArg convertArg cmd).2.stopArg).1 = false :=
    (sound_stopArg _).done _
  generalize hfixed : (fixArgs scanBeginArg convertArg cmd).2 = fixed at *
  have hlen : fixed.chanlistLen = cmd.chanlistLen := hfixed ▸ rfl
  have hsrc : fixed.stopSrc = cmd.stopSrc := hfixed ▸ rfl
  unfold fixArgs
  dsimp only
  rw [hscan, hconvert, hsrc, hstop, only_eq_false.mpr hstart, hlen, only_eq_false.mpr hscanEnd]
  rfl

theorem Supported.timer (h : Supported cmd) : cmd.scanBeginSrc = trigTimer := by
  have hmask := h.masked
  unfold maskSources cmdtestHelper at hmask
  simp only [Bool.or_eq_false_iff] at hmask
  have hnot := of_decide_eq_false hmask.1.1.1.2
  push Not at hnot
  have hsame : cmd.scanBeginSrc = cmd.scanBeginSrc &&& trigTimer := hnot.2
  have hbit : cmd.scanBeginSrc &&& trigTimer = 0 ∨ cmd.scanBeginSrc &&& trigTimer = trigTimer :=
    BitFlags.and_twoPow_cases cmd.scanBeginSrc 4
  exact hbit.elim (fun hzero => absurd hzero hnot.1) hsame.trans

theorem Supported.sources (h : Supported cmd) : ¬ badSources cmd := by
  rintro (⟨-, -, htimer⟩ | ⟨hcount, hnone⟩)
  · exact htimer h.timer
  · exact h.stop.elim hcount hnone

theorem cmdtest_eq (hprobed : dev.probed = true) (fix : Cmd → Bool × Cmd) (h : Supported cmd) :
    cmdtest dev fix cmd = (if (fix cmd).1 then 3 else 0, (fix cmd).2) := by
  have hmasked : maskSources cmd = (false, cmd) :=
    Prod.ext h.masked (RtTimer.cmdtestHelper_ok h.masked)
  unfold cmdtest
  rw [if_pos hprobed, hmasked]
  dsimp only
  rw [if_neg Bool.false_ne_true, if_neg h.sources]

theorem cmdtest_stable {y : Cmd} (ht : Timed scanBeginArg convertArg y) :
    Stable (cmdtest dev (fixArgs scanBeginArg convertArg)) := by
  intro cmd hret
  unfold cmdtest at hret ⊢
  cases hprobed : dev.probed with
  | false =>
    rw [hprobed] at hret
    exact absurd hret (by decide : ¬ (-enodev = 0))
  | true =>
    rw [hprobed] at hret
    dsimp only [if_true] at hret ⊢
    cases hmask : (maskSources cmd).1 with
    | true =>
      rw [hmask] at hret
      exact absurd hret (by decide : ¬ (1 : Int) = 0)
    | false =>
      have hsame : (maskSources cmd).2 = cmd := RtTimer.cmdtestHelper_ok hmask
      rw [hmask, hsame, if_neg Bool.false_ne_true] at hret
      rw [hsame, if_neg Bool.false_ne_true]
      by_cases hsources : badSources cmd
      · rw [if_pos hsources] at hret
        exact absurd hret (by decide : ¬ (2 : Int) = 0)
      · rw [if_neg hsources] at hret ⊢
        cases hfix : (fixArgs scanBeginArg convertArg cmd).1 with
        | true =>
          rw [hfix] at hret
          exact absurd hret (by decide : ¬ (3 : Int) = 0)
        | false => exact fixArgs_kept ht hfix

/-- Two tests are enough, and what they accept is what step 3 makes of the command. -/
theorem settles_fixed_iff (hprobed : dev.probed = true) (ht : Timed scanBeginArg convertArg cmd)
    (h : Supported cmd) (n : Nat) :
    Settles (cmdtest dev (fixArgs scanBeginArg convertArg)) P (n + 2) cmd ↔
      P (fixArgs scanBeginArg convertArg cmd).2 := by
  have hsupported : Supported (fixArgs scanBeginArg convertArg cmd).2 := ⟨h.masked, h.stop⟩
  have hdone := fixArgs_done ht
  have haccepted : (cmdtest dev (fixArgs scanBeginArg convertArg)
      (fixArgs scanBeginArg convertArg cmd).2).1 = 0 := by
    rw [cmdtest_eq hprobed _ hsupported, hdone]
    rfl
  cases hfix : (fixArgs scanBeginArg convertArg cmd).1 with
  | false =>
    rw [fixArgs_kept ht hfix] at haccepted ⊢
    exact settles_of_accepted (cmdtest_stable ht) haccepted _
  | true =>
    have htest := cmdtest_eq hprobed (fixArgs scanBeginArg convertArg) h
    rw [hfix] at htest
    have hret : (cmdtest dev (fixArgs scanBeginArg convertArg) cmd).1 ≠ 0 := by
      rw [htest]
      exact (by decide : ¬ (3 : Int) = 0)
    rw [settles_of_amended hret, htest]
    exact settles_of_accepted (cmdtest_stable ht) haccepted _

end Tests

section Times

variable {dev : Usbdux} {cmd : Cmd}

theorem aiGrid_dvd (dev : Usbdux) (h : cmd.chanlistLen.toNat ≤ 8) :
    (aiGrid dev).toNat ∣ (aiLeast dev cmd.chanlistLen).toNat := by
  unfold aiGrid aiLeast
  cases dev.highSpeed with
  | false => exact dvd_refl _
  | true =>
    obtain ⟨-, hcases⟩ := interval_cases h
    have hmicro : microframe.toNat = 125000 := rfl
    rw [if_pos rfl, if_pos rfl, BitVec.toNat_mul, hmicro, Nat.mod_eq_of_lt (by omega)]
    exact Nat.dvd_mul_right _ _

theorem aiGrid_pos (dev : Usbdux) : 0 < (aiGrid dev).toNat := by
  unfold aiGrid
  cases dev.highSpeed <;> decide

theorem sound_aiScanBeginArg (src : U32) (hlen : cmd.chanlistLen.toNat ≤ 8) :
    Sound (aiScanBeginArg dev src cmd.chanlistLen) :=
  sound_ite (sound_only 0)
    (sound_ite (sound_gridArg (aiGrid_pos dev) (aiGrid_dvd dev hlen)) sound_keep)

theorem sound_aoScanBeginArg (src : U32) : Sound (aoScanBeginArg src) :=
  sound_ite (sound_only 0)
    (sound_ite (sound_put (· < frame) (BitVec.lt_irrefl frame)) sound_keep)

theorem sound_aoConvertArg (src : U32) : Sound (aoConvertArg src) :=
  sound_ite (sound_put (· < microframe) (BitVec.lt_irrefl microframe)) sound_keep

theorem ai_timed (hlen : cmd.chanlistLen.toNat ≤ 8) :
    Timed (fun y => aiScanBeginArg dev y.scanBeginSrc y.chanlistLen y.scanBeginArg)
      (fun y => (false, y.convertArg)) cmd where
  scan_kept y hy := by
    unfold aiScanBeginArg at hy ⊢
    split at hy
    next hfollow => rw [if_pos hfollow, (sound_only 0).kept _ hy]
    next hfollow =>
      rw [if_neg hfollow]
      split at hy
      next htimer => rw [if_pos htimer, gridArg_kept hy]
      next htimer => rw [if_neg htimer]
  convert_kept _ _ := rfl
  scan_done := (sound_aiScanBeginArg cmd.scanBeginSrc hlen).done cmd.scanBeginArg
  convert_done := rfl

theorem ao_timed (cmd : Cmd) :
    Timed (fun y => aoScanBeginArg y.scanBeginSrc y.scanBeginArg)
      (fun y => aoConvertArg y.convertSrc y.convertArg) cmd where
  scan_kept y := (sound_aoScanBeginArg y.scanBeginSrc).kept y.scanBeginArg
  convert_kept y := (sound_aoConvertArg y.convertSrc).kept y.convertArg
  scan_done := (sound_aoScanBeginArg cmd.scanBeginSrc).done cmd.scanBeginArg
  convert_done := (sound_aoConvertArg cmd.convertSrc).done cmd.convertArg

theorem aiFixArgs_scanBeginArg (h : Supported cmd) : (aiFixArgs dev cmd).2.scanBeginArg =
    raise (aiLeast dev cmd.chanlistLen) cmd.scanBeginArg / aiGrid dev * aiGrid dev := by
  unfold aiFixArgs fixArgs aiScanBeginArg
  dsimp only
  rw [h.timer, if_neg (by decide : ¬ trigTimer = trigFollow), if_pos rfl, gridArg_snd]

theorem aoFixArgs_scanBeginArg (h : Supported cmd) :
    (aoFixArgs cmd).2.scanBeginArg = raise frame cmd.scanBeginArg := by
  unfold aoFixArgs fixArgs aoScanBeginArg
  dsimp only
  rw [h.timer, if_neg (by decide : ¬ trigTimer = trigFollow), if_pos rfl]
  rfl

/-- A whole number of units, and at least one of them. -/
theorem whole_units {unit arg : Nat} (hunit : 0 < unit) :
    (¬ arg / unit < 1 ∧ arg / unit * unit = arg) ↔ unit ≤ arg ∧ unit ∣ arg := by
  rw [Nat.not_lt, Nat.le_div_iff_mul_le hunit, Nat.one_mul]
  exact and_congr_right fun _ => ⟨fun h => Dvd.intro_left _ h, Nat.div_mul_cancel⟩

theorem aiLeast_toNat (h : dev.highSpeed = true) (hlen : cmd.chanlistLen.toNat ≤ 8) :
    (aiLeast dev cmd.chanlistLen).toNat = 125000 * (interval cmd.chanlistLen).toNat := by
  obtain ⟨-, hcases⟩ := interval_cases hlen
  have hmicro : microframe.toNat = 125000 := rfl
  unfold aiLeast
  rw [if_pos h, BitVec.toNat_mul, hmicro, Nat.mod_eq_of_lt (by omega)]

/-- The command starts with the timer that is given, or not at all. -/
theorem aiExact_of_timer {t : AiTiming}
    (ht : aiTiming dev cmd = if t.aiTimer < 1 then .error (-einval) else .ok t)
    (hperiod : aiPeriod dev t = t.aiTimer.toNat * (aiLeast dev cmd.chanlistLen).toNat)
    (htimer : t.aiTimer.toNat = cmd.scanBeginArg.toNat / (aiLeast dev cmd.chanlistLen).toNat)
    (hpos : 0 < (aiLeast dev cmd.chanlistLen).toNat) : AiExact dev cmd ↔
      (aiLeast dev cmd.chanlistLen).toNat ≤ cmd.scanBeginArg.toNat ∧
        (aiLeast dev cmd.chanlistLen).toNat ∣ cmd.scanBeginArg.toNat := by
  rw [← whole_units hpos, ← htimer]
  unfold AiExact
  rw [ht]
  constructor
  · rintro ⟨t', ht', hexact, -⟩
    split at ht'
    · exact absurd ht' nofun
    next hone =>
      obtain rfl := Except.ok.inj ht'
      exact ⟨hone, hperiod.symm.trans hexact⟩
  · rintro ⟨hone, hexact⟩
    refine ⟨t, if_neg hone, hperiod.trans hexact, ?_⟩
    rw [hperiod]
    exact (Nat.mul_pos (Nat.not_lt.mp hone) hpos).ne'

theorem aiExact_iff (hlen : cmd.chanlistLen.toNat ≤ 8) : AiExact dev cmd ↔
    (aiLeast dev cmd.chanlistLen).toNat ≤ cmd.scanBeginArg.toNat ∧
      (aiLeast dev cmd.chanlistLen).toNat ∣ cmd.scanBeginArg.toNat := by
  obtain ⟨-, hcases⟩ := interval_cases hlen
  cases hspeed : dev.highSpeed with
  | false =>
    have hleast : aiLeast dev cmd.chanlistLen = frame := by
      unfold aiLeast
      rw [hspeed, if_neg Bool.false_ne_true]
    refine @aiExact_of_timer _ _ ⟨1, cmd.scanBeginArg / frame, cmd.scanBeginArg / frame⟩
      ?_ ?_ ?_ ?_
    · unfold aiTiming
      rw [hspeed]
      rfl
    · unfold aiPeriod
      rw [hspeed, if_neg Bool.false_ne_true, hleast]
      rfl
    · rw [hleast]
      exact BitVec.toNat_udiv
    · rw [hleast]
      decide
  | true =>
    have hleast : aiLeast dev cmd.chanlistLen = microframe * interval cmd.chanlistLen := by
      unfold aiLeast
      rw [if_pos hspeed]
    have hnat := aiLeast_toNat hspeed hlen
    refine @aiExact_of_timer _ _ ⟨interval cmd.chanlistLen,
      cmd.scanBeginArg / (microframe * interval cmd.chanlistLen),
      cmd.scanBeginArg / (microframe * interval cmd.chanlistLen)⟩ ?_ ?_ ?_ ?_
    · unfold aiTiming
      rw [hspeed]
      rfl
    · unfold aiPeriod
      rw [if_pos hspeed, hnat, Nat.mul_assoc, Nat.mul_comm 125000]
    · rw [hleast]
      exact BitVec.toNat_udiv
    · omega

theorem aoExact_iff : AoExact cmd ↔
    1000000 ≤ cmd.scanBeginArg.toNat ∧ 1000000 ∣ cmd.scanBeginArg.toNat := by
  have htimer : (cmd.scanBeginArg / frame).toNat = cmd.scanBeginArg.toNat / 1000000 :=
    BitVec.toNat_udiv
  rw [← whole_units (by decide : 0 < 1000000), ← htimer]
  unfold AoExact aoTiming
  dsimp only
  constructor
  · rintro ⟨t, ht, hperiod, -⟩
    split at ht
    · exact absurd ht nofun
    next hone =>
      obtain rfl := Except.ok.inj ht
      exact ⟨hone, hperiod⟩
  · rintro ⟨hone, hperiod⟩
    have hpos : 0 < (cmd.scanBeginArg / frame).toNat := Nat.not_lt.mp hone
    exact ⟨_, if_neg hone, hperiod, (Nat.mul_pos hpos (by decide : 0 < 1000000)).ne'⟩

theorem raise_toNat (least arg : U32) :
    (raise least arg).toNat = max arg.toNat least.toNat :=
  @put_low Nat _ U32 _ _ BitVec.toNat (fun _ _ => Iff.rfl) least arg

/-- Which multiple of the grid the test makes of the period of an input. -/
theorem aiFixArgs_toNat (h : Supported cmd) : (aiFixArgs dev cmd).2.scanBeginArg.toNat =
    max cmd.scanBeginArg.toNat (aiLeast dev cmd.chanlistLen).toNat / (aiGrid dev).toNat *
      (aiGrid dev).toNat := by
  rw [aiFixArgs_scanBeginArg h, grid_toNat, raise_toNat]

theorem aiLeast_le_fixed (h : Supported cmd) (hlen : cmd.chanlistLen.toNat ≤ 8) :
    (aiLeast dev cmd.chanlistLen).toNat ≤ (aiFixArgs dev cmd).2.scanBeginArg.toNat := by
  rw [aiFixArgs_toNat h]
  obtain ⟨k, hk⟩ := aiGrid_dvd dev hlen
  rw [hk, Nat.mul_comm (aiGrid dev).toNat]
  refine Nat.mul_le_mul_right _ ((Nat.le_div_iff_mul_le (aiGrid_pos dev)).mpr ?_)
  exact le_max_right _ _

theorem aiLeast_dvd_fixed_iff (h : Supported cmd) (hlen : cmd.chanlistLen.toNat ≤ 8) :
    (aiLeast dev cmd.chanlistLen).toNat ∣ (aiFixArgs dev cmd).2.scanBeginArg.toNat ↔
      AiOnGrid dev cmd := by
  rw [aiFixArgs_toNat h]
  unfold AiOnGrid
  cases hspeed : dev.highSpeed with
  | false =>
    have hsame : aiLeast dev cmd.chanlistLen = aiGrid dev := by
      unfold aiLeast aiGrid
      rw [hspeed]
      rfl
    rw [hsame]
    exact iff_of_true (Nat.dvd_mul_left _ _) nofun
  | true =>
    obtain ⟨-, hcases⟩ := interval_cases hlen
    have hgrid : (aiGrid dev).toNat = 125000 := by
      unfold aiGrid
      rw [if_pos hspeed]
      rfl
    rw [aiLeast_toNat hspeed hlen, hgrid, Nat.mul_comm (_ / _),
      Nat.mul_dvd_mul_iff_left (by decide : 0 < 125000)]
    simp only [true_implies]
    rcases Nat.lt_or_ge cmd.scanBeginArg.toNat (125000 * (interval cmd.chanlistLen).toNat)
      with hlow | hhigh
    · rw [max_eq_right hlow.le, Nat.mul_div_cancel_left _ (by decide)]
      exact iff_of_true (dvd_refl _) (.inl hlow)
    · rw [max_eq_left hhigh]
      exact ⟨.inr, fun hor => hor.resolve_left (Nat.not_lt.mpr hhigh)⟩

theorem frame_dvd_fixed_iff (h : Supported cmd) :
    (1000000 ≤ (aoFixArgs cmd).2.scanBeginArg.toNat ∧
      1000000 ∣ (aoFixArgs cmd).2.scanBeginArg.toNat) ↔ AoOnGrid cmd := by
  have hframe : frame.toNat = 1000000 := rfl
  rw [aoFixArgs_scanBeginArg h, raise_toNat, hframe]
  unfold AoOnGrid
  rcases Nat.lt_or_ge cmd.scanBeginArg.toNat 1000000 with hlow | hhigh
  · rw [max_eq_right hlow.le]
    exact iff_of_true ⟨le_refl _, dvd_refl _⟩ (.inl hlow)
  · rw [max_eq_left hhigh]
    exact ⟨fun hdvd => .inr hdvd.2, fun hor => ⟨hhigh, hor.resolve_left (Nat.not_lt.mpr hhigh)⟩⟩

/-- Two tests are enough for both subdevices, and the accepted period is the one that is used where
it is a multiple of what the start routine divides by. -/
theorem periods_exact_iff (hprobed : dev.probed = true) (h : Supported cmd)
    (hlen : cmd.chanlistLen.toNat ≤ 8) :
    (Settles (usbduxAiCmdtest dev) (AiExact dev) 5 cmd ↔ AiOnGrid dev cmd) ∧
      (Settles (usbduxAoCmdtest dev) AoExact 5 cmd ↔ AoOnGrid cmd) := by
  constructor
  · have hsettles : Settles (usbduxAiCmdtest dev) (AiExact dev) 5 cmd ↔
        AiExact dev (aiFixArgs dev cmd).2 := settles_fixed_iff hprobed (ai_timed hlen) h 3
    rw [hsettles, @aiExact_iff dev (aiFixArgs dev cmd).2 hlen, ← aiLeast_dvd_fixed_iff h hlen]
    exact and_iff_right (aiLeast_le_fixed h hlen)
  · have hsettles : Settles (usbduxAoCmdtest dev) AoExact 5 cmd ↔ AoExact (aoFixArgs cmd).2 :=
      settles_fixed_iff hprobed (ao_timed cmd) h 3
    rw [hsettles, aoExact_iff, frame_dvd_fixed_iff h]

end Times

/-- Timed scans of some channels. -/
def timedScan (chanlistLen scanBeginArg : U32) : Cmd :=
  { startSrc := trigNow, scanBeginSrc := trigTimer, scanBeginArg := scanBeginArg,
    convertSrc := trigNow, scanEndSrc := trigCount, scanEndArg := chanlistLen,
    chanlistLen := chanlistLen, stopSrc := trigCount, stopArg := 1 }

theorem periods_exact_three_channels :
    Settles (usbduxAiCmdtest ⟨true, true⟩) (AiExact ⟨true, true⟩) 5 (timedScan 3 1000000) ∧
      Settles (usbduxAoCmdtest ⟨true, true⟩) AoExact 5 (timedScan 3 1000000) := by
  have hsupported : Supported (timedScan 3 1000000) := ⟨by decide, .inl rfl⟩
  have hexact := @periods_exact_iff ⟨true, true⟩ (timedScan 3 1000000) rfl hsupported (by decide)
  exact ⟨hexact.1.mpr fun _ => .inr (by decide), hexact.2.mpr (.inr (by decide))⟩

/-- Five microframes for three channels become one transfer of four, and one frame and a half of
the outputs becomes one. -/
theorem three_channels_shortened :
    (usbduxAiCmdtest ⟨true, true⟩ (timedScan 3 625000)).1 = 0 ∧
      (∃ t, aiTiming ⟨true, true⟩ (timedScan 3 625000) = .ok t ∧
        aiPeriod ⟨true, true⟩ t = 500000) ∧
      ¬ AiExact ⟨true, true⟩ (timedScan 3 625000) ∧
      (usbduxAoCmdtest ⟨true, true⟩ (timedScan 3 1500000)).1 = 0 ∧
      (∃ t, aoTiming (timedScan 3 1500000) = .ok t ∧ aoPeriod t = 1000000) ∧
      ¬ AoExact (timedScan 3 1500000) := by
  refine ⟨by decide, ⟨_, rfl, by decide⟩, ?_, by decide, ⟨_, rfl, by decide⟩, ?_⟩
  · rintro ⟨t, ht, hexact, -⟩
    obtain rfl := Except.ok.inj ht
    exact absurd hexact (by decide)
  · rintro ⟨t, ht, hexact, -⟩
    obtain rfl := Except.ok.inj ht
    exact absurd hexact (by decide)

end Comedi.UsbduxTiming
