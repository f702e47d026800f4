import Comedi.Pci9118Cmdtest
import Comedi.Retests

namespace Comedi.Pci9118Settles

open ArgFixes I8253Pacing Pci9118Cmdtest Retests
open I8253 (cascadeNsToTimer2div trigRoundDown)
open Pci230 (trigExt)
open RtTimer (trigNone trigNow trigFollow trigTimer trigCount trigInt maskSrc cmdtestHelper)

/-- Each source is a single one that the device has. -/
structure Supported (dev : Pci9118) (cmd : Cmd) : Prop where
  start : cmd.startSrc = trigNow ∨ cmd.startSrc = trigExt ∨ cmd.startSrc = trigInt
  scanBegin : cmd.scanBeginSrc = trigFollow ∨
    dev.master = true ∧ (cmd.scanBeginSrc = trigTimer ∨ cmd.scanBeginSrc = trigExt)
  convert : cmd.convertSrc = trigTimer ∨ cmd.convertSrc = trigExt ∨
    dev.master = true ∧ cmd.convertSrc = trigNow
  scanEnd : cmd.scanEndSrc = trigCount
  stop : cmd.stopSrc = trigCount ∨ cmd.stopSrc = trigNone ∨ cmd.stopSrc = trigExt

/-- Sources that do not contradict each other. -/
structure Compatible (cmd : Cmd) : Prop where
  start : ¬ (cmd.startSrc = trigExt ∧ cmd.scanBeginSrc = trigExt)
  scan : ¬ (cmd.scanBeginSrc &&& (trigTimer ||| trigExt) ≠ 0 ∧
    cmd.convertSrc &&& (trigTimer ||| trigNow) = 0)
  follow : ¬ (cmd.scanBeginSrc = trigFollow ∧ cmd.convertSrc &&& (trigTimer ||| trigExt) = 0)
  stop : ¬ (cmd.stopSrc = trigExt ∧ cmd.scanBeginSrc = trigExt)

section Sources

variable {dev : Pci9118} {cmd : Cmd}

theorem Supported.masked (h : Supported dev cmd) : maskSources dev cmd = (false, cmd) := by
  have hstart : maskSrc cmd.startSrc (trigNow ||| trigExt ||| trigInt) = (cmd.startSrc, false) := by
    rcases h.start with hsrc | hsrc | hsrc <;> rw [hsrc] <;> decide
  have hscanBegin : maskSrc cmd.scanBeginSrc
      (if dev.master then trigTimer ||| trigExt ||| trigFollow else trigFollow) =
        (cmd.scanBeginSrc, false) := by
    rcases h.scanBegin with hsrc | ⟨hmaster, hsrc | hsrc⟩
    · rw [hsrc]
      cases dev.master <;> decide
    · rw [hmaster, hsrc]
      decide
    · rw [hmaster, hsrc]
      decide
  have hconvert : maskSrc cmd.convertSrc
      (if dev.master then trigTimer ||| trigExt ||| trigNow else trigTimer ||| trigExt) =
        (cmd.convertSrc, false) := by
    rcases h.convert with hsrc | hsrc | ⟨hmaster, hsrc⟩
    · rw [hsrc]
      cases dev.master <;> decide
    · rw [hsrc]
      cases dev.master <;> decide
    · rw [hmaster, hsrc]
      decide
  have hscanEnd : maskSrc cmd.scanEndSrc trigCount = (cmd.scanEndSrc, false) := by
    rw [h.scanEnd]
    decide
  have hstop : maskSrc cmd.stopSrc (trigCount ||| trigNone ||| trigExt) =
      (cmd.stopSrc, false) := by
    rcases h.stop with hsrc | hsrc | hsrc <;> rw [hsrc] <;> decide
  unfold maskSources cmdtestHelper
  dsimp only
  rw [hstart, hscanBegin, hconvert, hscanEnd, hstop]
  rfl

/-- Of single sources, step 2 looks at those that contradict each other. -/
theorem mend_eq (h : Supported dev cmd) :
    let start := put (cmd.startSrc = trigExt ∧ cmd.scanBeginSrc = trigExt) trigNow cmd.startSrc
    let scan := put (cmd.scanBeginSrc &&& (trigTimer ||| trigExt) ≠ 0 ∧
      cmd.convertSrc &&& (trigTimer ||| trigNow) = 0) trigTimer cmd.convertSrc
    let follow := put (cmd.scanBeginSrc = trigFollow ∧
      scan.2 &&& (trigTimer ||| trigExt) = 0) trigTimer scan.2
    let stop := put (cmd.stopSrc = trigExt ∧ cmd.scanBeginSrc = trigExt) trigCount cmd.stopSrc
    mendSources cmd = (start.1 || scan.1 || follow.1 || stop.1,
      { cmd with startSrc := start.2, convertSrc := follow.2, stopSrc := stop.2 }) := by
  have hstart : ¬ (cmd.startSrc ≠ trigNow ∧ cmd.startSrc ≠ trigInt ∧ cmd.startSrc ≠ trigExt) :=
    fun hbad => h.start.elim hbad.1 (·.elim hbad.2.2 hbad.2.1)
  have hscanBegin : ¬ (cmd.scanBeginSrc ≠ trigTimer ∧ cmd.scanBeginSrc ≠ trigExt ∧
      cmd.scanBeginSrc ≠ trigInt ∧ cmd.scanBeginSrc ≠ trigFollow) :=
    fun hbad => h.scanBegin.elim hbad.2.2.2 (·.2.elim hbad.1 hbad.2.1)
  have hconvert : ¬ (cmd.convertSrc ≠ trigTimer ∧ cmd.convertSrc ≠ trigExt ∧
      cmd.convertSrc ≠ trigNow) :=
    fun hbad => h.convert.elim hbad.1 (·.elim hbad.2.1 fun hnow => hbad.2.2 hnow.2)
  have hscanEnd : only trigCount cmd.scanEndSrc = (false, cmd.scanEndSrc) :=
    put_of_not (not_not.mpr h.scanEnd)
  have hstop : ¬ (cmd.stopSrc ≠ trigNone ∧ cmd.stopSrc ≠ trigCount ∧ cmd.stopSrc ≠ trigInt ∧
      cmd.stopSrc ≠ trigExt) :=
    fun hbad => h.stop.elim hbad.2.1 (·.elim hbad.1 hbad.2.2.2)
  have hint : cmd.scanBeginSrc ≠ trigInt := by
    rcases h.scanBegin with hsrc | ⟨-, hsrc | hsrc⟩ <;> rw [hsrc] <;> decide
  have hno : ∀ src, ¬ (src = trigInt ∧ cmd.scanBeginSrc = trigInt) := fun _ hboth => hint hboth.2
  unfold mendSources
  dsimp only
  rw [put_of_not hstart, put_of_not hscanBegin, put_of_not hconvert, hscanEnd, put_of_not hstop,
    put_of_not (hno _)]
  simp only [Bool.or_false, Bool.false_or]

theorem Compatible.mended (hc : Compatible cmd) (h : Supported dev cmd) :
    mendSources cmd = (false, cmd) := by
  rw [mend_eq h]
  rw [put_of_not hc.start, put_of_not hc.scan, put_of_not hc.follow, put_of_not hc.stop]
  rfl

theorem compatible_of_mended (h : Supported dev cmd) (hok : (mendSources cmd).1 = false) :
    Compatible cmd := by
  rw [mend_eq h] at hok
  simp only [Bool.or_eq_false_iff, put_eq_false] at hok
  obtain ⟨⟨⟨hstart, hscan⟩, hfollow⟩, hstop⟩ := hok
  rw [put_of_not hscan] at hfollow
  exact ⟨hstart, hscan, hfollow, hstop⟩

theorem convert_cases (scanBegin convert : U32) :
    let scan := put (scanBegin &&& (trigTimer ||| trigExt) ≠ 0 ∧
      convert &&& (trigTimer ||| trigNow) = 0) trigTimer convert
    let follow := put (scanBegin = trigFollow ∧ scan.2 &&& (trigTimer ||| trigExt) = 0)
      trigTimer scan.2
    follow.2 = trigTimer ∨
      (¬ (scanBegin &&& (trigTimer ||| trigExt) ≠ 0 ∧ convert &&& (trigTimer ||| trigNow) = 0) ∧
        ¬ (scanBegin = trigFollow ∧ convert &&& (trigTimer ||| trigExt) = 0)) ∧
          follow.2 = convert := by
  intro scan follow
  by_cases hscan : scanBegin &&& (trigTimer ||| trigExt) ≠ 0 ∧
      convert &&& (trigTimer ||| trigNow) = 0
  · have hput : scan = (true, trigTimer) := put_of hscan
    left
    change (put (scanBegin = trigFollow ∧ scan.2 &&& _ = 0) trigTimer scan.2).2 = trigTimer
    rw [hput]
    exact put_snd_cases.elim id fun hkept => hkept.2
  · have hput : scan = (false, convert) := put_of_not hscan
    change (put (scanBegin = trigFollow ∧ scan.2 &&& _ = 0) trigTimer scan.2).2 = _ ∨
      _ ∧ (put (scanBegin = trigFollow ∧ scan.2 &&& _ = 0) trigTimer scan.2).2 = _
    rw [hput]
    exact put_snd_cases.imp_right fun hkept => ⟨⟨hscan, hkept.1⟩, hkept.2⟩

/-- What step 2 makes of the sources. -/
theorem mend_cases (h : Supported dev cmd) :
    ((mendSources cmd).2.startSrc = trigNow ∨
        ¬ (cmd.startSrc = trigExt ∧ cmd.scanBeginSrc = trigExt) ∧
          (mendSources cmd).2.startSrc = cmd.startSrc) ∧
      ((mendSources cmd).2.convertSrc = trigTimer ∨ Compatible { cmd with
          startSrc := trigNow, stopSrc := trigCount } ∧
        (mendSources cmd).2.convertSrc = cmd.convertSrc) ∧
      ((mendSources cmd).2.stopSrc = trigCount ∨
        ¬ (cmd.stopSrc = trigExt ∧ cmd.scanBeginSrc = trigExt) ∧
          (mendSources cmd).2.stopSrc = cmd.stopSrc) ∧
      (mendSources cmd).2.scanBeginSrc = cmd.scanBeginSrc ∧
      (mendSources cmd).2.scanEndSrc = cmd.scanEndSrc := by
  rw [mend_eq h]
  refine ⟨put_snd_cases, ?_, put_snd_cases, rfl, rfl⟩
  refine (convert_cases cmd.scanBeginSrc cmd.convertSrc).imp_right fun hkept => ⟨?_, hkept.2⟩
  refine ⟨fun hstart => ?_, hkept.1.1, hkept.1.2, fun hstop => ?_⟩
  · exact absurd hstart.1 (show trigNow ≠ trigExt by decide)
  · exact absurd hstop.1 (show trigCount ≠ trigExt by decide)

theorem mend_supported (h : Supported dev cmd) : Supported dev (mendSources cmd).2 := by
  obtain ⟨hstart, hconvert, hstop, hscanBegin, hscanEnd⟩ := mend_cases h
  refine ⟨?_, ?_, ?_, ?_, ?_⟩
  · rcases hstart with hsrc | ⟨-, hsrc⟩
    · exact .inl hsrc
    · rw [hsrc]
      exact h.start
  · rw [hscanBegin]
    exact h.scanBegin
  · rcases hconvert with hsrc | ⟨-, hsrc⟩
    · exact .inl hsrc
    · rw [hsrc]
      exact h.convert
  · rw [hscanEnd]
    exact h.scanEnd
  · rcases hstop with hsrc | ⟨-, hsrc⟩
    · exact .inl hsrc
    · rw [hsrc]
      exact h.stop

theorem mend_compatible (h : Supported dev cmd) : Compatible (mendSources cmd).2 := by
  obtain ⟨hstart, hconvert, hstop, hscanBegin, -⟩ := mend_cases h
  have htimer : trigTimer &&& (trigTimer ||| trigNow) ≠ 0 ∧
      trigTimer &&& (trigTimer ||| trigExt) ≠ 0 := by decide
  refine ⟨?_, ?_, ?_, ?_⟩ <;> rw [hscanBegin]
  · rcases hstart with hsrc | ⟨hnot, hsrc⟩ <;> rw [hsrc]
    · exact fun hboth => absurd hboth.1 (by decide)
    · exact hnot
  · rcases hconvert with hsrc | ⟨hnot, hsrc⟩ <;> rw [hsrc]
    · exact fun hboth => htimer.1 hboth.2
    · exact hnot.scan
  · rcases hconvert with hsrc | ⟨hnot, hsrc⟩ <;> rw [hsrc]
    · exact fun hboth => htimer.2 hboth.2
    · exact hnot.follow
  · rcases hstop with hsrc | ⟨hnot, hsrc⟩ <;> rw [hsrc]
    · exact fun hboth => absurd hboth.1 (by decide)
    · exact hnot

end Sources

/-- What step 3 leaves as it is, but for scans of one conversion. -/
structure Fixed (dev : Pci9118) (cmd : Cmd) : Prop where
  start : (startArg cmd.startSrc cmd.startArg).1 = false
  idle : (idleArg cmd.scanBeginSrc cmd.scanBeginArg).1 = false
  scanBegin : (scanBeginArg dev cmd.scanBeginSrc cmd.scanBeginArg).1 = false
  convert : (convertArg dev cmd.convertSrc cmd.convertArg).1 = false
  stop : (stopArg cmd.stopSrc cmd.stopArg).1 = false
  len : (chanlistLen dev cmd.chanlistLen).1 = false
  scanEnd : (scanEndArg cmd.chanlistLen cmd.scanEndArg).1 = false

section Fixes

variable {dev : Pci9118} {cmd : Cmd} {len arg : U32}

theorem sound_startArg (src : U32) : Sound (startArg src) := sound_ite (sound_only 0) sound_keep

theorem sound_idleArg (src : U32) : Sound (idleArg src) := sound_ite (sound_only 0) sound_keep

theorem sound_least (dev : Pci9118) :
    Sound fun arg => put (arg < dev.aiNsMin) dev.aiNsMin arg :=
  sound_put (· < dev.aiNsMin) (BitVec.lt_irrefl _)

theorem sound_scanBeginArg (dev : Pci9118) (src : U32) : Sound (scanBeginArg dev src) :=
  sound_ite (sound_least dev) sound_keep

theorem sound_convertArg (dev : Pci9118) (src : U32) : Sound (convertArg dev src) :=
  sound_ite (sound_least dev) (sound_ite (sound_only 0) sound_keep)

theorem sound_stopArg (src : U32) : Sound (stopArg src) :=
  sound_ite (sound_put (· = 0) (by decide : ¬ (1 : U32) = 0)) (sound_only 0)

theorem chanlistLen_eq_false :
    (chanlistLen dev len).1 = false ↔ len ≠ 0 ∧ ¬ dev.nAichanlist < len := by
  unfold chanlistLen
  dsimp only
  rw [Bool.or_eq_false_iff, put_eq_false]
  refine and_congr_right fun hlen => ?_
  rw [put_of_not hlen, put_eq_false]

theorem chanlistLen_kept (h : (chanlistLen dev len).1 = false) : (chanlistLen dev len).2 = len := by
  obtain ⟨hlen, hmost⟩ := chanlistLen_eq_false.mp h
  unfold chanlistLen
  dsimp only
  rw [put_of_not hlen, put_of_not hmost]

theorem chanlistLen_done (dev : Pci9118) (len : U32) :
    (chanlistLen dev (chanlistLen dev len).2).1 = false := by
  have hnone : dev.nAichanlist ≠ 0 := by
    intro hzero
    have hpos := dev.nAichanlist_pos
    rw [hzero] at hpos
    exact absurd hpos (by decide)
  have hsome : (put (len = 0) 1 len).2 ≠ 0 := by
    rcases @put_snd_cases U32 (len = 0) _ 1 len with hsome | ⟨hsome, hkept⟩
    · rw [hsome]
      decide
    · rwa [hkept]
  rw [chanlistLen_eq_false]
  unfold chanlistLen
  dsimp only
  generalize (put (len = 0) 1 len).2 = some at hsome
  rcases @put_snd_cases U32 (dev.nAichanlist < some) _ dev.nAichanlist some with
    hmost | ⟨hmost, hkept⟩
  · rw [hmost]
    exact ⟨hnone, BitVec.lt_irrefl _⟩
  · rw [hkept]
    exact ⟨hsome, hmost⟩

theorem scanEndArg_eq_false :
    (scanEndArg len arg).1 = false ↔ ¬ arg < len ∧ arg % len = 0 := by
  unfold scanEndArg
  dsimp only
  rw [Bool.or_eq_false_iff, put_eq_false]
  refine and_congr_right fun hpass => ?_
  rw [put_of_not hpass, put_eq_false, not_not]

theorem scanEndArg_kept (h : (scanEndArg len arg).1 = false) : (scanEndArg len arg).2 = arg := by
  obtain ⟨hpass, hwhole⟩ := scanEndArg_eq_false.mp h
  unfold scanEndArg
  dsimp only
  rw [put_of_not hpass, put_of_not (not_not.mpr hwhole)]

theorem scanEndArg_done (hlen : len ≠ 0) (arg : U32) :
    (scanEndArg len (scanEndArg len arg).2).1 = false := by
  have hpos : 0 < len.toNat := Nat.pos_of_ne_zero fun hzero => hlen (BitVec.eq_of_toNat_eq hzero)
  obtain ⟨pass, hdef⟩ : ∃ pass, (put (arg < len) len arg).2 = pass := ⟨_, rfl⟩
  have hpass : len.toNat ≤ pass.toNat := by
    rw [← hdef]
    rcases @put_snd_cases U32 (arg < len) _ len arg with hput | ⟨hnot, hput⟩
    · rw [hput]
    · rw [hput]
      exact Nat.not_lt.mp hnot
  have hmul : (len * (pass / len)).toNat = len.toNat * (pass.toNat / len.toNat) := by
    rw [BitVec.toNat_mul, BitVec.toNat_udiv]
    exact Nat.mod_eq_of_lt (Nat.lt_of_le_of_lt (Nat.mul_div_le _ _) pass.isLt)
  rw [scanEndArg_eq_false]
  unfold scanEndArg
  dsimp only
  rw [hdef]
  rcases @put_snd_cases U32 (pass % len ≠ 0) _ (len * (pass / len)) pass with
    hwhole | ⟨hwhole, hkept⟩
  · rw [hwhole]
    constructor
    · refine Nat.not_lt.mpr ?_
      rw [hmul]
      exact Nat.le_mul_of_pos_right _ (Nat.div_pos hpass hpos)
    · apply BitVec.eq_of_toNat_eq
      rw [BitVec.toNat_umod, hmul, Nat.mul_mod_right]
      rfl
  · rw [hkept]
    exact ⟨Nat.not_lt.mpr hpass, not_not.mp hwhole⟩

theorem rewrite_of (h : rewritable cmd) : rewrite cmd =
    { cmd with scanBeginSrc := trigFollow, convertArg := cmd.scanBeginArg, scanBeginArg := 0 } :=
  if_pos h

theorem rewrite_of_not (h : ¬ rewritable cmd) : rewrite cmd = cmd := if_neg h

theorem not_rewritable (cmd : Cmd) : ¬ rewritable (rewrite cmd) := by
  by_cases h : rewritable cmd
  · rw [rewrite_of h]
    exact fun hagain => absurd hagain.1 (show trigFollow ≠ trigTimer by decide)
  · rwa [rewrite_of_not h]

theorem idle_timer (arg : U32) : idleArg trigTimer arg = (false, arg) :=
  if_neg (by decide : ¬ trigTimer &&& (trigFollow ||| trigExt) ≠ 0)

theorem idle_rewrite (h : (idleArg cmd.scanBeginSrc cmd.scanBeginArg).1 = false) :
    (idleArg (rewrite cmd).scanBeginSrc (rewrite cmd).scanBeginArg).1 = false := by
  by_cases hone : rewritable cmd
  · rw [rewrite_of hone]
    exact (by decide : (idleArg trigFollow 0).1 = false)
  · rwa [rewrite_of_not hone]

theorem idle_of_rewrite
    (h : (idleArg (rewrite cmd).scanBeginSrc (rewrite cmd).scanBeginArg).1 = false) :
    (idleArg cmd.scanBeginSrc cmd.scanBeginArg).1 = false := by
  by_cases hone : rewritable cmd
  · rw [hone.1, idle_timer]
  · rwa [rewrite_of_not hone] at h

theorem externalScan_idle (h : (idleArg cmd.scanBeginSrc cmd.scanBeginArg).1 = false) :
    externalScan { cmd with
        scanBeginArg := (scanBeginArg dev cmd.scanBeginSrc cmd.scanBeginArg).2 } =
      (false, { cmd with
        scanBeginArg := (scanBeginArg dev cmd.scanBeginSrc cmd.scanBeginArg).2 }) := by
  refine if_neg ?_
  rintro ⟨hext, hne⟩
  change cmd.scanBeginSrc = trigExt at hext
  have hzero : cmd.scanBeginArg = 0 := by
    unfold idleArg at h
    rw [hext, if_pos (by decide)] at h
    exact only_eq_false.mp h
  have hkept : scanBeginArg dev trigExt cmd.scanBeginArg = (false, cmd.scanBeginArg) :=
    if_neg (by decide)
  refine hne ?_
  rw [hext, hkept]
  exact hzero

theorem fixPeriods_eq (dev : Pci9118)
    (h : (idleArg cmd.scanBeginSrc cmd.scanBeginArg).1 = false) :
    let scanBegin := scanBeginArg dev cmd.scanBeginSrc cmd.scanBeginArg
    let convert := convertArg dev cmd.convertSrc cmd.convertArg
    let stop := stopArg cmd.stopSrc cmd.stopArg
    let len := chanlistLen dev cmd.chanlistLen
    let scanEnd := scanEndArg len.2 cmd.scanEndArg
    fixPeriods dev cmd = (scanBegin.1 || convert.1 || stop.1 || len.1 || scanEnd.1,
      { cmd with
        scanBeginArg := scanBegin.2
        convertArg := convert.2
        stopArg := stop.2
        chanlistLen := len.2
        scanEndArg := scanEnd.2 }) := by
  unfold fixPeriods
  dsimp only
  rw [externalScan_idle h, Bool.or_false]

theorem fixArgs_of_kept (hstart : (startArg cmd.startSrc cmd.startArg).1 = false)
    (hidle : (idleArg cmd.scanBeginSrc cmd.scanBeginArg).1 = false) :
    fixArgs dev cmd = fixPeriods dev (rewrite cmd) := by
  have h1 : startArg cmd.startSrc cmd.startArg = (false, cmd.startArg) :=
    Prod.ext hstart ((sound_startArg _).kept _ hstart)
  have h2 : idleArg cmd.scanBeginSrc cmd.scanBeginArg = (false, cmd.scanBeginArg) :=
    Prod.ext hidle ((sound_idleArg _).kept _ hidle)
  unfold fixArgs
  rw [h1, h2]
  rfl

theorem rewrite_start (cmd : Cmd) :
    (rewrite cmd).startSrc = cmd.startSrc ∧ (rewrite cmd).startArg = cmd.startArg := by
  by_cases h : rewritable cmd
  · rw [rewrite_of h]
    exact ⟨rfl, rfl⟩
  · rw [rewrite_of_not h]
    exact ⟨rfl, rfl⟩

theorem fixArgs_eq_false : (fixArgs dev cmd).1 = false ↔ Fixed dev (rewrite cmd) := by
  obtain ⟨hsrc, harg⟩ := rewrite_start cmd
  constructor
  · intro h
    have hboth : ((startArg cmd.startSrc cmd.startArg).1 ||
        (idleArg cmd.scanBeginSrc cmd.scanBeginArg).1) = false := (Bool.or_eq_false_iff.mp h).1
    obtain ⟨hstart, hidle⟩ := Bool.or_eq_false_iff.mp hboth
    rw [fixArgs_of_kept hstart hidle, fixPeriods_eq dev (idle_rewrite hidle)] at h
    simp only [Bool.or_eq_false_iff] at h
    obtain ⟨⟨⟨⟨hscan, hconvert⟩, hstop⟩, hlen⟩, hend⟩ := h
    rw [chanlistLen_kept hlen] at hend
    exact ⟨by rwa [hsrc, harg], idle_rewrite hidle, hscan, hconvert, hstop, hlen, hend⟩
  · rintro ⟨hstart, hidle, hscan, hconvert, hstop, hlen, hend⟩
    rw [hsrc, harg] at hstart
    rw [fixArgs_of_kept hstart (idle_of_rewrite hidle), fixPeriods_eq dev hidle]
    simp only [Bool.or_eq_false_iff]
    rw [chanlistLen_kept hlen]
    exact ⟨⟨⟨⟨hscan, hconvert⟩, hstop⟩, hlen⟩, hend⟩

/-- Step 3 without an error has changed no more than scans of one conversion. -/
theorem fixArgs_kept (h : Fixed dev (rewrite cmd)) : (fixArgs dev cmd).2 = rewrite cmd := by
  obtain ⟨hstart, hidle, hscan, hconvert, hstop, hlen, hend⟩ := h
  obtain ⟨hsrc, harg⟩ := rewrite_start cmd
  rw [hsrc, harg] at hstart
  rw [fixArgs_of_kept hstart (idle_of_rewrite hidle), fixPeriods_eq dev hidle]
  dsimp only
  rw [chanlistLen_kept hlen, scanEndArg_kept hend, (sound_scanBeginArg dev _).kept _ hscan,
    (sound_convertArg dev _).kept _ hconvert, (sound_stopArg _).kept _ hstop]

theorem fixPeriods_fixed (hstart : (startArg cmd.startSrc cmd.startArg).1 = false)
    (hidle : (idleArg cmd.scanBeginSrc cmd.scanBeginArg).1 = false) :
    Fixed dev (fixPeriods dev cmd).2 := by
  rw [fixPeriods_eq dev hidle]
  refine ⟨hstart, ?_, (sound_scanBeginArg dev _).done _, (sound_convertArg dev _).done _,
    (sound_stopArg _).done _, chanlistLen_done dev _, scanEndArg_done ?_ _⟩
  · change (idleArg cmd.scanBeginSrc (scanBeginArg dev cmd.scanBeginSrc cmd.scanBeginArg).2).1 =
      false
    by_cases htimer : cmd.scanBeginSrc = trigTimer
    · rw [htimer, idle_timer]
    · rwa [show scanBeginArg dev cmd.scanBeginSrc cmd.scanBeginArg = _ from if_neg htimer]
  · exact (chanlistLen_eq_false.mp (chanlistLen_done dev cmd.chanlistLen)).1

/-- An error of step 3 leaves arguments that are in order. -/
theorem fixArgs_fixed (dev : Pci9118) (cmd : Cmd) : Fixed dev (fixArgs dev cmd).2 := by
  refine fixPeriods_fixed ?_ (idle_rewrite ((sound_idleArg _).done _))
  obtain ⟨hsrc, harg⟩ := rewrite_start { cmd with
    startArg := (startArg cmd.startSrc cmd.startArg).2
    scanBeginArg := (idleArg cmd.scanBeginSrc cmd.scanBeginArg).2 }
  rw [hsrc, harg]
  exact (sound_startArg _).done _

/-- A scan of one conversion that is in order is so when it has become conversions. -/
theorem Fixed.rewrite (h : Fixed dev cmd) : Fixed dev (rewrite cmd) := by
  by_cases hone : rewritable cmd
  · have hidle := idle_rewrite h.idle
    have hscan := h.scanBegin
    rw [rewrite_of hone] at hidle ⊢
    have htimer : cmd.scanBeginSrc = trigTimer := hone.1
    have hconvert : cmd.convertSrc = trigTimer := hone.2.1
    refine ⟨h.start, hidle, rfl, ?_, h.stop, h.len, h.scanEnd⟩
    change (convertArg dev cmd.convertSrc cmd.scanBeginArg).1 = false
    unfold scanBeginArg at hscan
    rw [if_pos htimer] at hscan
    unfold convertArg
    rw [hconvert, if_pos (by decide)]
    exact hscan
  · rwa [rewrite_of_not hone]

end Fixes

end Comedi.Pci9118Settles
