import Comedi.Pci9118Periods

namespace Comedi.Pci9118Protected

open ArgFixes I8253Pacing Pci9118Cmdtest Pci9118Settles Pci9118Periods Retests
open Pci230 (trigExt)
open RtTimer (trigNone trigNow trigFollow trigTimer trigCount)

variable {dev : Pci9118} {cmd : Cmd}

/-- Timed scans of more than one timed conversion come to periods that fit. -/
def Spaced (dev : Pci9118) (mode scan convert scanEnd : U32) : Prop :=
  (tune dev mode (tune dev mode convert)).toNat * scanEnd.toNat ≤
    (tune dev mode (tune dev mode scan)).toNat

instance (mode scan convert scanEnd : U32) : Decidable (Spaced dev mode scan convert scanEnd) :=
  inferInstanceAs (Decidable (_ ≤ _))

section Rewrite

theorem rewrite_supported (h : Supported dev cmd) : Supported dev (rewrite cmd) := by
  by_cases hone : rewritable cmd
  · rw [rewrite_of hone]
    exact ⟨h.start, .inl rfl, h.convert, h.scanEnd, h.stop⟩
  · rwa [rewrite_of_not hone]

theorem rewrite_compatible (h : Compatible cmd) : Compatible (rewrite cmd) := by
  by_cases hone : rewritable cmd
  · have hfollow : ¬ trigFollow &&& (trigTimer ||| trigExt) ≠ 0 := by decide
    have htimer : trigTimer &&& (trigTimer ||| trigExt) ≠ 0 := by decide
    have hext : trigFollow ≠ trigExt := by decide
    rw [rewrite_of hone]
    refine ⟨fun hboth => hext hboth.2, fun hboth => hfollow hboth.1, fun hboth => htimer ?_,
      fun hboth => hext hboth.2⟩
    exact hone.2.1 ▸ hboth.2
  · rwa [rewrite_of_not hone]

theorem rewrite_chanlist (cmd : Cmd) : (rewrite cmd).chanlist = cmd.chanlist := by
  by_cases hone : rewritable cmd
  · rw [rewrite_of hone]
  · rw [rewrite_of_not hone]

end Rewrite

section Ready

theorem rounded_convert (h : cmd.convertSrc &&& (trigTimer ||| trigNow) ≠ 0) :
    (roundArgs dev (roundArgs dev cmd).2).2.convertArg =
      tune dev (roundMode cmd) (tune dev (roundMode cmd) cmd.convertArg) := by
  rw [roundArgs_convert]
  unfold tunedConvert
  rw [(sources_roundArgs dev cmd).2, if_pos h, roundMode_roundArgs, roundArgs_convert]
  unfold tunedConvert
  rw [if_pos h]

theorem rounded_scan (hburst : ¬ burst cmd) (h : cmd.scanBeginSrc = trigTimer) :
    (roundArgs dev (roundArgs dev cmd).2).2.scanBeginArg =
      tune dev (roundMode cmd) (tune dev (roundMode cmd) cmd.scanBeginArg) := by
  have hburst' : ¬ burst (roundArgs dev cmd).2 := mt (burst_roundArgs dev cmd).mp hburst
  have h' : (roundArgs dev cmd).2.scanBeginSrc = trigTimer := by
    rw [(sources_roundArgs dev cmd).1, h]
  rw [roundArgs_scan hburst', tunedScan_timer h', roundMode_roundArgs, roundArgs_scan hburst,
    tunedScan_timer h]

theorem ready_last (h : Ready dev cmd) (hburst : ¬ burst cmd) :
    (pci9118AiCmdtest dev (roundArgs dev (roundArgs dev cmd).2).2).2 =
      (roundArgs dev (roundArgs dev cmd).2).2 :=
  ready_kept _ h.roundArgs.roundArgs
    ((ready_accepted h.roundArgs.roundArgs).mpr (rounded_twice hburst))

/-- Scans that are not timed need no protection. -/
theorem sure_untimed (h : Ready dev cmd) (hscan : cmd.scanBeginSrc ≠ trigTimer) {n : Nat}
    (hn : 2 < n) : Sure (pci9118AiCmdtest dev) (Protected dev) n cmd := by
  have hburst : ¬ burst cmd := fun hboth => hscan hboth.1
  rw [sure_without_burst h hburst hn]
  refine ⟨ready_last h hburst, fun htimer => absurd ?_ hscan⟩
  rwa [(sources_roundArgs dev _).1, (sources_roundArgs dev _).1] at htimer

theorem sure_spaced (h : Ready dev cmd) (hscan : cmd.scanBeginSrc = trigTimer)
    (hconvert : cmd.convertSrc = trigTimer) {n : Nat} (hn : 2 < n) :
    Sure (pci9118AiCmdtest dev) (Protected dev) n cmd ↔
      Spaced dev (roundMode cmd) cmd.scanBeginArg cmd.convertArg cmd.scanEndArg := by
  have hburst : ¬ burst cmd := by
    rintro ⟨-, hnow⟩
    rw [hconvert] at hnow
    exact absurd hnow (by decide)
  have htimed : cmd.convertSrc &&& (trigTimer ||| trigNow) ≠ 0 := by
    rw [hconvert]
    decide
  have hsources : (roundArgs dev (roundArgs dev cmd).2).2.scanBeginSrc = trigTimer ∧
      (roundArgs dev (roundArgs dev cmd).2).2.convertSrc = trigTimer := by
    rw [(sources_roundArgs dev _).1, (sources_roundArgs dev _).1, (sources_roundArgs dev _).2,
      (sources_roundArgs dev _).2]
    exact ⟨hscan, hconvert⟩
  have hend : (roundArgs dev (roundArgs dev cmd).2).2.scanEndArg = cmd.scanEndArg := by
    rw [(lens_roundArgs dev _).2, (lens_roundArgs dev _).2]
  rw [sure_without_burst h hburst hn]
  constructor
  · intro hprotected
    have hlong := hprotected.scan hsources.1 (.inl hsources.2)
    rwa [rounded_convert htimed, rounded_scan hburst hscan, hend] at hlong
  · intro hlong
    refine ⟨ready_last h hburst, fun _ _ => ?_⟩
    rw [rounded_convert htimed, rounded_scan hburst hscan, hend]
    exact hlong

/-- Timed scans of one timed conversion are accepted with other sources, unless they are rounded
first. -/
theorem sure_rewritable (hsup : Supported dev cmd) (hcompatible : Compatible cmd)
    (hfixed : Fixed dev (rewrite cmd)) (hnull : cmd.chanlist = .null) (hone : rewritable cmd)
    {n : Nat} (hn : 2 < n) : Sure (pci9118AiCmdtest dev) (Protected dev) n cmd ↔
      tune dev (roundMode cmd) cmd.scanBeginArg ≠ cmd.scanBeginArg := by
  have heq := rewrite_of hone
  have hready : Ready dev (rewrite cmd) :=
    ⟨rewrite_supported hsup, rewrite_compatible hcompatible, hfixed, not_rewritable cmd,
      (rewrite_chanlist cmd).trans hnull⟩
  have hround := cmdtest_rounds hsup hcompatible hfixed hready.chanlist
  have hfollow : (rewrite cmd).scanBeginSrc ≠ trigTimer := by
    rw [heq]
    exact (by decide : trigFollow ≠ trigTimer)
  have hburst : ¬ burst (rewrite cmd) := fun hboth => hfollow hboth.1
  have htuned : tunedScan dev (rewrite cmd) = (rewrite cmd).scanBeginArg := tunedScan_other hfollow
  have hconvert : tunedConvert dev (rewrite cmd) =
      tune dev (roundMode cmd) cmd.scanBeginArg := by
    unfold tunedConvert
    rw [heq]
    dsimp only
    rw [hone.2.1, if_pos (by decide)]
    rfl
  have hpassed : (roundArgs dev (rewrite cmd)).1 = false ↔
      tune dev (roundMode cmd) cmd.scanBeginArg = cmd.scanBeginArg := by
    rw [(roundArgs_eq dev _).2, htuned, hconvert]
    have harg : (rewrite cmd).convertArg = cmd.scanBeginArg := by rw [heq]
    rw [harg]
    exact ⟨fun hall => hall.2.1.symm, fun hsame => ⟨rfl, hsame.symm, fun hboth => hburst hboth.1⟩⟩
  by_cases hok : (roundArgs dev (rewrite cmd)).1 = false
  · refine iff_of_false (not_sure ?_ ?_ n) (not_not.mpr (hpassed.mp hok))
    · rw [hround, hok]
      rfl
    · rintro ⟨hkept, -⟩
      rw [hround, roundArgs_kept hok] at hkept
      exact hfollow ((congrArg Cmd.scanBeginSrc hkept).trans hone.1)
  · refine iff_of_true ?_ (mt hpassed.mpr hok)
    obtain ⟨n, rfl⟩ : ∃ m, n = m + 1 := ⟨n - 1, by omega⟩
    have hlater := sure_untimed hready hfollow hn
    have hamended : (pci9118AiCmdtest dev (rewrite cmd)).1 ≠ 0 :=
      mt (ready_accepted hready).mp hok
    rw [sure_of_amended hamended, ready_next hready] at hlater
    rw [sure_of_amended, hround]
    · exact hlater
    · rw [hround, if_pos (Bool.not_eq_false _ ▸ hok)]
      exact (by decide : (4 : Int) ≠ 0)

end Ready

section Fixed

/-- What step 3 makes of a command whose scans have as many conversions as before. -/
theorem fixArgs_lasting (h : ¬ rewritable cmd) : (fixArgs dev cmd).2 = { cmd with
    startArg := (startArg cmd.startSrc cmd.startArg).2
    scanBeginArg := (scanBeginArg dev cmd.scanBeginSrc
      (idleArg cmd.scanBeginSrc cmd.scanBeginArg).2).2
    convertArg := (convertArg dev cmd.convertSrc cmd.convertArg).2
    stopArg := (stopArg cmd.stopSrc cmd.stopArg).2
    chanlistLen := (chanlistLen dev cmd.chanlistLen).2
    scanEndArg := (scanEndArg (chanlistLen dev cmd.chanlistLen).2 cmd.scanEndArg).2 } := by
  have hsame : rewrite { cmd with
      startArg := (startArg cmd.startSrc cmd.startArg).2
      scanBeginArg := (idleArg cmd.scanBeginSrc cmd.scanBeginArg).2 } = _ := rewrite_of_not h
  unfold fixArgs
  dsimp only
  rw [hsame, fixPeriods_eq dev ((sound_idleArg cmd.scanBeginSrc).done cmd.scanBeginArg)]

theorem fixArgs_rewritable (h : rewritable cmd) : (fixArgs dev cmd).2 = { rewrite cmd with
    startArg := (startArg cmd.startSrc cmd.startArg).2
    scanBeginArg := (scanBeginArg dev trigFollow 0).2
    convertArg := (convertArg dev cmd.convertSrc
      (idleArg cmd.scanBeginSrc cmd.scanBeginArg).2).2
    stopArg := (stopArg cmd.stopSrc cmd.stopArg).2
    chanlistLen := (chanlistLen dev cmd.chanlistLen).2
    scanEndArg := (scanEndArg (chanlistLen dev cmd.chanlistLen).2 cmd.scanEndArg).2 } := by
  have hsame : rewrite { cmd with
      startArg := (startArg cmd.startSrc cmd.startArg).2
      scanBeginArg := (idleArg cmd.scanBeginSrc cmd.scanBeginArg).2 } = _ := rewrite_of h
  unfold fixArgs
  dsimp only
  rw [hsame, rewrite_of h,
    fixPeriods_eq dev (by decide : (idleArg trigFollow 0).1 = false)]

theorem fixArgs_supported (h : Supported dev cmd) : Supported dev (fixArgs dev cmd).2 := by
  by_cases hone : rewritable cmd
  · rw [fixArgs_rewritable hone]
    obtain ⟨hstart, hscan, hconvert, hend, hstop⟩ := rewrite_supported h
    exact ⟨hstart, hscan, hconvert, hend, hstop⟩
  · rw [fixArgs_lasting hone]
    exact ⟨h.start, h.scanBegin, h.convert, h.scanEnd, h.stop⟩

theorem fixArgs_compatible (h : Compatible cmd) : Compatible (fixArgs dev cmd).2 := by
  by_cases hone : rewritable cmd
  · rw [fixArgs_rewritable hone]
    obtain ⟨hstart, hscan, hfollow, hstop⟩ := rewrite_compatible h
    exact ⟨hstart, hscan, hfollow, hstop⟩
  · rw [fixArgs_lasting hone]
    exact ⟨h.start, h.scan, h.follow, h.stop⟩

theorem fixArgs_chanlist (dev : Pci9118) (cmd : Cmd) :
    (fixArgs dev cmd).2.chanlist = cmd.chanlist := by
  by_cases hone : rewritable cmd
  · rw [fixArgs_rewritable hone]
    exact rewrite_chanlist cmd
  · rw [fixArgs_lasting hone]

theorem cmdtest_fixes (hsup : Supported dev cmd) (hcompatible : Compatible cmd)
    (h : ¬ Fixed dev (rewrite cmd)) : pci9118AiCmdtest dev cmd = (3, (fixArgs dev cmd).2) := by
  unfold pci9118AiCmdtest
  rw [hsup.masked]
  dsimp only
  rw [if_neg Bool.false_ne_true, hcompatible.mended hsup]
  dsimp only
  rw [if_neg Bool.false_ne_true,
    if_pos ((Bool.not_eq_false _).mp (mt fixArgs_eq_false.mp h))]

/-- Whether the arguments were in order or not, the command is as step 3 leaves it, after one
test at most. -/
theorem sure_fixArgs (hsup : Supported dev cmd) (hcompatible : Compatible cmd)
    (hlasting : ¬ rewritable cmd) {n : Nat} (hn : 0 < n) :
    ∃ m, n ≤ m + 1 ∧ (Sure (pci9118AiCmdtest dev) (Protected dev) n cmd ↔
      Sure (pci9118AiCmdtest dev) (Protected dev) m (fixArgs dev cmd).2) := by
  by_cases hfixed : Fixed dev (rewrite cmd)
  · refine ⟨n, Nat.le_succ n, ?_⟩
    rw [fixArgs_kept hfixed, rewrite_of_not hlasting]
  · obtain ⟨n, rfl⟩ : ∃ m, n = m + 1 := ⟨n - 1, by omega⟩
    refine ⟨n, le_rfl, ?_⟩
    have htest := cmdtest_fixes hsup hcompatible hfixed
    rw [sure_of_amended, htest]
    rw [htest]
    exact (by decide : (3 : Int) ≠ 0)

end Fixed

/-- Nothing is wrong with the arguments of a command for one conversion a scan, but for its
periods. -/
def Lone (cmd : Cmd) : Prop :=
  (startArg cmd.startSrc cmd.startArg).1 = false ∧ (stopArg cmd.stopSrc cmd.stopArg).1 = false ∧
    cmd.chanlistLen = 1

instance (cmd : Cmd) : Decidable (Lone cmd) := inferInstanceAs (Decidable (_ ∧ _))

def Holds (dev : Pci9118) (cmd : Cmd) : Prop :=
  let len := (chanlistLen dev cmd.chanlistLen).2
  let scanEnd := (scanEndArg len cmd.scanEndArg).2
  let scan := raise dev.aiNsMin cmd.scanBeginArg
  let convert := raise dev.aiNsMin cmd.convertArg
  cmd.scanBeginSrc = trigTimer →
    if cmd.convertSrc = trigNow then
      Burst.Fits dev ⟨scan, convert, len, roundMode cmd⟩ scanEnd
    else if cmd.scanEndArg = 1 then
      Lone cmd → tune dev (roundMode cmd) cmd.scanBeginArg ≠ cmd.scanBeginArg
    else if scanEnd = 1 then tune dev (roundMode cmd) scan ≠ scan
    else Spaced dev (roundMode cmd) scan convert scanEnd

instance (cmd : Cmd) : Decidable (Holds dev cmd) := by unfold Holds; infer_instance

section Holds

theorem scanBeginArg_timer (arg : U32) :
    (scanBeginArg dev trigTimer arg).2 = raise dev.aiNsMin arg :=
  congrArg Prod.snd (if_pos rfl)

theorem convertArg_timed {src : U32} (h : src &&& (trigTimer ||| trigNow) ≠ 0) (arg : U32) :
    (convertArg dev src arg).2 = raise dev.aiNsMin arg :=
  congrArg Prod.snd (if_pos h)

/-- A lone command with a period that rounding keeps passes step 3. -/
theorem fixed_of_lone (hone : rewritable cmd) (h : Lone cmd)
    (hkept : tune dev (roundMode cmd) cmd.scanBeginArg = cmd.scanBeginArg) :
    Fixed dev (rewrite cmd) := by
  obtain ⟨hstart, hstop, hlen⟩ := h
  have hscan : ¬ cmd.scanBeginArg < dev.aiNsMin := by
    rw [← hkept]
    exact not_tune_lt dev _ _
  rw [rewrite_of hone]
  refine ⟨hstart, (by decide : (idleArg trigFollow 0).1 = false), rfl, ?_, hstop, ?_, ?_⟩
  · change (convertArg dev cmd.convertSrc cmd.scanBeginArg).1 = false
    unfold convertArg
    rw [hone.2.1, if_pos (by decide)]
    exact put_eq_false.mpr hscan
  · change (chanlistLen dev cmd.chanlistLen).1 = false
    rw [hlen, chanlistLen_eq_false]
    exact ⟨by decide, fun hlt => Nat.not_lt.mpr dev.nAichanlist_pos hlt⟩
  · change (scanEndArg cmd.chanlistLen cmd.scanEndArg).1 = false
    rw [hlen, hone.2.2]
    decide

theorem lone_of_fixed (hone : rewritable cmd) (h : Fixed dev (rewrite cmd)) : Lone cmd := by
  rw [rewrite_of hone] at h
  refine ⟨h.start, h.stop, ?_⟩
  have hlen : cmd.chanlistLen ≠ 0 := (chanlistLen_eq_false.mp h.len).1
  have hend : ¬ cmd.scanEndArg < cmd.chanlistLen := (scanEndArg_eq_false.mp h.scanEnd).1
  rw [hone.2.2] at hend
  apply BitVec.eq_of_toNat_eq
  have hpos : cmd.chanlistLen.toNat ≠ 0 := fun hzero => hlen (BitVec.eq_of_toNat_eq hzero)
  have hle : cmd.chanlistLen.toNat ≤ 1 := Nat.not_lt.mp hend
  change cmd.chanlistLen.toNat = 1
  omega

/-- What step 3 makes of a command with timed scans, as far as the other steps look at it. -/
theorem fixArgs_timer (hlasting : ¬ rewritable cmd) (htimer : cmd.scanBeginSrc = trigTimer)
    (htimed : cmd.convertSrc &&& (trigTimer ||| trigNow) ≠ 0) :
    let fixed := (fixArgs dev cmd).2
    (fixed.scanBeginSrc = trigTimer ∧ fixed.convertSrc = cmd.convertSrc) ∧
      fixed.scanBeginArg = raise dev.aiNsMin cmd.scanBeginArg ∧
      fixed.convertArg = raise dev.aiNsMin cmd.convertArg ∧
      fixed.chanlistLen = (chanlistLen dev cmd.chanlistLen).2 ∧
      fixed.scanEndArg = (scanEndArg (chanlistLen dev cmd.chanlistLen).2 cmd.scanEndArg).2 ∧
      roundMode fixed = roundMode cmd := by
  have hscan : (scanBeginArg dev cmd.scanBeginSrc
      (idleArg cmd.scanBeginSrc cmd.scanBeginArg).2).2 = raise dev.aiNsMin cmd.scanBeginArg := by
    rw [htimer, idle_timer, scanBeginArg_timer]
  intro fixed
  rw [show fixed = _ from fixArgs_lasting hlasting]
  exact ⟨⟨htimer, rfl⟩, hscan, convertArg_timed htimed _, rfl, rfl, rfl⟩

theorem sure_rewrites (hsup : Supported dev cmd) (hcompatible : Compatible cmd)
    (hnull : cmd.chanlist = .null) (hone : rewritable cmd) {n : Nat} (hn : 3 < n) :
    Sure (pci9118AiCmdtest dev) (Protected dev) n cmd ↔ Holds dev cmd := by
  have hnow : cmd.convertSrc ≠ trigNow := by
    rw [hone.2.1]
    decide
  have hholds : Holds dev cmd ↔
      (Lone cmd → tune dev (roundMode cmd) cmd.scanBeginArg ≠ cmd.scanBeginArg) := by
    unfold Holds
    dsimp only
    rw [if_neg hnow, if_pos hone.2.2]
    exact ⟨fun h => h hone.1, fun h _ => h⟩
  rw [hholds]
  by_cases hfixed : Fixed dev (rewrite cmd)
  · rw [sure_rewritable hsup hcompatible hfixed hnull hone (by omega)]
    exact ⟨fun h _ => h, fun h => h (lone_of_fixed hone hfixed)⟩
  · refine iff_of_true ?_ fun hlone hkept => hfixed (fixed_of_lone hone hlone hkept)
    obtain ⟨n, rfl⟩ : ∃ m, n = m + 1 := ⟨n - 1, by omega⟩
    have htest := cmdtest_fixes hsup hcompatible hfixed
    have hscan : (fixArgs dev cmd).2.scanBeginSrc ≠ trigTimer := by
      rw [fixArgs_rewritable hone, rewrite_of hone]
      exact (by decide : trigFollow ≠ trigTimer)
    have hready : Ready dev (fixArgs dev cmd).2 :=
      ⟨fixArgs_supported hsup, fixArgs_compatible hcompatible, fixArgs_fixed dev cmd,
        fun hagain => hscan hagain.1, (fixArgs_chanlist dev cmd).trans hnull⟩
    rw [sure_of_amended, htest]
    · exact sure_untimed hready hscan (by omega)
    · rw [htest]
      exact (by decide : (3 : Int) ≠ 0)

theorem sure_bursts (hsup : Supported dev cmd) (hcompatible : Compatible cmd)
    (hnull : cmd.chanlist = .null) (hburst : burst cmd) {n : Nat} (hn : 4 < n) :
    Sure (pci9118AiCmdtest dev) (Protected dev) n cmd ↔ Holds dev cmd := by
  obtain ⟨htimer, hnow⟩ := hburst
  have hholds : Holds dev cmd ↔ Burst.Fits dev
      ⟨raise dev.aiNsMin cmd.scanBeginArg, raise dev.aiNsMin cmd.convertArg,
        (chanlistLen dev cmd.chanlistLen).2, roundMode cmd⟩
      (scanEndArg (chanlistLen dev cmd.chanlistLen).2 cmd.scanEndArg).2 := by
    unfold Holds
    dsimp only
    rw [if_pos hnow]
    exact ⟨fun h => h htimer, fun h _ => h⟩
  have htimed : cmd.convertSrc &&& (trigTimer ||| trigNow) ≠ 0 := by
    rw [hnow]
    decide
  have hlasting : ¬ rewritable cmd := by
    rintro ⟨-, htimer, -⟩
    rw [hnow] at htimer
    exact absurd htimer (by decide)
  obtain ⟨m, hm, hsure⟩ := @sure_fixArgs dev cmd hsup hcompatible hlasting n (by omega)
  obtain ⟨⟨hscan, hconvert⟩, hscanArg, hconvertArg, hlen, hend, hmode⟩ :=
    @fixArgs_timer dev cmd hlasting htimer htimed
  have hready : Ready dev (fixArgs dev cmd).2 := by
    refine ⟨fixArgs_supported hsup, fixArgs_compatible hcompatible, fixArgs_fixed dev cmd, ?_,
      (fixArgs_chanlist dev cmd).trans hnull⟩
    rintro ⟨-, htimer, -⟩
    rw [hconvert, hnow] at htimer
    exact absurd htimer (by decide)
  have hfits := @sure_burst dev _ hready ⟨hscan, hconvert.trans hnow⟩ m (by omega)
  unfold burstOf at hfits
  rw [hscanArg, hconvertArg, hlen, hend, hmode] at hfits
  rw [hsure, hfits, hholds]

theorem sure_timed (hsup : Supported dev cmd) (hcompatible : Compatible cmd)
    (hnull : cmd.chanlist = .null) (hlasting : ¬ rewritable cmd)
    (htimer : cmd.scanBeginSrc = trigTimer) (hconvert : cmd.convertSrc = trigTimer) {n : Nat}
    (hn : 3 < n) : Sure (pci9118AiCmdtest dev) (Protected dev) n cmd ↔ Holds dev cmd := by
  have hnow : cmd.convertSrc ≠ trigNow := by
    rw [hconvert]
    decide
  have htimed : cmd.convertSrc &&& (trigTimer ||| trigNow) ≠ 0 := by
    rw [hconvert]
    decide
  have hmore : cmd.scanEndArg ≠ 1 := fun hone => hlasting ⟨htimer, hconvert, hone⟩
  obtain ⟨m, hm, hsure⟩ := @sure_fixArgs dev cmd hsup hcompatible hlasting n (by omega)
  obtain ⟨⟨hscan, hconvert'⟩, hscanArg, hconvertArg, -, hend, hmode⟩ :=
    @fixArgs_timer dev cmd hlasting htimer htimed
  have hsup' : Supported dev (fixArgs dev cmd).2 := fixArgs_supported hsup
  have hcompatible' : Compatible (fixArgs dev cmd).2 := fixArgs_compatible hcompatible
  have hfixed' := fixArgs_fixed dev cmd
  have hnull' := (fixArgs_chanlist dev cmd).trans hnull
  unfold Holds
  dsimp only
  rw [hsure, if_neg hnow, if_neg hmore]
  by_cases hone : (scanEndArg (chanlistLen dev cmd.chanlistLen).2 cmd.scanEndArg).2 = 1
  · -- one conversion a scan only after step 3
    have hrewritable : rewritable (fixArgs dev cmd).2 :=
      ⟨hscan, hconvert'.trans hconvert, hend.trans hone⟩
    rw [if_pos hone, sure_rewritable hsup' hcompatible' hfixed'.rewrite hnull' hrewritable
      (by omega), hscanArg, hmode]
    exact ⟨fun h _ => h, fun h => h htimer⟩
  · have hready : Ready dev (fixArgs dev cmd).2 :=
      ⟨hsup', hcompatible', hfixed', fun hagain => hone (hend.symm.trans hagain.2.2), hnull'⟩
    rw [if_neg hone, sure_spaced hready hscan (hconvert'.trans hconvert) (by omega), hscanArg,
      hconvertArg, hend, hmode]
    exact ⟨fun h _ => h, fun h => h htimer⟩

theorem sure_idle (hsup : Supported dev cmd) (hcompatible : Compatible cmd)
    (hnull : cmd.chanlist = .null) (hidle : cmd.scanBeginSrc ≠ trigTimer) {n : Nat} (hn : 3 < n) :
    Sure (pci9118AiCmdtest dev) (Protected dev) n cmd := by
  have hlasting : ¬ rewritable cmd := fun hone => hidle hone.1
  obtain ⟨m, hm, hsure⟩ := @sure_fixArgs dev cmd hsup hcompatible hlasting n (by omega)
  have hscan : (fixArgs dev cmd).2.scanBeginSrc ≠ trigTimer := by
    rw [fixArgs_lasting hlasting]
    exact hidle
  rw [hsure]
  exact sure_untimed ⟨fixArgs_supported hsup, fixArgs_compatible hcompatible,
    fixArgs_fixed dev cmd, fun hagain => hscan hagain.1, (fixArgs_chanlist dev cmd).trans hnull⟩
    hscan (by omega)

/-- Commands with sources that do not contradict each other. -/
theorem sure_compatible (hsup : Supported dev cmd) (hcompatible : Compatible cmd)
    (hnull : cmd.chanlist = .null) {n : Nat} (hn : 3 < n) (hburst : burst cmd → 4 < n) :
    Sure (pci9118AiCmdtest dev) (Protected dev) n cmd ↔ Holds dev cmd := by
  by_cases htimer : cmd.scanBeginSrc = trigTimer
  · rcases hsup.convert with hconvert | hext | ⟨-, hnow⟩
    · by_cases hone : rewritable cmd
      · exact sure_rewrites hsup hcompatible hnull hone hn
      · exact sure_timed hsup hcompatible hnull hone htimer hconvert hn
    · refine absurd ⟨?_, ?_⟩ hcompatible.scan
      · rw [htimer]
        decide
      · rw [hext]
        decide
    · exact sure_bursts hsup hcompatible hnull ⟨htimer, hnow⟩ (hburst ⟨htimer, hnow⟩)
  · exact iff_of_true (sure_idle hsup hcompatible hnull htimer hn) fun h => absurd h htimer

/-- Of the sources of timed scans, step 2 changes no more than that of the conversions. -/
theorem mend_timer (hsup : Supported dev cmd) (htimer : cmd.scanBeginSrc = trigTimer) :
    let convert := put (cmd.convertSrc &&& (trigTimer ||| trigNow) = 0) trigTimer cmd.convertSrc
    mendSources cmd = (convert.1, { cmd with convertSrc := convert.2 }) := by
  have hext : cmd.scanBeginSrc ≠ trigExt := by
    rw [htimer]
    decide
  have hfollow : cmd.scanBeginSrc ≠ trigFollow := by
    rw [htimer]
    decide
  have hscan : cmd.scanBeginSrc &&& (trigTimer ||| trigExt) ≠ 0 := by
    rw [htimer]
    decide
  have hput : put (cmd.scanBeginSrc &&& (trigTimer ||| trigExt) ≠ 0 ∧
      cmd.convertSrc &&& (trigTimer ||| trigNow) = 0) trigTimer cmd.convertSrc =
        put (cmd.convertSrc &&& (trigTimer ||| trigNow) = 0) trigTimer cmd.convertSrc := by
    unfold put
    exact if_congr (and_iff_right hscan) rfl rfl
  have hstart : ¬ (cmd.startSrc = trigExt ∧ cmd.scanBeginSrc = trigExt) := fun h => hext h.2
  have hstop : ¬ (cmd.stopSrc = trigExt ∧ cmd.scanBeginSrc = trigExt) := fun h => hext h.2
  have hkept : ∀ src, put (cmd.scanBeginSrc = trigFollow ∧ src &&& (trigTimer ||| trigExt) = 0)
      trigTimer src = (false, src) := fun _ => put_of_not fun h => hfollow h.1
  have heq := mend_eq hsup
  dsimp only at heq
  rw [hput, put_of_not hstart, put_of_not hstop, hkept, Bool.or_false, Bool.or_false,
    Bool.false_or] at heq
  exact heq

theorem holds_convert {src : U32} (h : src = trigNow ↔ cmd.convertSrc = trigNow) :
    Holds dev { cmd with convertSrc := src } ↔ Holds dev cmd := by
  unfold Holds
  dsimp only
  refine imp_congr_right fun _ => ?_
  by_cases hnow : cmd.convertSrc = trigNow
  · rw [if_pos hnow, if_pos (h.mpr hnow)]
    exact Iff.rfl
  · rw [if_neg hnow, if_neg (mt h.mp hnow)]
    exact Iff.rfl

theorem holds_mended (hsup : Supported dev cmd) :
    Holds dev (mendSources cmd).2 ↔ Holds dev cmd := by
  by_cases htimer : cmd.scanBeginSrc = trigTimer
  · rw [mend_timer hsup htimer]
    refine holds_convert ?_
    rcases @put_snd_cases U32 (cmd.convertSrc &&& (trigTimer ||| trigNow) = 0) _ trigTimer
      cmd.convertSrc with hput | ⟨-, hkept⟩
    · by_cases hnow : cmd.convertSrc = trigNow
      · rw [hnow]
        decide
      · rw [hput]
        exact iff_of_false (by decide) hnow
    · rw [hkept]
  · have hmended : (mendSources cmd).2.scanBeginSrc ≠ trigTimer := by
      rw [(mend_cases hsup).2.2.2.1]
      exact htimer
    exact iff_of_true (fun h => absurd h hmended) fun h => absurd h htimer

theorem mended_of_burst (hsup : Supported dev cmd) (h : burst (mendSources cmd).2) :
    (mendSources cmd).1 = false := by
  obtain ⟨htimer, hnow⟩ := h
  rw [(mend_cases hsup).2.2.2.1] at htimer
  rw [mend_timer hsup htimer] at hnow ⊢
  refine put_eq_false.mpr fun hzero => ?_
  dsimp only at hnow
  rw [put_of hzero] at hnow
  exact absurd hnow (by decide : trigTimer ≠ trigNow)

theorem cmdtest_mends (hsup : Supported dev cmd) (h : (mendSources cmd).1 = true) :
    pci9118AiCmdtest dev cmd = (2, (mendSources cmd).2) := by
  unfold pci9118AiCmdtest
  rw [hsup.masked]
  dsimp only
  rw [if_neg Bool.false_ne_true, if_pos h]

theorem mend_chanlist (h : Supported dev cmd) : (mendSources cmd).2.chanlist = cmd.chanlist := by
  rw [mend_eq h]

/-- Within five tests a command comes to be accepted, unchanged and with scans that are long
enough, exactly where the periods that it is rounded to allow it. -/
theorem settles_protected_iff (hsup : Supported dev cmd) (hnull : cmd.chanlist = .null) :
    Sure (pci9118AiCmdtest dev) (Protected dev) 5 cmd ↔ Holds dev cmd := by
  by_cases hmended : (mendSources cmd).1 = true
  · have htest := cmdtest_mends hsup hmended
    rw [sure_of_amended, htest, ← holds_mended hsup]
    · refine sure_compatible (mend_supported hsup) (mend_compatible hsup)
        ((mend_chanlist hsup).trans hnull) (by omega) fun hburst => ?_
      rw [mended_of_burst hsup hburst] at hmended
      exact absurd hmended Bool.false_ne_true
    · rw [htest]
      exact (by decide : (2 : Int) ≠ 0)
  · exact sure_compatible hsup
      (compatible_of_mended hsup ((Bool.not_eq_true _).mp hmended)) hnull (by omega)
      fun _ => by omega

end Holds

section Commands

def pci9118dg : Pci9118 := { aiNsMin := 3000, master := true }

/-- Timed scans of timed conversions, until the count. -/
def timedScan (scanBeginArg convertArg scanEndArg : U32) : Cmd :=
  { startSrc := trigNow, scanBeginSrc := trigTimer, scanBeginArg := scanBeginArg,
    convertSrc := trigTimer, convertArg := convertArg, scanEndSrc := trigCount,
    scanEndArg := scanEndArg, stopSrc := trigCount, stopArg := 1, chanlistLen := scanEndArg }

theorem supported_timedScan (scan convert scanEnd : U32) :
    Supported pci9118dg (timedScan scan convert scanEnd) :=
  ⟨.inl rfl, .inr ⟨rfl, .inl rfl⟩, .inl rfl, rfl, .inl rfl⟩

theorem compatible_timedScan (scan convert scanEnd : U32) :
    Compatible (timedScan scan convert scanEnd) :=
  ⟨fun h => absurd h.1 (by decide : trigNow ≠ trigExt),
    fun h => (by decide : trigTimer &&& (trigTimer ||| trigNow) ≠ 0) h.2,
    fun h => absurd h.1 (by decide : trigTimer ≠ trigFollow),
    fun h => absurd h.1 (by decide : trigCount ≠ trigExt)⟩

/-- A whole number of clocks is not rounded. -/
theorem tune_whole {ns : U32} (h : I8253Periods.IsProduct i8254OscBase ns.toNat)
    (hleast : ¬ ns < pci9118dg.aiNsMin) (mode : U32) : tune pci9118dg mode ns = ns := by
  have hsteady : pacedNs i8254OscBase ns mode = ns := steady_of_isProduct evenBase h 0 0 mode
  unfold tune
  rw [hsteady, raise_of_not hleast]

theorem tune_3000 (mode : U32) : tune pci9118dg mode 3000 = 3000 :=
  tune_whole ⟨2, 6, by decide, by decide, by decide, by decide, by decide, by decide⟩
    (by decide) mode

theorem tune_12000 (mode : U32) : tune pci9118dg mode 12000 = 12000 :=
  tune_whole ⟨2, 24, by decide, by decide, by decide, by decide, by decide, by decide⟩
    (by decide) mode

theorem holds_two : Holds pci9118dg (timedScan 12000 3000 2) := by
  intro _
  rw [if_neg (by decide), if_neg (by decide), if_neg (by decide)]
  change Spaced pci9118dg (roundMode (timedScan 12000 3000 2)) 12000 3000 2
  unfold Spaced
  rw [tune_3000, tune_3000, tune_12000, tune_12000]
  decide

theorem settles_two_conversions : Sure (pci9118AiCmdtest pci9118dg) (Protected pci9118dg) 5
    (timedScan 12000 3000 2) :=
  (settles_protected_iff (supported_timedScan 12000 3000 2) rfl).mpr holds_two

/-- Step 4 finds nothing in timed scans of one conversion, taken for conversions. -/
theorem rounded_one : (roundArgs pci9118dg (rewrite (timedScan 12000 3000 1))).1 = false := by
  have hfollow : ¬ (rewrite (timedScan 12000 3000 1)).scanBeginSrc = trigTimer := by decide
  have hconvert : tunedConvert pci9118dg (rewrite (timedScan 12000 3000 1)) = 12000 :=
    tune_12000 _
  rw [(roundArgs_eq _ _).2, tunedScan_other hfollow, hconvert]
  exact ⟨rfl, rfl, fun hboth => hfollow hboth.1.1⟩

theorem fixed_two : Fixed pci9118dg (rewrite (timedScan 3000 3000 2)) :=
  ⟨by decide, by decide, by decide, by decide, by decide, by decide, by decide⟩

theorem rounded_two : (roundArgs pci9118dg (rewrite (timedScan 3000 3000 2))).1 = false := by
  have hconvert : tunedConvert pci9118dg (rewrite (timedScan 3000 3000 2)) = 3000 := tune_3000 _
  have hscan : tunedScan pci9118dg (rewrite (timedScan 3000 3000 2)) = 3000 := tune_3000 _
  have hburst : ¬ burst (rewrite (timedScan 3000 3000 2)) := by decide
  rw [(roundArgs_eq _ _).2, hscan, hconvert]
  exact ⟨rfl, rfl, fun hboth => hburst hboth.1⟩

/-- Scans of one conversion are accepted with other sources than they were asked for with, and two
conversions of 3000 ns in scans of 3000 ns. -/
theorem one_conversion_rewritten :
    ((pci9118AiCmdtest pci9118dg (timedScan 12000 3000 1)).1 = 0 ∧
        (pci9118AiCmdtest pci9118dg (timedScan 12000 3000 1)).2 ≠ timedScan 12000 3000 1) ∧
      (pci9118AiCmdtest pci9118dg (timedScan 3000 3000 2)).1 = 0 ∧
        ¬ Protected pci9118dg (timedScan 3000 3000 2) := by
  have hlone : Lone (timedScan 12000 3000 1) := by decide
  have hfixed := @fixed_of_lone pci9118dg (timedScan 12000 3000 1) ⟨rfl, rfl, rfl⟩ hlone
    (tune_12000 _)
  have hone := cmdtest_rounds (supported_timedScan 12000 3000 1)
    (compatible_timedScan 12000 3000 1) hfixed (rewrite_chanlist _)
  have htwo := cmdtest_rounds (supported_timedScan 3000 3000 2) (compatible_timedScan 3000 3000 2)
    fixed_two (rewrite_chanlist _)
  rw [hone, htwo, rounded_one, rounded_two, roundArgs_kept rounded_one]
  refine ⟨⟨rfl, ?_⟩, rfl, fun hprotected => absurd (hprotected.scan rfl (.inl rfl)) (by decide)⟩
  exact fun hsame => absurd (congrArg Cmd.scanBeginSrc hsame) (by decide)

end Commands

end Comedi.Pci9118Protected
