import Comedi.ComediTestAmends

namespace Comedi.ComediTestSettles

open RtTimer (trigNow trigTimer trigCount trigNone)
open ComediTest ComediTestArgs ComediTestAmends Retests

/-- What every accepted command has. -/
structure Sound (cmd : Cmd) : Prop where
  scanBegin_ge : 1000 ≤ cmd.scanBeginArg.toNat
  scanBegin_dvd : 1000 ∣ cmd.scanBeginArg.toNat
  scanEnd : cmd.scanEndArg = cmd.chanlistLen
  chanlistLen : 1 ≤ cmd.chanlistLen.toNat
  fits : cmd.convertSrc = trigTimer →
    cmd.convertArg.toNat * cmd.chanlistLen.toNat ≤ cmd.scanBeginArg.toNat

/-- The test leaves the command as it is, and the command is sound. -/
def Accepted (cmd : Cmd) : Prop := (waveformAiCmdtest cmd).2 = cmd ∧ Sound cmd

/-- The scan period after step 3, for a channel list of at least one channel. -/
def raisedTo (a : Args) : Nat := max a.scanBegin (least a.convert (max 1 a.len))

/-- The condition for a command of which the first test finds an argument out of bounds: three
tests are left. -/
def SettlesFixed (a : Args) : Prop :=
  (Ordinary a.convert ∨ NearTop 1 a.convert) ∧ nearest a.convert * max 1 a.len < 2 ^ 31 ∧
      (Ordinary (raisedTo a) ∨
        NearTop 1 (raisedTo a) ∧ (a.len = 0 → a.convert ≤ a.scanBegin)) ∨
    ZeroAfter 2 a.convert ∧ 0 < a.len ∧ Ordinary (raisedTo a) ∧
      leastNegative 1 a.len ≤ nearest (raisedTo a)

/-- The condition for a command of which the first test rounds the periods at most. -/
def SettlesRounded (a : Args) : Prop :=
  (Ordinary a.convert ∨ NearTop 1 a.convert) ∧ nearest a.convert * a.len < 2 ^ 31 ∧
      (Ordinary a.scanBegin ∨ NearTop 2 a.scanBegin) ∨
    ZeroAfter 2 a.convert ∧
      ((Ordinary a.scanBegin ∨ NearTop 1 a.scanBegin) ∧ Ordinary (leastNegative 1 a.len) ∨
        ZeroAfter 2 a.scanBegin ∧ leastNegative 1 a.len ≤ 2 ^ 32 - 1000) ∨
    ZeroAfter 3 a.convert ∧ Ordinary a.scanBegin ∧
      leastNegative 1 a.len ≤ nearest a.scanBegin ∧ leastNegative 2 a.len ≤ nearest a.scanBegin

variable {cmd : Cmd} {b c len n : Nat}

theorem args_lt (hargs : argsOf cmd = ⟨b, c, len⟩) : b < 2 ^ 32 ∧ c < 2 ^ 32 := by
  unfold argsOf at hargs
  cases hargs
  refine ⟨cmd.scanBeginArg.isLt, ?_⟩
  split
  · exact cmd.convertArg.isLt
  · omega

/-- A clean command that is accepted is sound but for the product, which may have overflowed. -/
theorem accepted_iff (h : Clean cmd) (hargs : argsOf cmd = ⟨b, c, len⟩)
    (hret : (waveformAiCmdtest cmd).1 = 0) : Accepted cmd ↔ Args.Fits ⟨b, c, len⟩ := by
  have hb := (args_lt hargs).1
  have hbegin : cmd.scanBeginArg.toNat = b := congrArg Args.scanBegin hargs
  have hconvert : (if cmd.convertSrc = trigTimer then cmd.convertArg.toNat else 0) = c :=
    congrArg Args.convert hargs
  have hlen : cmd.chanlistLen.toNat = len := congrArg Args.len hargs
  have hpos : cmd.chanlistLen.toNat ≠ 0 :=
    fun hzero => h.chanlistLen (BitVec.eq_of_toNat_eq hzero)
  rw [(cmdtest_amends h hargs).1] at hret
  by_cases hlt : b < least c len
  · rw [amend_of_lt hlt] at hret
    cases hret
  have hle := Nat.not_lt.mp hlt
  by_cases hsame : nearest b = b ∧ nearest c = c
  · constructor
    · rintro ⟨-, hsound⟩
      change c * len ≤ b
      by_cases htimer : cmd.convertSrc = trigTimer
      · rw [← hconvert, if_pos htimer, ← hlen, ← hbegin]
        exact hsound.fits htimer
      · rw [← hconvert, if_neg htimer]
        omega
    · intro hfits
      change c * len ≤ b at hfits
      refine ⟨cmdtest_stable cmd ?_, ?_, ?_, h.scanEndArg, Nat.pos_of_ne_zero hpos,
        fun htimer => ?_⟩
      · rw [(cmdtest_amends h hargs).1, amend_of_rounded hle hsame]
      · rw [hbegin]
        exact (Nat.le_max_left ..).trans hle
      · rw [hbegin]
        exact ((nearest_eq_self_iff hb).mp hsame.1).2
      · rw [if_pos htimer] at hconvert
        rwa [hconvert, hlen, hbegin]
  · rw [amend_of_unrounded hle hsame] at hret
    cases hret

/-- A clean command settles as its two periods do. -/
theorem settles_iff_amend (h : Clean cmd) (hargs : argsOf cmd = ⟨b, c, len⟩) (n : Nat) :
    Settles waveformAiCmdtest Accepted n cmd ↔ Settles amend Args.Fits n ⟨b, c, len⟩ := by
  refine settles_iff_of_simulation (R := fun cmd a => Clean cmd ∧ argsOf cmd = a) ?_ ?_ ?_
    ⟨h, hargs⟩ n
  · rintro cmd ⟨b, c, len⟩ ⟨h, hargs⟩
    rw [(cmdtest_amends h hargs).1]
  · rintro cmd ⟨b, c, len⟩ ⟨h, hargs⟩
    exact (cmdtest_amends h hargs).2
  · rintro cmd ⟨b, c, len⟩ ⟨h, hargs⟩ hret
    exact accepted_iff h hargs hret

theorem settles_fixed_iff (hb : b < 2 ^ 32) (hc : c < 2 ^ 32) :
    Settles amend Args.Fits 3 ⟨max b (least c len), c, max 1 len⟩ ↔ SettlesFixed ⟨b, c, len⟩ := by
  have hlt : max b (least c len) < 2 ^ 32 := Nat.max_lt.mpr ⟨hb, least_lt c len⟩
  unfold SettlesFixed raisedTo
  dsimp only
  cases len with
  | zero =>
    have hleast : least c 0 = 1000 := rfl
    have hone : least c 1 = max 1000 c := by rw [least_of_lt (by omega), Nat.mul_one]
    rw [hleast] at hlt ⊢
    change Settles amend Args.Fits 3 ⟨max b 1000, c, 1⟩ ↔ _
    rw [settles_empty hlt (Nat.le_max_right ..) hc]
    simp only [Nat.lt_irrefl, false_and, and_false, or_false, Nat.max_eq_left (Nat.zero_le 1)]
    rw [hone, Nat.mul_one, Nat.max_assoc]
    refine and_congr_right fun hconvert => ?_
    constructor
    · intro hsettles
      have hord := (ordinary_nearest_iff hc).mpr hconvert
      unfold Ordinary at hord
      refine ⟨by omega, hsettles.imp_right fun ⟨hnear, hle⟩ => ⟨hnear, fun _ => ?_⟩⟩
      unfold NearTop at hnear
      omega
    · exact fun ⟨_, hsettles⟩ => hsettles.imp_right fun ⟨hnear, hle⟩ =>
        ⟨hnear, (hle trivial).trans (Nat.le_max_left ..)⟩
  | succ len =>
    rw [Nat.max_eq_right (show 1 ≤ len + 1 by omega), settles_three hlt hc (Nat.le_max_right ..)]
    simp only [Nat.succ_ne_zero, Nat.succ_pos, true_and, false_imp_iff, and_true]

/-- A command of supported sources is accepted within four tests, and sound then, exactly under
this condition. -/
theorem settles_iff (h : Supported cmd) : Settles waveformAiCmdtest Accepted 4 cmd ↔
    (needsFix cmd → SettlesFixed (argsOf cmd)) ∧
      (¬ needsFix cmd → SettlesRounded (argsOf cmd)) := by
  rcases hargs : argsOf cmd with ⟨b, c, len⟩
  obtain ⟨hb, hc⟩ := args_lt hargs
  by_cases hneeds : needsFix cmd
  · have hfixed := argsOf_fixArgs h
    rw [hargs] at hfixed
    have htest : waveformAiCmdtest cmd = (3, (fixArgs cmd).2) := by
      rw [waveformAiCmdtest_of_supported h, if_pos ((fixArgs_fst h).mpr hneeds)]
    rw [settles_of_amended (by rw [htest]; nofun), htest]
    dsimp only
    refine (settles_iff_amend (clean_fixArgs h) hfixed 3).trans ?_
    rw [settles_fixed_iff hb hc]
    exact ⟨fun hsettles => ⟨fun _ => hsettles, fun hnot => absurd hneeds hnot⟩,
      fun hsettles => hsettles.1 hneeds⟩
  · have hfix : (fixArgs cmd).1 = false :=
      Bool.eq_false_iff.mpr fun hfix => hneeds ((fixArgs_fst h).mp hfix)
    have hclean : Clean cmd := by
      rw [← fixArgs_kept hfix]
      exact clean_fixArgs h
    have hleast := (needsFix_iff hclean).not.mp hneeds
    rw [hargs] at hleast
    rw [settles_iff_amend hclean hargs, settles_four hb hc (Nat.not_lt.mp hleast)]
    exact ⟨fun hsettles => ⟨fun hyes => absurd hyes hneeds, fun _ => hsettles⟩,
      fun hsettles => hsettles.2 hneeds⟩

def fourChannels : Cmd where
  startSrc := trigNow
  scanBeginSrc := trigTimer
  scanBeginArg := 100499
  convertSrc := trigTimer
  convertArg := 26500
  scanEndSrc := trigCount
  scanEndArg := 4
  stopSrc := trigCount
  stopArg := 10000
  chanlistLen := 4

theorem settles_iff_fourChannels : Settles waveformAiCmdtest Accepted 4 fourChannels := by
  have hneeds : needsFix fourChannels := .inr (.inr (.inr (.inl ⟨rfl, by decide⟩)))
  have hargs : argsOf fourChannels = ⟨100499, 26500, 4⟩ := rfl
  refine (settles_iff ⟨rfl, rfl, .inr rfl, rfl, .inl rfl⟩).mpr ⟨fun _ => ?_, absurd hneeds⟩
  have hconvert : Ordinary 26500 := by unfold Ordinary; omega
  rw [hargs]
  refine .inl ⟨.inl hconvert, ?_, .inl ?_⟩
  · rw [nearest_of_ordinary hconvert]
    decide
  · unfold raisedTo
    rw [least_of_lt (by decide)]
    unfold Ordinary
    decide

/-- A scan every 9 us of 16 channels, each of which takes more than a quarter of a second. -/
def overflowing : Cmd where
  startSrc := trigNow
  scanBeginSrc := trigTimer
  scanBeginArg := 9000
  convertSrc := trigTimer
  convertArg := 268436000
  scanEndSrc := trigCount
  scanEndArg := 16
  stopSrc := trigNone
  chanlistLen := 16

/-- A scan every three seconds. -/
def slow : Cmd where
  startSrc := trigNow
  scanBeginSrc := trigTimer
  scanBeginArg := 3000000000
  convertSrc := trigNow
  scanEndSrc := trigCount
  scanEndArg := 1
  stopSrc := trigNone
  chanlistLen := 1

theorem overflow_accepted :
    (Supported overflowing ∧ (waveformAiCmdtest overflowing).1 = 0 ∧
      overflowing.scanBeginArg.toNat <
        overflowing.convertArg.toNat * overflowing.chanlistLen.toNat) ∧
    (Supported slow ∧
      ∀ k < 4, (waveformAiCmdtest (again waveformAiCmdtest k slow)).1 ≠ 0) := by
  refine ⟨⟨⟨rfl, rfl, .inr rfl, rfl, .inr rfl⟩, by decide, by decide⟩,
    ⟨rfl, rfl, .inl rfl, rfl, .inr rfl⟩, ?_⟩
  decide

end Comedi.ComediTestSettles
