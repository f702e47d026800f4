import Comedi.Pci230AiCmdtest

namespace Comedi.Pci230Monostable

open ArgFixes Pci230 Pci230AiCmdtest Pci230Timer
open ConfigRetry (trigRoundUp)
open Pci230Timer.ClkSrc (clk1Khz)
open RtTimer (trigNone trigNow trigFollow trigTimer trigCount)

variable {board : Pci230Board} {hwver : U16} {cmd : Cmd} {ns convert len : Nat}

/-- The longest period of the monostable, in nanoseconds. -/
def longestScan : Nat := 65536 * pci230Timebase clk1Khz

section Periods

theorem timebase_le (clkSrc : ClkSrc) : pci230Timebase clkSrc ≤ pci230Timebase clk1Khz := by
  cases clkSrc <;> decide

theorem chosen_pos (h : 0 < ns) : 0 < (pci230ChooseClkCount ns trigRoundUp).2 := by
  rw [(chosen ns trigRoundUp).count_eq]
  refine lt_min (Nat.pos_of_ne_zero fun hzero => ?_) (by decide)
  have hup := (count_up ns (pci230ChooseClkCount ns trigRoundUp).1).1
  rw [hzero, Nat.zero_mul] at hup
  omega

theorem chosen_fits (h : ns ≤ longestScan) :
    (pci230ChooseClkCount ns trigRoundUp).2 ≤ 65536 := by
  have hchosen := chosen ns trigRoundUp
  by_cases hlast : (pci230ChooseClkCount ns trigRoundUp).1 = clk1Khz
  · rw [hchosen.count_eq, hlast]
    exact (min_le_left _ _).trans (count_le h)
  · exact hchosen.fits hlast

/-- A period that a counter can hold is rounded up by less than a tick of the clock. -/
theorem period_up (hns : 0 < ns) (hle : ns ≤ longestScan) :
    ns ≤ period (pci230CtSetupNsMode ns trigRoundUp) ∧
      period (pci230CtSetupNsMode ns trigRoundUp) <
        ns + pci230Timebase (pci230ChooseClkCount ns trigRoundUp).1 := by
  have hfits := chosen_fits hle
  rw [period_setup (chosen_pos hns), min_eq_left hfits,
    (chosen ns trigRoundUp).count_of_le hfits]
  exact count_up _ _

theorem period_le (hns : 0 < ns) :
    period (pci230CtSetupNsMode ns trigRoundUp) ≤ longestScan := by
  rw [period_setup (chosen_pos hns)]
  exact Nat.mul_le_mul (min_le_right _ _) (timebase_le _)

/-- A tick of the clock is shorter than a conversion. -/
theorem timebase_lt (hconvert : 3200 ≤ convert) (hlen : len ≤ 256) :
    pci230Timebase (pci230ChooseClkCount (convert * len) trigRoundUp).1 < convert := by
  rcases timebase_short (convert * len) trigRoundUp with hclk | hlong
  · rw [hclk]
    exact (by decide : 100 < 3200).trans_le hconvert
  · have hmost : convert * len ≤ convert * 256 := Nat.mul_le_mul_left _ hlen
    omega

theorem gates_iff (hconvert : 3200 ≤ convert) (hlen : 0 < len) (hlen' : len ≤ 256) :
    (convert * len ≤ period (pci230CtSetupNsMode (convert * len) trigRoundUp) ∧
      period (pci230CtSetupNsMode (convert * len) trigRoundUp) < convert * (len + 1)) ↔
        convert * len ≤ longestScan := by
  have hns : 0 < convert * len := Nat.mul_pos (by omega) hlen
  constructor
  · exact fun h => h.1.trans (period_le hns)
  · intro hle
    obtain ⟨hlow, hhigh⟩ := period_up hns hle
    have htick := timebase_lt hconvert hlen'
    rw [Nat.mul_succ]
    exact ⟨hlow, hhigh.trans (Nat.add_lt_add_left htick _)⟩

end Periods

section Commands

theorem speed_le (hwver : U16) (chanlist : Chanlist) (chanlistLen : U32) :
    3200 ≤ (maxSpeedAi hwver chanlist chanlistLen).toNat := by
  unfold maxSpeedAi
  split
  · split
    · split <;> decide
    · decide
  · decide

theorem convert_timed (h : Accepted board hwver cmd) (hscan : cmd.scanBeginSrc ≠ trigFollow) :
    cmd.convertSrc = trigTimer := by
  by_contra hconvert
  exact h.sources (.inr (.inr (.inr (.inr (.inr ⟨hscan, hconvert⟩)))))

theorem convert_le (h : Accepted board hwver cmd) (htimer : cmd.convertSrc = trigTimer) :
    3200 ≤ cmd.convertArg.toNat := by
  have hfixed := h.fixed.convert
  unfold Pci230AiCmdtest.convertArg at hfixed
  rw [if_pos htimer] at hfixed
  exact (speed_le _ _ _).trans (not_lt.mp (within_eq_false.mp hfixed).1)

/-- The monostable of counter 0 lasts for exactly one scan if and only if a scan takes no more
than 65536 milliseconds. -/
theorem one_scan_iff (board : Pci230Board) (hwver : U16) (cmd : Cmd)
    (hlen : 0 < cmd.chanlistLen) (hlen' : cmd.chanlistLen ≤ lenChanlist)
    (h : (pci230AiCmdtest board hwver cmd).1 = 0) (hscan : cmd.scanBeginSrc ≠ trigFollow) :
    ∃ programmed, (aiTimers cmd).lookup 0 = some programmed ∧
      ((cmd.convertArg.toNat * cmd.scanEndArg.toNat ≤ period programmed ∧
        period programmed < cmd.convertArg.toNat * (cmd.scanEndArg.toNat + 1)) ↔
          cmd.convertArg.toNat * cmd.scanEndArg.toNat ≤ 65536000000) := by
  have haccepted := accepted_of_ret h
  have htimer := convert_timed haccepted hscan
  refine ⟨monostable cmd, ?_, ?_⟩
  · unfold aiTimers
    rw [if_pos htimer, if_pos hscan]
    rfl
  · have hlongest : 65536000000 = longestScan := rfl
    unfold monostable
    rw [haccepted.fixed.scanEnd, hlongest]
    exact gates_iff (convert_le haccepted htimer) hlen hlen'

/-- Commands that have scans of single-ended channels begun by an external trigger. -/
def externalScans (convertArg : U32) (channels : List U32) : Cmd where
  startSrc := trigNow
  scanBeginSrc := trigExt
  convertSrc := trigTimer
  convertArg := convertArg
  scanEndSrc := trigCount
  scanEndArg := BitVec.ofNat 32 channels.length
  stopSrc := trigNone
  chanlist := .kernel channels
  chanlistLen := BitVec.ofNat 32 channels.length

theorem one_scan_four_channels :
    ∃ programmed, (aiTimers (externalScans 10000 [0, 1, 2, 3])).lookup 0 = some programmed ∧
      ((10000 * 4 ≤ period programmed ∧ period programmed < 10000 * (4 + 1)) ↔
        10000 * 4 ≤ 65536000000) :=
  one_scan_iff pci230 0 (externalScans 10000 [0, 1, 2, 3]) (by decide) (by decide)
    (by decide +kernel) (by decide)

/-- Sixteen conversions at the longest period do not fit the monostable. -/
theorem scan_cut_short :
    (pci230AiCmdtest pci230 0 (externalScans 4294900000 ((List.range 16).map (BitVec.ofNat 32)))).1
      = 0 ∧
    (aiTimers (externalScans 4294900000 ((List.range 16).map (BitVec.ofNat 32)))).lookup 0 =
      some (clk1Khz, 0) ∧
    period (clk1Khz, 0) < 4294900000 * 16 := by
  decide +kernel

end Commands

end Comedi.Pci230Monostable
