import Comedi.ConfigRetry
import Comedi.I8253

namespace Comedi.Pci230Timer

open ConfigRetry (trigRoundNearest trigRoundDown trigRoundUp)
open I8253 (trigRoundMask)

/-- The internal clocks from `CLK_10MHZ` to `CLK_1KHZ`. -/
inductive ClkSrc
  | clk10Mhz
  | clk1Mhz
  | clk100Khz
  | clk10Khz
  | clk1Khz
  deriving DecidableEq

open ClkSrc

def pci230Timebase : ClkSrc → Nat
  | clk10Mhz => 100
  | clk1Mhz => 1000
  | clk100Khz => 10000
  | clk10Khz => 100000
  | clk1Khz => 1000000

def uintMax : Nat := 0xffffffff

/-- `divide_ns`. A quotient of 64 bits by a timebase leaves room for the rounding. -/
def divideNs (ns timebase : Nat) (roundMode : U32) : Nat :=
  let rem := ns % timebase
  let mode := roundMode &&& trigRoundMask
  let div :=
    if mode = trigRoundDown then ns / timebase
    else if mode = trigRoundUp then ns / timebase + (rem + timebase - 1) / timebase
    else ns / timebase + (rem + timebase / 2) / timebase
  if uintMax < div then uintMax else div

/-- The loop of `pci230_choose_clk_count` over the clocks before the last one. -/
def chooseClk (ns : Nat) (roundMode : U32) : List ClkSrc → ClkSrc × Nat
  | [] => (clk1Khz, divideNs ns (pci230Timebase clk1Khz) roundMode)
  | clkSrc :: rest =>
    if divideNs ns (pci230Timebase clkSrc) roundMode ≤ 65536 then
      (clkSrc, divideNs ns (pci230Timebase clkSrc) roundMode)
    else chooseClk ns roundMode rest

def pci230ChooseClkCount (ns : Nat) (roundMode : U32) : ClkSrc × Nat :=
  chooseClk ns roundMode [clk10Mhz, clk1Mhz, clk100Khz, clk10Khz]

def pci230NsToSingleTimer (ns : U32) (roundMode : U32) : U32 :=
  let chosen := pci230ChooseClkCount ns.toNat roundMode
  BitVec.ofNat 32 chosen.2 * BitVec.ofNat 32 (pci230Timebase chosen.1)

/-- The clock source and the initial count that `pci230_ct_setup_ns_mode` programs. -/
def pci230CtSetupNsMode (ns : Nat) (roundMode : U32) : ClkSrc × Nat :=
  let chosen := pci230ChooseClkCount ns roundMode
  (chosen.1, if 65536 ≤ chosen.2 then 0 else chosen.2)

/-- The period of a counter, whose count is 65536 if it is programmed as 0. -/
def period (programmed : ClkSrc × Nat) : Nat :=
  (if programmed.2 = 0 then 65536 else programmed.2) * pci230Timebase programmed.1

/-- What is added to a period before it is divided. -/
def slack (timebase : Nat) (roundMode : U32) : Nat :=
  if roundMode &&& trigRoundMask = trigRoundDown then 0
  else if roundMode &&& trigRoundMask = trigRoundUp then timebase - 1
  else timebase / 2

variable {ns timebase : Nat} {roundMode : U32}

theorem timebase_pos (clkSrc : ClkSrc) : 100 ≤ pci230Timebase clkSrc := by
  cases clkSrc <;> decide

theorem slack_lt (h : 0 < timebase) : slack timebase roundMode < timebase := by
  unfold slack
  split
  · exact h
  split
  · omega
  · omega

/-- The quotient is rounded as the mode tells. -/
theorem divideNs_eq (h : 0 < timebase) :
    divideNs ns timebase roundMode =
      min ((ns + slack timebase roundMode) / timebase) uintMax := by
  have hsplit : ∀ k, ns / timebase + (ns % timebase + k) / timebase = (ns + k) / timebase := by
    intro k
    conv_rhs => rw [← Nat.div_add_mod ns timebase, Nat.add_assoc, Nat.mul_add_div h]
  have hdiv : (if roundMode &&& trigRoundMask = trigRoundDown then ns / timebase
      else if roundMode &&& trigRoundMask = trigRoundUp then
        ns / timebase + (ns % timebase + timebase - 1) / timebase
      else ns / timebase + (ns % timebase + timebase / 2) / timebase) =
        (ns + slack timebase roundMode) / timebase := by
    unfold slack
    split
    · rfl
    split
    · rw [Nat.add_sub_assoc h]
      exact hsplit (timebase - 1)
    · exact hsplit (timebase / 2)
  unfold divideNs
  dsimp only
  rw [hdiv]
  split
  next hlt => exact (min_eq_right hlt.le).symm
  next hle => exact (min_eq_left (not_lt.mp hle)).symm

/-- The count of a clock source for a period, rounded. -/
def count (ns : Nat) (roundMode : U32) (clkSrc : ClkSrc) : Nat :=
  (ns + slack (pci230Timebase clkSrc) roundMode) / pci230Timebase clkSrc

/-- The next faster clock. -/
def finer : ClkSrc → Option ClkSrc
  | clk10Mhz => none
  | clk1Mhz => some clk10Mhz
  | clk100Khz => some clk1Mhz
  | clk10Khz => some clk100Khz
  | clk1Khz => some clk10Khz

/-- The first clock is chosen whose count fits 16 bits, or the last one. -/
structure Chosen (ns : Nat) (roundMode : U32) (chosen : ClkSrc × Nat) : Prop where
  count_eq : chosen.2 = min (count ns roundMode chosen.1) uintMax
  fits : chosen.1 ≠ clk1Khz → chosen.2 ≤ 65536
  slowest : ∀ clkSrc, finer chosen.1 = some clkSrc → 65536 < count ns roundMode clkSrc

theorem chosen (ns : Nat) (roundMode : U32) :
    Chosen ns roundMode (pci230ChooseClkCount ns roundMode) := by
  have hdiv : ∀ clkSrc, divideNs ns (pci230Timebase clkSrc) roundMode =
      min (count ns roundMode clkSrc) uintMax :=
    fun clkSrc => divideNs_eq (by have := timebase_pos clkSrc; omega)
  have hmin : ∀ clkSrc, ¬ min (count ns roundMode clkSrc) uintMax ≤ 65536 →
      65536 < count ns roundMode clkSrc :=
    fun clkSrc h => (not_le.mp h).trans_le (min_le_left _ _)
  unfold pci230ChooseClkCount
  simp only [chooseClk, hdiv]
  split
  next h => exact ⟨rfl, fun _ => h, nofun⟩
  next h10 =>
    split
    next h => exact ⟨rfl, fun _ => h, by rintro _ ⟨⟩; exact hmin _ h10⟩
    next h1 =>
      split
      next h => exact ⟨rfl, fun _ => h, by rintro _ ⟨⟩; exact hmin _ h1⟩
      next h100 =>
        split
        next h => exact ⟨rfl, fun _ => h, by rintro _ ⟨⟩; exact hmin _ h100⟩
        next hk10 => exact ⟨rfl, fun h => absurd rfl h, by rintro _ ⟨⟩; exact hmin _ hk10⟩

theorem Chosen.count_of_le {chosen : ClkSrc × Nat} (h : Chosen ns roundMode chosen)
    (hle : chosen.2 ≤ 65536) : chosen.2 = count ns roundMode chosen.1 := by
  rw [h.count_eq] at hle ⊢
  refine min_eq_left (not_lt.mp fun hlt => ?_)
  rw [min_eq_right hlt.le] at hle
  exact absurd hle (by decide)

/-- A period that one of the clocks counts. -/
def Exact (ns : Nat) : Prop :=
  ∃ clkSrc, pci230Timebase clkSrc ∣ ns ∧ ns ≤ 65536 * pci230Timebase clkSrc

/-- The longest exact period of 32 bits. -/
def longest : Nat := 4294900000

section Exactness

variable {clkSrc clkSrc' : ClkSrc}

theorem finer_timebase (h : finer clkSrc = some clkSrc') :
    pci230Timebase clkSrc = 10 * pci230Timebase clkSrc' := by
  cases clkSrc <;> cases h <;> rfl

theorem finer_cases (clkSrc : ClkSrc) :
    clkSrc = clk10Mhz ∨ ∃ clkSrc', finer clkSrc = some clkSrc' := by
  cases clkSrc with
  | clk10Mhz => exact .inl rfl
  | _ => exact .inr ⟨_, rfl⟩

/-- A clock divides the slower ones. -/
theorem le_finer (h : finer clkSrc = some clkSrc') (clk : ClkSrc)
    (hdvd : ¬ pci230Timebase clkSrc ∣ pci230Timebase clk) :
    pci230Timebase clk ≤ pci230Timebase clkSrc' := by
  cases clkSrc <;> cases h <;> revert hdvd <;> cases clk <;> decide

theorem count_of_dvd (h : pci230Timebase clkSrc ∣ ns) :
    count ns roundMode clkSrc = ns / pci230Timebase clkSrc := by
  have hpos : 0 < pci230Timebase clkSrc := (by decide : 0 < 100).trans_le (timebase_pos clkSrc)
  obtain ⟨k, rfl⟩ := h
  unfold count
  rw [Nat.mul_add_div hpos, Nat.div_eq_of_lt (slack_lt hpos), Nat.mul_div_cancel_left _ hpos,
    Nat.add_zero]

theorem count_le {most : Nat} (h : ns ≤ most * pci230Timebase clkSrc) :
    count ns roundMode clkSrc ≤ most := by
  have hpos : 0 < pci230Timebase clkSrc := (by decide : 0 < 100).trans_le (timebase_pos clkSrc)
  have hslack : slack (pci230Timebase clkSrc) roundMode < pci230Timebase clkSrc := slack_lt hpos
  unfold count
  rw [← Nat.lt_succ_iff, Nat.div_lt_iff_lt_mul hpos, Nat.succ_mul]
  omega

/-- Of an exact period, a clock is chosen that counts it. -/
theorem chosen_dvd (roundMode : U32) (h : Exact ns) :
    pci230Timebase (pci230ChooseClkCount ns roundMode).1 ∣ ns := by
  obtain ⟨clk, hdvd, hle⟩ := h
  have hslow := (chosen ns roundMode).slowest
  generalize (pci230ChooseClkCount ns roundMode).1 = clkSrc at hslow ⊢
  by_contra hnot
  have hsub : ¬ pci230Timebase clkSrc ∣ pci230Timebase clk := fun hd => hnot (hd.trans hdvd)
  rcases finer_cases clkSrc with rfl | ⟨clkSrc', hfiner⟩
  · cases clk <;> exact hsub (by decide)
  · have hfast := hslow _ hfiner
    have hmost : ns ≤ 65536 * pci230Timebase clkSrc' :=
      hle.trans (Nat.mul_le_mul_left _ (le_finer hfiner clk hsub))
    exact absurd (count_le hmost) (not_le.mpr hfast)

theorem chosen_le (roundMode : U32) (h : Exact ns) :
    (pci230ChooseClkCount ns roundMode).2 ≤ 65536 := by
  obtain ⟨clk, -, hle⟩ := h
  have hchosen := chosen ns roundMode
  by_cases hlast : (pci230ChooseClkCount ns roundMode).1 = clk1Khz
  · rw [hchosen.count_eq, hlast]
    refine (min_le_left _ _).trans (count_le (hle.trans (Nat.mul_le_mul_left _ ?_)))
    cases clk <;> decide
  · exact hchosen.fits hlast

/-- The count and the clock of an exact period make it up. -/
theorem chosen_mul (roundMode : U32) (h : Exact ns) :
    (pci230ChooseClkCount ns roundMode).2 *
      pci230Timebase (pci230ChooseClkCount ns roundMode).1 = ns := by
  have hdvd := chosen_dvd roundMode h
  have hle := chosen_le roundMode h
  rw [(chosen ns roundMode).count_of_le hle, count_of_dvd hdvd]
  exact Nat.div_mul_cancel hdvd

/-- A count that does not fit the counter is cut off. -/
theorem period_setup (h : 0 < (pci230ChooseClkCount ns roundMode).2) :
    period (pci230CtSetupNsMode ns roundMode) =
      min (pci230ChooseClkCount ns roundMode).2 65536 *
        pci230Timebase (pci230ChooseClkCount ns roundMode).1 := by
  have hsetup : (pci230CtSetupNsMode ns roundMode).2 =
      if 65536 ≤ (pci230ChooseClkCount ns roundMode).2 then 0
      else (pci230ChooseClkCount ns roundMode).2 := rfl
  have hclk : (pci230CtSetupNsMode ns roundMode).1 = (pci230ChooseClkCount ns roundMode).1 := rfl
  unfold period
  rw [hclk]
  by_cases hfull : 65536 ≤ (pci230ChooseClkCount ns roundMode).2
  · rw [if_pos hfull] at hsetup
    rw [if_pos hsetup, min_eq_right hfull]
  · rw [if_neg hfull] at hsetup
    rw [if_neg (hsetup.trans_ne h.ne'), hsetup, min_eq_left (not_le.mp hfull).le]

/-- A counter runs for the exact period that it is set up for. -/
theorem period_of_exact (roundMode : U32) (h : Exact ns) (hpos : 0 < ns) :
    period (pci230CtSetupNsMode ns roundMode) = ns := by
  have hmul := chosen_mul roundMode h
  have hcount : 0 < (pci230ChooseClkCount ns roundMode).2 := by
    refine Nat.pos_of_ne_zero fun hzero => hpos.ne ?_
    rw [← hmul, hzero, Nat.zero_mul]
  rw [period_setup hcount, min_eq_left (chosen_le roundMode h)]
  exact hmul

/-- A counter holds 16 bits. -/
theorem exact_of_period {programmed : ClkSrc × Nat} (h : programmed.2 < 65536) :
    Exact (period programmed) := by
  refine ⟨programmed.1, Nat.dvd_mul_left _ _, Nat.mul_le_mul_right _ ?_⟩
  split
  · exact le_rfl
  · exact h.le

theorem setup_lt (ns : Nat) (roundMode : U32) :
    (pci230CtSetupNsMode ns roundMode).2 < 65536 := by
  change (if 65536 ≤ _ then 0 else _) < 65536
  split
  · decide
  next h => exact not_le.mp h

theorem Exact.le_longest (h : Exact ns) (hlt : ns < 2 ^ 32) : ns ≤ longest := by
  obtain ⟨clkSrc, ⟨k, rfl⟩, hle⟩ := h
  unfold longest
  cases clkSrc <;> simp only [pci230Timebase] at * <;> omega

end Exactness

section Rounding

/-- A period rounded to a count of the clock that is chosen, without overflow. -/
def rounded (ns : Nat) (roundMode : U32) : Nat :=
  (pci230ChooseClkCount ns roundMode).2 *
    pci230Timebase (pci230ChooseClkCount ns roundMode).1

theorem single_toNat (ns roundMode : U32) :
    (pci230NsToSingleTimer ns roundMode).toNat = rounded ns.toNat roundMode % 2 ^ 32 := by
  unfold pci230NsToSingleTimer rounded
  dsimp only
  rw [BitVec.toNat_mul, BitVec.toNat_ofNat, BitVec.toNat_ofNat, ← Nat.mul_mod]

/-- No period of 32 bits needs the slowest clock. -/
theorem chosen_ne (roundMode : U32) (h : ns < 2 ^ 32) :
    (pci230ChooseClkCount ns roundMode).1 ≠ clk1Khz := by
  intro hlast
  have hslow := (chosen ns roundMode).slowest clk10Khz (by rw [hlast]; rfl)
  exact absurd (count_le (h.le.trans (by decide))) (not_le.mpr hslow)

theorem rounded_eq (roundMode : U32) (h : ns < 2 ^ 32) :
    rounded ns roundMode = count ns roundMode (pci230ChooseClkCount ns roundMode).1 *
      pci230Timebase (pci230ChooseClkCount ns roundMode).1 := by
  have hchosen := chosen ns roundMode
  unfold rounded
  rw [hchosen.count_of_le (hchosen.fits (chosen_ne roundMode h))]

theorem exact_rounded (roundMode : U32) (h : ns < 2 ^ 32) : Exact (rounded ns roundMode) :=
  ⟨_, Nat.dvd_mul_left _ _,
    Nat.mul_le_mul_right _ ((chosen ns roundMode).fits (chosen_ne roundMode h))⟩

theorem rounded_of_exact (roundMode : U32) (h : Exact ns) : rounded ns roundMode = ns :=
  chosen_mul roundMode h

/-- The distance to the rounded period is less than a tick of the clock, which is short. -/
theorem lt_rounded (roundMode : U32) (h : ns < 2 ^ 32) :
    ns < rounded ns roundMode + pci230Timebase (pci230ChooseClkCount ns roundMode).1 := by
  have hpos : 0 < pci230Timebase (pci230ChooseClkCount ns roundMode).1 :=
    (by decide : 0 < 100).trans_le (timebase_pos _)
  rw [rounded_eq roundMode h]
  unfold count
  rw [← Nat.succ_mul, ← Nat.div_lt_iff_lt_mul hpos, Nat.lt_succ_iff]
  exact Nat.div_le_div_right (Nat.le_add_right _ _)

theorem timebase_short (ns : Nat) (roundMode : U32) :
    (pci230ChooseClkCount ns roundMode).1 = clk10Mhz ∨
      6553 * pci230Timebase (pci230ChooseClkCount ns roundMode).1 < ns := by
  have hslow := (chosen ns roundMode).slowest
  generalize (pci230ChooseClkCount ns roundMode).1 = clkSrc at hslow ⊢
  rcases finer_cases clkSrc with rfl | ⟨clkSrc', hfiner⟩
  · exact .inl rfl
  · have hten := finer_timebase hfiner
    have hlong : 65536 * pci230Timebase clkSrc' < ns :=
      not_le.mp fun hle => absurd (count_le hle) (not_le.mpr (hslow _ hfiner))
    exact .inr (by omega)

theorem rounded_lt (roundMode : U32) (h : ns < 2 ^ 32) : rounded ns roundMode <
    ns + pci230Timebase (pci230ChooseClkCount ns roundMode).1 := by
  have hpos : 0 < pci230Timebase (pci230ChooseClkCount ns roundMode).1 :=
    (by decide : 0 < 100).trans_le (timebase_pos _)
  rw [rounded_eq roundMode h]
  exact (Nat.div_mul_le_self _ _).trans_lt (Nat.add_lt_add_left (slack_lt hpos) _)

theorem rounded_le (roundMode : U32) (h : ns ≤ longest) : rounded ns roundMode ≤ longest := by
  have hlt : ns < 2 ^ 32 := h.trans_lt (by decide)
  have hne := chosen_ne roundMode hlt
  rw [rounded_eq roundMode hlt]
  generalize (pci230ChooseClkCount ns roundMode).1 = clkSrc at hne ⊢
  have hdvd : pci230Timebase clkSrc ∣ longest := by
    cases clkSrc with
    | clk1Khz => exact absurd rfl hne
    | _ => decide
  have hmost := Nat.div_mul_cancel hdvd
  calc count ns roundMode clkSrc * pci230Timebase clkSrc
      ≤ longest / pci230Timebase clkSrc * pci230Timebase clkSrc :=
        Nat.mul_le_mul_right _ (count_le (h.trans hmost.ge))
    _ = longest := hmost

variable {arg roundMode : U32}

theorem single_of_le (h : arg.toNat ≤ longest) :
    (pci230NsToSingleTimer arg roundMode).toNat = rounded arg.toNat roundMode := by
  rw [single_toNat]
  exact Nat.mod_eq_of_lt ((rounded_le roundMode h).trans_lt (by decide))

theorem count_up (ns : Nat) (clkSrc : ClkSrc) :
    ns ≤ count ns trigRoundUp clkSrc * pci230Timebase clkSrc ∧
      count ns trigRoundUp clkSrc * pci230Timebase clkSrc < ns + pci230Timebase clkSrc := by
  have hpos : 0 < pci230Timebase clkSrc := (by decide : 0 < 100).trans_le (timebase_pos clkSrc)
  have hslack : slack (pci230Timebase clkSrc) trigRoundUp = pci230Timebase clkSrc - 1 := rfl
  have hsplit := Nat.div_add_mod (ns + (pci230Timebase clkSrc - 1)) (pci230Timebase clkSrc)
  have hmod := Nat.mod_lt (ns + (pci230Timebase clkSrc - 1)) hpos
  unfold count
  rw [hslack, Nat.mul_comm]
  omega

theorem le_rounded_up (h : ns < 2 ^ 32) : ns ≤ rounded ns trigRoundUp := by
  rw [rounded_eq trigRoundUp h]
  exact (count_up ns _).1

/-- What overflows is rounded to 42950 ticks of 100 us. -/
theorem rounded_overflow (h : 2 ^ 32 ≤ rounded arg.toNat roundMode) :
    rounded arg.toNat roundMode = 4295000000 := by
  have hne := chosen_ne roundMode arg.isLt
  have hlt := rounded_lt roundMode arg.isLt
  have hfits := (chosen arg.toNat roundMode).fits hne
  have harg := arg.isLt
  unfold rounded at *
  generalize (pci230ChooseClkCount arg.toNat roundMode).2 = count at *
  generalize (pci230ChooseClkCount arg.toNat roundMode).1 = clkSrc at *
  cases clkSrc with
  | clk1Khz => exact absurd rfl hne
  | _ =>
    simp only [pci230Timebase] at *
    omega

theorem single_cases (arg roundMode : U32) :
    (pci230NsToSingleTimer arg roundMode).toNat = rounded arg.toNat roundMode ∧
        rounded arg.toNat roundMode ≤ longest ∨
      (pci230NsToSingleTimer arg roundMode).toNat = 32704 := by
  rw [single_toNat]
  rcases Nat.lt_or_ge (rounded arg.toNat roundMode) (2 ^ 32) with hlt | hge
  · exact .inl ⟨Nat.mod_eq_of_lt hlt, (exact_rounded roundMode arg.isLt).le_longest hlt⟩
  · rw [rounded_overflow hge]
    exact .inr rfl

theorem single_le (arg roundMode : U32) :
    (pci230NsToSingleTimer arg roundMode).toNat ≤ longest := by
  rcases single_cases arg roundMode with ⟨heq, hle⟩ | heq
  · exact heq.le.trans hle
  · exact heq.le.trans (by decide)

/-- A period of whole ticks of the fastest clock is a lower limit of the rounded one as well. -/
theorem le_single {speed : Nat} (hdvd : 100 ∣ speed) (hle : speed ≤ 8000)
    (h : speed ≤ arg.toNat) : speed ≤ (pci230NsToSingleTimer arg roundMode).toNat := by
  rcases single_cases arg roundMode with ⟨heq, -⟩ | heq
  · rw [heq]
    have hnear := lt_rounded roundMode arg.isLt
    rcases timebase_short arg.toNat roundMode with hclk | hlong
    · rw [hclk] at hnear
      have hexact : 100 ∣ rounded arg.toNat roundMode :=
        ⟨_, (congrArg (_ * pci230Timebase ·) hclk).trans (Nat.mul_comm _ 100)⟩
      have htick : pci230Timebase clk10Mhz = 100 := rfl
      omega
    · have htick := timebase_pos (pci230ChooseClkCount arg.toNat roundMode).1
      omega
  · rw [heq]
    exact hle.trans (by decide)

end Rounding

end Comedi.Pci230Timer
