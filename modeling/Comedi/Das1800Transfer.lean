import Comedi.Das1800Settles

namespace Comedi.Das1800Transfer

open ArgFixes Das1800 Das1800Cmdtest I8253Pacing
open Das1800Settles (timedScans timedScans_request evenBase)
open RtTimer (trigNone trigNow trigFollow trigTimer trigCount)

/-- The time in which a transfer should be filled, in nanoseconds. -/
def fillTime : Nat := 300000000

/-- What `suggest_transfer_size` makes of a size. -/
def clipped (cmd : Cmd) (size : U32) : U32 :=
  let maxSize :=
    if cmd.stopSrc = trigCount ∧ cmd.stopArg * cmd.chanlistLen * 2 < dmaBufSize then
      cmd.stopArg * cmd.chanlistLen * 2
    else dmaBufSize
  let size := if maxSize < size then maxSize else size
  if size < 2 then 2 else size

/-- The product of 32 bits that limits a transfer if the samples are counted. -/
def wrapped (cmd : Cmd) : Nat := cmd.stopArg.toNat * cmd.chanlistLen.toNat * 2 % 2 ^ 32

/-- The largest transfer, in bytes. -/
def limit (cmd : Cmd) : Nat :=
  if cmd.stopSrc = trigCount then min (wrapped cmd) dmaBufSize.toNat else dmaBufSize.toNat

/-- The product of 32 bits by which the time is divided in burst mode. -/
def divisor (cmd : Cmd) : Nat := cmd.scanBeginArg.toNat * cmd.chanlistLen.toNat % 2 ^ 32

/-- A transfer of whole samples that fits the buffer, without more than is asked for. Unless it is
a single sample it is filled in time: of a burst, `chanlistLen` samples come in a scan period. -/
structure Safe (cmd : Cmd) (size : Nat) : Prop where
  even : 2 ∣ size
  least : 2 ≤ size
  most : size ≤ dmaBufSize.toNat
  counted : cmd.stopSrc = trigCount → size ≤ 2 * (cmd.stopArg.toNat * cmd.chanlistLen.toNat)
  paced : cmd.scanBeginSrc = trigFollow → cmd.convertSrc = trigTimer →
    size = 2 ∨ size / 2 * cmd.convertArg.toNat ≤ fillTime
  burst : cmd.scanBeginSrc = trigTimer →
    size = 2 ∨ size / 2 * cmd.scanBeginArg.toNat ≤ fillTime * cmd.chanlistLen.toNat

/-- The divisor is not zero, and no number of samples that it and the limit allow takes longer
than the time. -/
def Fillable (cmd : Cmd) : Prop :=
  cmd.scanBeginSrc = trigTimer → divisor cmd ≠ 0 ∧
    ∀ n, 2 ≤ n → n * divisor cmd ≤ fillTime → 2 * n ≤ limit cmd →
      n * cmd.scanBeginArg.toNat ≤ fillTime * cmd.chanlistLen.toNat

variable {aiSpeed : U32} {cmd : Cmd} {x : AiTest} {size n : Nat}

section Sizes

theorem wrapped_toNat (cmd : Cmd) :
    (cmd.stopArg * cmd.chanlistLen * 2).toNat = wrapped cmd := by
  have htwo : (2 : U32).toNat = 2 := rfl
  rw [BitVec.toNat_mul, BitVec.toNat_mul, htwo, Nat.mod_mul_mod]
  rfl

theorem divisor_toNat (cmd : Cmd) :
    (cmd.scanBeginArg * cmd.chanlistLen).toNat = divisor cmd := BitVec.toNat_mul _ _

theorem limit_even (cmd : Cmd) : 2 ∣ limit cmd := by
  have hdma : dmaBufSize.toNat = 130816 := rfl
  unfold limit wrapped
  rw [hdma]
  split
  · omega
  · decide

theorem limit_le (cmd : Cmd) : limit cmd ≤ dmaBufSize.toNat := by
  unfold limit
  split
  · exact min_le_right _ _
  · exact le_rfl

theorem clipped_toNat (cmd : Cmd) (size : U32) :
    (clipped cmd size).toNat = max 2 (min size.toNat (limit cmd)) := by
  have hmax : (if cmd.stopSrc = trigCount ∧ cmd.stopArg * cmd.chanlistLen * 2 < dmaBufSize then
      cmd.stopArg * cmd.chanlistLen * 2 else dmaBufSize).toNat = limit cmd := by
    unfold limit
    by_cases hcount : cmd.stopSrc = trigCount
    · rw [if_pos hcount]
      by_cases hlt : cmd.stopArg * cmd.chanlistLen * 2 < dmaBufSize
      · rw [if_pos ⟨hcount, hlt⟩, wrapped_toNat]
        rw [BitVec.lt_def, wrapped_toNat] at hlt
        exact (min_eq_left hlt.le).symm
      · rw [if_neg fun h => hlt h.2]
        rw [BitVec.lt_def, wrapped_toNat] at hlt
        exact (min_eq_right (not_lt.mp hlt)).symm
    · rw [if_neg fun h => hcount h.1, if_neg hcount]
  have htwo : (2 : U32).toNat = 2 := rfl
  unfold clipped
  dsimp only
  rw [← hmax]
  generalize (if cmd.stopSrc = trigCount ∧ cmd.stopArg * cmd.chanlistLen * 2 < dmaBufSize then
    cmd.stopArg * cmd.chanlistLen * 2 else dmaBufSize) = most
  have hmin : (if most < size then most else size).toNat = min size.toNat most.toNat := by
    split
    next h => exact (min_eq_right (Nat.le_of_lt h)).symm
    next h => exact (min_eq_left (Nat.le_of_not_lt h)).symm
  rw [← hmin]
  generalize (if most < size then most else size) = capped
  split
  next h => exact (max_eq_left (Nat.le_of_lt h)).symm
  next h => exact (max_eq_right (Nat.le_of_not_lt h)).symm

theorem size_paced (hscan : cmd.scanBeginSrc = trigFollow) (htimer : cmd.convertSrc = trigTimer)
    (hne : cmd.convertArg ≠ 0) :
    suggestTransferSize cmd = .ok (clipped cmd (300000000 / cmd.convertArg * 2)) := by
  unfold suggestTransferSize
  rw [if_pos hscan, if_pos htimer, if_neg hne]
  rfl

theorem size_burst (hscan : cmd.scanBeginSrc = trigTimer) : suggestTransferSize cmd =
    if cmd.scanBeginArg * cmd.chanlistLen = 0 then .error .divideError
    else .ok (clipped cmd (300000000 / (cmd.scanBeginArg * cmd.chanlistLen) * 2)) := by
  have hne : cmd.scanBeginSrc ≠ trigFollow := by rw [hscan]; decide
  unfold suggestTransferSize
  rw [if_neg hne, if_pos hscan]
  split
  · rfl
  · rfl

theorem size_untimed (hscan : cmd.scanBeginSrc ≠ trigTimer)
    (hne : cmd.scanBeginSrc = trigFollow → cmd.convertSrc ≠ trigTimer) :
    suggestTransferSize cmd = .ok (clipped cmd dmaBufSize) := by
  unfold suggestTransferSize
  by_cases hfollow : cmd.scanBeginSrc = trigFollow
  · rw [if_pos hfollow, if_neg (hne hfollow)]
    rfl
  · rw [if_neg hfollow, if_neg hscan]
    rfl

/-- Samples that fill a transfer in time. -/
theorem quotient_toNat (ns : U32) :
    (300000000 / ns * 2).toNat = fillTime / ns.toNat * 2 := by
  have htime : (300000000 : U32).toNat = fillTime := rfl
  have htwo : (2 : U32).toNat = 2 := rfl
  have hle : fillTime / ns.toNat ≤ fillTime := Nat.div_le_self _ _
  have hsmall : fillTime = 300000000 := rfl
  rw [BitVec.toNat_mul, BitVec.toNat_udiv, htime, htwo]
  exact Nat.mod_eq_of_lt (by omega)

end Sizes

section Safety

theorem accepted_convert (hspeed : 0 < aiSpeed.toNat) (h : Accepted aiSpeed x)
    (htimer : x.cmd.convertSrc = trigTimer) : x.cmd.convertArg ≠ 0 := by
  intro hzero
  have hleast := h.fixed.convert htimer
  rw [hzero, BitVec.lt_def] at hleast
  exact hleast hspeed

theorem accepted_counted (h : Accepted aiSpeed x) (hcount : x.cmd.stopSrc = trigCount) :
    0 < x.cmd.stopArg.toNat * x.cmd.chanlistLen.toNat := by
  have hstop := h.fixed.stop
  unfold stopArg at hstop
  rw [if_pos hcount, put_eq_false] at hstop
  exact Nat.mul_pos (Nat.pos_of_ne_zero fun hzero => hstop (BitVec.eq_of_toNat_eq hzero))
    (Nat.pos_of_ne_zero fun hzero => h.fixed.len (BitVec.eq_of_toNat_eq hzero))

/-- A clipped size is safe but for the time that it takes. -/
theorem safe_of_clipped (h : Accepted aiSpeed x) (heven : 2 ∣ n)
    (hpaced : x.cmd.scanBeginSrc = trigFollow → x.cmd.convertSrc = trigTimer →
      max 2 (min n (limit x.cmd)) = 2 ∨
        max 2 (min n (limit x.cmd)) / 2 * x.cmd.convertArg.toNat ≤ fillTime)
    (hburst : x.cmd.scanBeginSrc = trigTimer → max 2 (min n (limit x.cmd)) = 2 ∨
      max 2 (min n (limit x.cmd)) / 2 * x.cmd.scanBeginArg.toNat ≤
        fillTime * x.cmd.chanlistLen.toNat) : Safe x.cmd (max 2 (min n (limit x.cmd))) where
  even := by
    have hlimit := limit_even x.cmd
    omega
  least := le_max_left _ _
  most := max_le (by decide) ((min_le_right _ _).trans (limit_le x.cmd))
  counted hcount := by
    have hpos := accepted_counted h hcount
    have hlimit : limit x.cmd ≤ 2 * (x.cmd.stopArg.toNat * x.cmd.chanlistLen.toNat) := by
      unfold limit wrapped
      rw [if_pos hcount, Nat.mul_comm 2]
      exact (min_le_left _ _).trans (Nat.mod_le _ _)
    exact max_le (by omega) ((min_le_right _ _).trans hlimit)
  paced := hpaced
  burst := hburst

theorem safe_paced (hspeed : 0 < aiSpeed.toNat) (h : Accepted aiSpeed x)
    (hscan : x.cmd.scanBeginSrc = trigFollow) (htimer : x.cmd.convertSrc = trigTimer) :
    ∃ size, suggestTransferSize x.cmd = .ok size ∧ Safe x.cmd size.toNat := by
  refine ⟨_, size_paced hscan htimer (accepted_convert hspeed h htimer), ?_⟩
  rw [clipped_toNat, quotient_toNat]
  refine safe_of_clipped h (Nat.dvd_mul_left _ _) (fun _ _ => ?_) fun hburst => ?_
  · have hquot := Nat.div_mul_le_self fillTime x.cmd.convertArg.toNat
    generalize fillTime / x.cmd.convertArg.toNat = q at hquot ⊢
    by_cases hone : max 2 (min (q * 2) (limit x.cmd)) = 2
    · exact .inl hone
    · have hhalf : max 2 (min (q * 2) (limit x.cmd)) / 2 ≤ q := by omega
      exact .inr ((Nat.mul_le_mul_right _ hhalf).trans hquot)
  · rw [hscan] at hburst
    exact absurd hburst (by decide)

theorem safe_untimed (h : Accepted aiSpeed x) (hscan : x.cmd.scanBeginSrc ≠ trigTimer)
    (hne : x.cmd.scanBeginSrc = trigFollow → x.cmd.convertSrc ≠ trigTimer) :
    ∃ size, suggestTransferSize x.cmd = .ok size ∧ Safe x.cmd size.toNat := by
  refine ⟨_, size_untimed hscan hne, ?_⟩
  rw [clipped_toNat]
  exact safe_of_clipped h (by decide) (fun hfollow htimer => absurd htimer (hne hfollow))
    fun hburst => absurd hburst hscan

theorem safe_burst_iff (h : Accepted aiSpeed x) (hscan : x.cmd.scanBeginSrc = trigTimer) :
    (∃ size, suggestTransferSize x.cmd = .ok size ∧ Safe x.cmd size.toNat) ↔
      Fillable x.cmd := by
  have hzero : x.cmd.scanBeginArg * x.cmd.chanlistLen = 0 ↔ divisor x.cmd = 0 := by
    rw [← divisor_toNat]
    exact ⟨fun heq => by rw [heq]; rfl, fun heq => BitVec.eq_of_toNat_eq heq⟩
  have heven := limit_even x.cmd
  rw [size_burst hscan]
  by_cases hne : divisor x.cmd = 0
  · rw [if_pos (hzero.mpr hne)]
    refine iff_of_false ?_ fun hfill => (hfill hscan).1 hne
    rintro ⟨size, herror, -⟩
    exact absurd herror nofun
  rw [if_neg (mt hzero.mp hne)]
  have hsize := clipped_toNat x.cmd (300000000 / (x.cmd.scanBeginArg * x.cmd.chanlistLen) * 2)
  rw [quotient_toNat, divisor_toNat] at hsize
  have hpos := Nat.pos_of_ne_zero hne
  constructor
  · rintro ⟨size, hok, hsafe⟩ -
    refine ⟨hne, fun n hn htime hlimit => ?_⟩
    have hquot : n ≤ fillTime / divisor x.cmd := (Nat.le_div_iff_mul_le hpos).mpr htime
    rw [← Except.ok.inj hok, hsize] at hsafe
    have hhalf : n ≤ max 2 (min (fillTime / divisor x.cmd * 2) (limit x.cmd)) / 2 := by omega
    refine (Nat.mul_le_mul_right _ hhalf).trans ?_
    rcases hsafe.burst hscan with hone | hle
    · omega
    · exact hle
  · intro hfill
    refine ⟨_, rfl, ?_⟩
    rw [hsize]
    refine safe_of_clipped h (Nat.dvd_mul_left _ _) (fun hfollow _ => ?_) fun _ => ?_
    · rw [hscan] at hfollow
      exact absurd hfollow (by decide)
    · by_cases hone : max 2 (min (fillTime / divisor x.cmd * 2) (limit x.cmd)) = 2
      · exact .inl hone
      · right
        have hquot := Nat.div_mul_le_self fillTime (divisor x.cmd)
        have hhalf : max 2 (min (fillTime / divisor x.cmd * 2) (limit x.cmd)) / 2 ≤
            fillTime / divisor x.cmd := by omega
        exact (hfill hscan).2 _ (by omega) ((Nat.mul_le_mul_right _ hhalf).trans hquot) (by omega)

/-- Without an overflow a transfer is filled in time. -/
theorem fillable_of_lt (hpos : 0 < cmd.scanBeginArg.toNat * cmd.chanlistLen.toNat)
    (hlt : cmd.scanBeginArg.toNat * cmd.chanlistLen.toNat < 2 ^ 32) : Fillable cmd := by
  intro _
  have heq : divisor cmd = cmd.scanBeginArg.toNat * cmd.chanlistLen.toNat := Nat.mod_eq_of_lt hlt
  rw [heq]
  refine ⟨hpos.ne', fun n _ htime _ => ?_⟩
  have hlen : 0 < cmd.chanlistLen.toNat := Nat.pos_of_mul_pos_left hpos
  calc n * cmd.scanBeginArg.toNat
      ≤ n * (cmd.scanBeginArg.toNat * cmd.chanlistLen.toNat) :=
        Nat.mul_le_mul_left _ (Nat.le_mul_of_pos_right _ hlen)
    _ ≤ fillTime := htime
    _ ≤ fillTime * cmd.chanlistLen.toNat := Nat.le_mul_of_pos_right _ hlen

/-- The size for an accepted command exists and is safe if and only if the divisor of burst mode,
which has overflowed, is not too small for the scan period. -/
theorem transfer_safe_iff (aiSpeed : U32) (hspeed : 0 < aiSpeed.toNat) (x : AiTest)
    (hret : (das1800AiDoCmdtest aiSpeed x).1 = 0) :
    (∃ size, suggestTransferSize x.cmd = .ok size ∧ Safe x.cmd size.toNat) ↔
      Fillable x.cmd := by
  obtain ⟨h, -⟩ := accepted_of_ret hret
  by_cases hscan : x.cmd.scanBeginSrc = trigTimer
  · exact safe_burst_iff h hscan
  refine iff_of_true ?_ fun hburst => absurd hburst hscan
  by_cases hpaced : x.cmd.scanBeginSrc = trigFollow ∧ x.cmd.convertSrc = trigTimer
  · exact safe_paced hspeed h hpaced.1 hpaced.2
  · exact safe_untimed h hscan fun hfollow htimer => hpaced ⟨hfollow, htimer⟩

end Safety

section Inputs

theorem accepted_scans {scanBeginArg chanlistLen : U32} (hlen : 0 < chanlistLen.toNat)
    (hmost : chanlistLen.toNat ≤ 256) (hlong : 3000 * chanlistLen ≤ scanBeginArg)
    (hproduct : I8253Periods.IsProduct timerBase scanBeginArg.toNat) :
    (das1800AiDoCmdtest 3000 ⟨timedScans scanBeginArg 3000 chanlistLen 0, 0, 0⟩).1 = 0 := by
  have hrequest := timedScans_request scanBeginArg 3000 0 hlen hmost
  have hfixed : Fixed 3000 (timedScans scanBeginArg 3000 chanlistLen 0) :=
    ⟨rfl, fun _ => (by decide : ¬ (3000 : U32) < 3000), Das1800Settles.len_ne hrequest, rfl,
      (by decide : (stopArg trigNone 0).1 = false)⟩
  have hne : trigTimer ≠ trigFollow := by decide
  refine (Das1800Settles.accepted_iff hrequest).mpr ⟨fixArgs_eq_false.mpr hfixed, ?_⟩
  refine (Das1800Settles.burst_iff hrequest hne).mpr ⟨?_, fun _ => ⟨hlong, ?_⟩⟩
  · change burstConvertArg 3000 (0 &&& I8253.trigRoundMask) = 3000
    decide
  · exact steady_of_isProduct evenBase hproduct _ _ _

theorem transfer_safe_four_channels :
    (∃ size, suggestTransferSize (timedScans 12000 3000 4 0) = .ok size ∧
      Safe (timedScans 12000 3000 4 0) size.toNat) ↔ Fillable (timedScans 12000 3000 4 0) :=
  transfer_safe_iff 3000 (by decide) ⟨timedScans 12000 3000 4 0, 0, 0⟩
    (accepted_scans (by decide) (by decide) (by decide)
      ⟨2, 30, by decide, by decide, by decide, by decide, by decide, by decide⟩)

/-- The product of 256 and 25 * 2 ^ 24 is a multiple of 2 ^ 32. -/
theorem transfer_divides_by_zero :
    (das1800AiDoCmdtest 3000 ⟨timedScans 419430400 3000 256 0, 0, 0⟩).1 = 0 ∧
      suggestTransferSize (timedScans 419430400 3000 256 0) = .error .divideError :=
  ⟨accepted_scans (by decide) (by decide) (by decide)
    ⟨1024, 2048, by decide, by decide, by decide, by decide, by decide, by decide⟩, rfl⟩

end Inputs

end Comedi.Das1800Transfer
