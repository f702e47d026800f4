import Comedi.Pci230
import Comedi.BitFlags

namespace Comedi.Pci230Scans

open AsyncBuffer RunState ChanlistCheck CommandStarts Pci230
open RtTimer (trigCount)

/-- What `pci230_ai_cmdtest` and the core make sure of for a command with a number of scans, whose
channel list has at most the 256 entries of `len_chanlist`. -/
structure AiAccepted (cmd : Cmd) : Prop where
  scanEndArg : cmd.scanEndArg = cmd.chanlistLen
  chanlistLen : 1 ≤ cmd.chanlistLen.toNat ∧ cmd.chanlistLen.toNat ≤ 256
  stopSrc : cmd.stopSrc = trigCount

/-- An input command under way, with the samples that the buffer has taken and whether the end of
the acquisition has been raised. -/
structure AiRun where
  dev : Private
  taken : Nat
  eoa : Bool

def hasEoa (events : U32) : Bool := events &&& comediCbEoa ≠ 0

def aiBegin (p : Private) (cmd : Cmd) : AiRun :=
  let s := aiStart (aiSetUp p cmd) cmd
  ⟨s.dev, 0, (s.events.map hasEoa).getD false⟩

/-- An interrupt of the converter. No events are pending then, because `comedi_event` has taken
those of the interrupt before. -/
def aiInterrupt (cmd : Cmd) (x : AiRun) (r : AiReading) : AiRun :=
  if x.dev.intEn &&& intAdc = 0 then x
  else
    let h := handleAi x.dev cmd 0 r
    ⟨h.dev, x.taken + h.taken, x.eoa || hasEoa h.raised⟩

def aiRun (cmd : Cmd) (p : Private) (rs : List AiReading) : AiRun :=
  rs.foldl (aiInterrupt cmd) (aiBegin p cmd)

/-- The number of samples in the FIFO that makes the converter interrupt. -/
def aiTriggerLevel (p : Private) : Nat :=
  if p.adccon &&& adcIntFifoMask = adcIntFifoHalf then adcFifolevelHalffull.toNat
  else if p.adccon &&& adcIntFifoMask = adcIntFifoThresh then p.adcfifothresh.toNat
  else if p.adccon &&& adcIntFifoMask = adcIntFifoNempty then 1
  else 4096

def aiWanted (cmd : Cmd) : Nat := cmd.stopArg.toNat * cmd.scanEndArg.toNat

/-- The command takes no more than it wants, ends when it has that, and until then an interrupt
comes before the rest has been converted. -/
structure AiExact (cmd : Cmd) (x : AiRun) : Prop where
  taken : x.taken ≤ aiWanted cmd
  eoa : x.eoa = true ↔ x.taken = aiWanted cmd
  level : x.dev.aiCmdStarted = true → aiTriggerLevel x.dev ≤ aiWanted cmd - x.taken

/-- The loop of step 5 of `pci230_ao_cmdtest` over the entries behind the first. -/
def aoStep5 (firstRange : U32) : U32 → List U32 → Bool
  | _, [] => true
  | prevChan, x :: xs =>
    !decide (crChan x < prevChan) && decide (crRange x = firstRange) &&
      aoStep5 firstRange (crChan x) xs

def aoChanlistTest : List U32 → Bool
  | [] => true
  | x :: xs => aoStep5 (crRange x) (crChan x) xs

/-- What `pci230_ao_cmdtest` and the core make sure of for a command with a number of scans on the
two channels of the converter. -/
structure AoAccepted (cmd : Cmd) (entries : List U32) : Prop where
  chanlist : cmd.chanlist = .kernel entries
  length : entries.length = cmd.chanlistLen.toNat
  chanlistLen : 1 ≤ cmd.chanlistLen.toNat ∧ cmd.chanlistLen.toNat ≤ 2
  chans : ∀ x ∈ entries, (crChan x).toNat < 2
  step5 : aoChanlistTest entries = true
  stopSrc : cmd.stopSrc = trigCount

/-- An output command under way, with the channels for which samples went into the FIFO, and for
the last interrupt the samples that it moved and the room that it found. -/
structure AoRun where
  dev : Private
  written : List U32
  eoa : Bool
  last : Nat
  room : Nat

def aoBegin (p : Private) (cmd : Cmd) (r : AoReading) : AoRun :=
  let s := aoStart (aoSetUp p cmd) cmd r
  ⟨s.dev, s.written, (s.events.map hasEoa).getD false, s.written.length, (aoRoom r.dacstat).toNat⟩

def aoInterrupt (cmd : Cmd) (x : AoRun) (r : AoReading) : AoRun :=
  if x.dev.intEn &&& intDac = 0 then x
  else
    let h := (handleAoFifo x.dev cmd 0 r).2
    ⟨h.dev, x.written ++ h.written, x.eoa || hasEoa h.raised, h.written.length,
      (aoRoom r.dacstat).toNat⟩

def aoRun (cmd : Cmd) (p : Private) (r : AoReading) (rs : List AoReading) : AoRun :=
  rs.foldl (aoInterrupt cmd) (aoBegin p cmd r)

/-- The number of channels that are enabled. -/
def enabledChannels (dacen : U16) : Nat := (List.range 16).countP fun i => dacen.getLsbD i

/-- Whole scans are moved, not more than there is room for and not more than the command wants,
and the acquisition does not end before all of them. -/
structure AoExact (cmd : Cmd) (x : AoRun) : Prop where
  scans : ∃ n ≤ cmd.stopArg.toNat, x.written = (List.replicate n (channels cmd)).flatten ∧
    (x.eoa = true → n = cmd.stopArg.toNat)
  room : x.last ≤ x.room

/-- Each enabled channel gets one sample of a scan. -/
structure OneEach (cmd : Cmd) (x : AoRun) : Prop where
  enabled : enabledChannels x.dev.dacen = cmd.chanlistLen.toNat
  each : ∀ i < 16, x.dev.dacen.getLsbD i = true →
    ((channels cmd).map BitVec.toNat).count i = 1

section Input

variable {cmd : Cmd} {p : Private} {x : AiRun} {l : AiLoop} {scanlen : U32} {k : Nat}

/-- With `k` samples left, so many scans are left and so far is the current one. -/
structure Left (count pos scanlen : U32) (k : Nat) : Prop where
  pos_lt : pos.toNat < scanlen.toNat
  eq : count.toNat * scanlen.toNat = k + pos.toNat

theorem Left.count_zero {count pos : U32} (h : Left count pos scanlen k) :
    count = 0 ↔ k = 0 := by
  have heq := h.eq
  have hlt := h.pos_lt
  constructor
  · rintro rfl
    simp at heq
    omega
  · rintro rfl
    by_contra hne
    have hpos : 1 ≤ count.toNat := by
      rcases Nat.eq_zero_or_pos count.toNat with hz | hz
      · exact absurd (BitVec.eq_of_toNat_eq hz) hne
      · exact hz
    have := Nat.mul_le_mul_right scanlen.toNat hpos
    omega

theorem Left.scan_le {count pos : U32} (h : Left count pos scanlen k) (n : Nat)
    (hn : n + 1 ≤ count.toNat) : n * scanlen.toNat < k := by
  have heq := h.eq
  have hlt := h.pos_lt
  have hle := Nat.mul_le_mul_right scanlen.toNat hn
  rw [Nat.succ_mul] at hle
  omega

/-- A stored sample is one less that is left. -/
theorem Left.stored (h : Left l.scanCount l.scanPos scanlen (k + 1)) (amount : U32) :
    Left (l.stored scanlen amount).scanCount (l.stored scanlen amount).scanPos scanlen k ∧
      (l.stored scanlen amount).taken = l.taken + 1 := by
  have heq := h.eq
  have hlt := h.pos_lt
  have hone : (l.scanPos + 1).toNat = l.scanPos.toNat + 1 := by
    rw [BitVec.toNat_add]
    have := scanlen.isLt
    simp
    omega
  unfold AiLoop.stored
  split
  · next hend =>
    have hend' : l.scanPos.toNat + 1 = scanlen.toNat := by rw [← hone, hend]
    have hpos : 1 ≤ l.scanCount.toNat := by
      rcases Nat.eq_zero_or_pos l.scanCount.toNat with hz | hz
      · rw [hz] at heq
        omega
      · exact hz
    have hsub : (l.scanCount - 1).toNat = l.scanCount.toNat - 1 :=
      BitVec.toNat_sub_of_le (by rwa [BitVec.le_def])
    refine ⟨⟨by simp; omega, ?_⟩, rfl⟩
    change (l.scanCount - 1).toNat * scanlen.toNat = k + (0 : U32).toNat
    rw [hsub, Nat.sub_mul, heq]
    simp
    omega
  · next hend =>
    have hne : l.scanPos.toNat + 1 ≠ scanlen.toNat := fun h => hend (BitVec.eq_of_toNat_eq (by rw [hone, h]))
    refine ⟨⟨?_, ?_⟩, rfl⟩
    · change (l.scanPos + 1).toNat < _
      omega
    · change l.scanCount.toNat * _ = k + (l.scanPos + 1).toNat
      omega

/-- Neither the loop nor the buffer raises the end of the acquisition. -/
structure NoEoa (l : AiLoop) : Prop where
  events : l.events &&& comediCbEoa = 0
  raised : l.raised &&& comediCbEoa = 0

theorem or_eoa {a b : U32} (ha : a &&& comediCbEoa = 0) (hb : b &&& comediCbEoa = 0) :
    (a ||| b) &&& comediCbEoa = 0 := by
  rw [BitFlags.and_or_of_disjoint hb, ha]

theorem NoEoa.stored (h : NoEoa l) (scanlen amount : U32) : NoEoa (l.stored scanlen amount) := by
  unfold AiLoop.stored
  split
  · exact ⟨h.events, or_eoa h.raised (by decide)⟩
  · exact ⟨h.events, h.raised⟩

theorem fifoAmount_events {hwver : U16} {r : AiReading} {i : Nat} {amount events : U32}
    (h : fifoAmount hwver r i amount = .error events) : events &&& comediCbEoa = 0 := by
  unfold fifoAmount at h
  split at h
  · cases h
  split at h
  · cases h
    decide
  split at h
  · cases h
    decide
  split at h
  · cases h
  split at h
  · split at h
    · cases h
      decide
    · cases h
  · cases h

/-- The loop takes no more samples than are left. -/
theorem aiLoop_left (hwver : U16) (r : AiReading) (n i : Nat) (hn : n ≤ k)
    (h : Left l.scanCount l.scanPos scanlen k) (he : NoEoa l) :
    ∃ m ≤ n, (aiLoop hwver scanlen r n i l).taken = l.taken + m ∧
      Left (aiLoop hwver scanlen r n i l).scanCount (aiLoop hwver scanlen r n i l).scanPos scanlen
        (k - m) ∧
      NoEoa (aiLoop hwver scanlen r n i l) := by
  induction n generalizing i l k with
  | zero => exact ⟨0, le_rfl, rfl, h, he⟩
  | succ n ih =>
    unfold aiLoop
    split
    · next events hev => exact ⟨0, Nat.zero_le _, rfl, h, or_eoa he.events (fifoAmount_events hev), he.raised⟩
    · next amount hok =>
      split
      · obtain ⟨k, rfl⟩ : ∃ k', k = k' + 1 := ⟨k - 1, by omega⟩
        obtain ⟨hleft, htaken⟩ := h.stored amount
        obtain ⟨m, hm, ht, hl, he'⟩ := ih (i + 1) (by omega) hleft (he.stored scanlen amount)
        refine ⟨m + 1, by omega, by omega, ?_, he'⟩
        rwa [Nat.add_sub_add_right]
      · exact ⟨0, Nat.zero_le _, rfl, h, or_eoa he.events (by decide), or_eoa he.raised (by decide)⟩

theorem halffull_toNat : adcFifolevelHalffull.toNat = 2049 := rfl

/-- The product of the counters less the position is what is left, if it is small. -/
theorem Left.product {count pos : U32} (h : Left count pos scanlen k)
    (hc : count.toNat ≤ 2049) (hs : scanlen.toNat ≤ 256) :
    (count * scanlen - pos).toNat = k := by
  have heq := h.eq
  have hle := Nat.mul_le_mul hc hs
  have hmul : (count * scanlen).toNat = count.toNat * scanlen.toNat := by
    rw [BitVec.toNat_mul]
    exact Nat.mod_eq_of_lt (by omega)
  have hpos : pos ≤ count * scanlen := by
    rw [BitVec.le_def, hmul]
    omega
  rw [BitVec.toNat_sub_of_le hpos, hmul]
  omega

theorem aiTodo_le (h : Left p.aiScanCount p.aiScanPos scanlen k) (hc : p.aiContinuous = false)
    (hs : scanlen.toNat ≤ 256) :
    (aiTodo p scanlen).toNat ≤ k ∧ (aiTodo p scanlen = 0 → k = 0) := by
  have hlt := h.pos_lt
  have hno : ¬ p.aiContinuous = true := by rw [hc]; exact Bool.false_ne_true
  unfold aiTodo
  rw [if_neg hno]
  split
  · next hz => exact ⟨Nat.zero_le _, fun _ => h.count_zero.mp hz⟩
  next hz =>
  split
  · next hbig =>
    rw [BitVec.lt_def, BitVec.lt_def, halffull_toNat] at hbig
    have hk := h.scan_le 2049 (by omega)
    refine ⟨?_, fun hn => absurd hn (by decide)⟩
    rw [halffull_toNat]
    omega
  next hsmall =>
  rw [BitVec.lt_def, BitVec.lt_def, halffull_toNat] at hsmall
  have hprod := h.product (by omega) hs
  split
  · next hclip =>
    rw [BitVec.lt_def, halffull_toNat, hprod] at hclip
    refine ⟨?_, fun hn => absurd hn (by decide)⟩
    rw [halffull_toNat]
    omega
  · refine ⟨hprod.le, fun hn => ?_⟩
    rw [hn] at hprod
    exact hprod.symm

theorem aiWake_le (h : Left p.aiScanCount p.aiScanPos cmd.scanEndArg k)
    (hc : p.aiContinuous = false) (hs : cmd.scanEndArg.toNat ≤ 256) (hk : 1 ≤ k) :
    (aiWake p cmd).toNat ≤ k := by
  have hlt := h.pos_lt
  have heq := h.eq
  have hpos : 1 ≤ p.aiScanCount.toNat := by
    rcases Nat.eq_zero_or_pos p.aiScanCount.toNat with hz | hz
    · rw [hz] at heq
      omega
    · exact hz
  unfold aiWake
  split
  · have hle : p.aiScanPos ≤ cmd.scanEndArg := by
      rw [BitVec.le_def]
      omega
    rw [BitVec.toNat_sub_of_le hle]
    have := Nat.mul_le_mul_right cmd.scanEndArg.toNat hpos
    omega
  split
  · next hbig =>
    rw [hc, BitVec.le_def, BitVec.le_def, halffull_toNat] at hbig
    have hcount : 2049 ≤ p.aiScanCount.toNat := by
      rcases hbig with hb | hb | hb
      · cases hb
      · exact hb
      · omega
    have := h.scan_le 2048 hcount
    rw [halffull_toNat]
    omega
  · next hsmall =>
    rw [BitVec.le_def, BitVec.le_def, halffull_toNat] at hsmall
    exact (h.product (by omega) hs).le

theorem level_bits (adccon level : U16) (h : level &&& ~~~adcIntFifoMask = 0) :
    (adccon &&& ~~~adcIntFifoMask ||| level) &&& adcIntFifoMask = level := by
  have hl : level &&& adcIntFifoMask = level := by
    have hsplit : level = level &&& adcIntFifoMask ||| level &&& ~~~adcIntFifoMask := by
      rw [← BitVec.and_or_distrib_left, BitVec.or_not_self, BitVec.and_allOnes]
    rw [h] at hsplit
    exact (hsplit.trans BitVec.or_zero).symm
  have h := BitFlags.set_reads (x := adccon) (b := level) (z := adcIntFifoMask) (m := adcIntFifoMask)
    (by decide)
  rwa [hl] at h

/-- The level that is programmed is not above the number of samples waited for. -/
theorem aiUpdate_level (p : Private) (cmd : Cmd) (hk : 1 ≤ k) (hw : (aiWake p cmd).toNat ≤ k) :
    aiTriggerLevel (aiUpdateFifoTriggerLevel p cmd) ≤ k := by
  unfold aiUpdateFifoTriggerLevel aiTriggerLevel
  dsimp only
  split
  · next hbig =>
    rw [BitVec.le_def] at hbig
    simp only [level_bits p.adccon adcIntFifoHalf (by decide), if_true]
    exact hbig.trans hw
  split
  · simp only [level_bits p.adccon adcIntFifoThresh (by decide)]
    rw [if_neg (by decide), if_pos trivial, BitVec.toNat_setWidth]
    exact (Nat.mod_le _ _).trans hw
  · simp only [level_bits p.adccon adcIntFifoNempty (by decide)]
    rw [if_neg (by decide), if_neg (by decide), if_pos trivial]
    exact hk

theorem aiUpdate_frame (p : Private) (cmd : Cmd) :
    ∃ adccon thresh, aiUpdateFifoTriggerLevel p cmd =
      { p with adccon := adccon, adcfifothresh := thresh } := by
  unfold aiUpdateFifoTriggerLevel
  dsimp only
  split
  · exact ⟨_, p.adcfifothresh, rfl⟩
  split
  · exact ⟨_, _, rfl⟩
  · exact ⟨_, p.adcfifothresh, rfl⟩

/-- A command with `k` samples to go. -/
structure Going (p : Private) (cmd : Cmd) (k : Nat) : Prop where
  started : p.aiCmdStarted = true
  continuous : p.aiContinuous = false
  left : Left p.aiScanCount p.aiScanPos cmd.scanEndArg k
  pos : 1 ≤ k
  level : aiTriggerLevel p ≤ k

structure Stopped (p : Private) : Prop where
  started : p.aiCmdStarted = false
  int : p.intEn &&& intAdc = 0

theorem aiStop_stopped (h : p.aiCmdStarted = true) : Stopped (aiStop p) := by
  rw [aiStop, if_pos h]
  exact ⟨rfl, BitFlags.cleared (by decide)⟩

theorem Going.update (hst : p.aiCmdStarted = true) (hc : p.aiContinuous = false)
    (hl : Left p.aiScanCount p.aiScanPos cmd.scanEndArg k) (hs : cmd.scanEndArg.toNat ≤ 256)
    (hk : 1 ≤ k) : Going (aiUpdateFifoTriggerLevel p cmd) cmd k := by
  have hlevel := aiUpdate_level p cmd hk (aiWake_le hl hc hs hk)
  obtain ⟨adccon, thresh, hu⟩ := aiUpdate_frame p cmd
  rw [hu] at hlevel ⊢
  exact ⟨hst, hc, hl, hk, hlevel⟩

theorem hasEoa_iff {events : U32} : hasEoa events = true ↔ events &&& comediCbEoa ≠ 0 := by
  unfold hasEoa
  exact decide_eq_true_iff

theorem endMask_of_eoa : ∀ {events : U32}, events &&& comediCbEoa ≠ 0 → events &&& endMask ≠ 0 := by
  intro events he hz
  apply he
  have hsub : comediCbEoa = endMask &&& comediCbEoa := by decide
  rw [hsub, ← BitVec.and_assoc, hz]
  exact BitVec.zero_and

/-- An interrupt takes some of the samples that are left. If it takes them all it raises the end of
the acquisition and stops the command, and else it may stop it for an error. -/
theorem handleAi_spec (h : Going p cmd k) (hs : cmd.scanEndArg.toNat ≤ 256) (r : AiReading) :
    ∃ m ≤ k, (handleAi p cmd 0 r).taken = m ∧ (hasEoa (handleAi p cmd 0 r).raised = true ↔ m = k) ∧
      (Stopped (handleAi p cmd 0 r).dev ∨ Going (handleAi p cmd 0 r).dev cmd (k - m)) := by
  obtain ⟨htodo, hzero⟩ := aiTodo_le h.left h.continuous hs
  have hne : aiTodo p cmd.scanEndArg ≠ 0 := fun hz => by
    have := hzero hz
    have := h.pos
    omega
  obtain ⟨m, hm, htaken, hleft, hnoeoa⟩ := @aiLoop_left ⟨p.aiScanCount, p.aiScanPos, 0, 0, 0, 0⟩
    cmd.scanEndArg k p.hwver r (aiTodo p cmd.scanEndArg).toNat 0 htodo h.left
    ⟨BitVec.zero_and, BitVec.zero_and⟩
  unfold handleAi
  rw [if_neg hne]
  dsimp only
  generalize aiLoop p.hwver cmd.scanEndArg r (aiTodo p cmd.scanEndArg).toNat 0
    ⟨p.aiScanCount, p.aiScanPos, 0, 0, 0, 0⟩ = l at htaken hleft hnoeoa ⊢
  have hcont : ¬ p.aiContinuous = true := by
    rw [h.continuous]
    exact Bool.false_ne_true
  have hmk : l.scanCount = 0 ↔ m = k := hleft.count_zero.trans (by omega)
  have heoa : ∀ e : U32, (l.raised ||| (l.events ||| e)) &&& comediCbEoa = e &&& comediCbEoa := by
    intro e
    have hcomm : l.raised ||| (l.events ||| e) = e ||| (l.raised ||| l.events) := by
      rw [← BitVec.or_assoc, BitVec.or_comm]
    rw [hcomm, BitFlags.and_or_of_disjoint (or_eoa hnoeoa.raised hnoeoa.events)]
  refine ⟨m, hm.trans htodo, by simpa using htaken, ?_, ?_⟩
  · rw [hasEoa_iff, heoa, ← hmk]
    by_cases hz : l.scanCount = 0
    · rw [if_pos ⟨hcont, hz⟩]
      exact ⟨fun _ => hz, fun _ => by decide⟩
    · rw [if_neg fun hc => hz hc.2]
      exact ⟨fun hn => absurd (by decide) hn, fun hz' => absurd hz' hz⟩
  · by_cases hz : l.scanCount = 0
    · have hend : ¬ p.aiContinuous = true ∧ l.scanCount = 0 := ⟨hcont, hz⟩
      have hstop : (l.raised ||| (l.events ||| comediCbEoa)) &&& endMask ≠ 0 :=
        endMask_of_eoa (by rw [heoa]; decide)
      rw [if_pos hend, if_pos hstop]
      exact .inl (aiStop_stopped h.started)
    · have hmore : ¬ (¬ p.aiContinuous = true ∧ l.scanCount = 0) := fun hend => hz hend.2
      rw [if_neg hmore]
      split
      · exact .inl (aiStop_stopped h.started)
      · rw [hmk] at hz
        exact .inr (.update h.started h.continuous hleft hs (by omega))

/-- What is true of a command after any interrupts. -/
structure AiInv (cmd : Cmd) (x : AiRun) : Prop where
  exact : AiExact cmd x
  phase : Stopped x.dev ∨ x.taken < aiWanted cmd ∧ Going x.dev cmd (aiWanted cmd - x.taken)

theorem AiInv.of_stopped (ht : x.taken ≤ aiWanted cmd)
    (he : x.eoa = true ↔ x.taken = aiWanted cmd) (hs : Stopped x.dev) : AiInv cmd x := by
  refine ⟨⟨ht, he, fun hst => ?_⟩, .inl hs⟩
  rw [hs.started] at hst
  cases hst

theorem AiInv.of_going (ht : x.taken < aiWanted cmd) (he : x.eoa = false)
    (hg : Going x.dev cmd (aiWanted cmd - x.taken)) : AiInv cmd x := by
  refine ⟨⟨ht.le, ?_, fun _ => hg.level⟩, .inr ⟨ht, hg⟩⟩
  rw [he]
  exact ⟨(fun hn => nomatch hn), fun hn => absurd hn (by omega)⟩

theorem aiBegin_inv (h : AiAccepted cmd) (p : Private) : AiInv cmd (aiBegin p cmd) := by
  have hcount : (aiSetUp p cmd).aiScanCount = cmd.stopArg := if_pos h.stopSrc
  have hcont : (aiSetUp p cmd).aiContinuous = false := by
    change decide (cmd.stopSrc ≠ trigCount) = false
    rw [h.stopSrc]
    rfl
  have hs : cmd.scanEndArg.toNat ≤ 256 := by
    rw [h.scanEndArg]
    exact h.chanlistLen.2
  have hs' : 1 ≤ cmd.scanEndArg.toNat := by
    rw [h.scanEndArg]
    exact h.chanlistLen.1
  have hpos : (aiSetUp p cmd).aiScanPos = 0 := rfl
  unfold aiBegin aiStart
  generalize aiSetUp p cmd = q at hcount hcont hpos
  have hno : ¬ q.aiContinuous = true := by rw [hcont]; exact Bool.false_ne_true
  by_cases hz : cmd.stopArg = 0
  · have hempty : aiWanted cmd = 0 := by
      rw [aiWanted, hz]
      exact Nat.zero_mul _
    have hend : ¬ q.aiContinuous = true ∧ q.aiScanCount = 0 := ⟨hno, by rw [hcount, hz]⟩
    have hstop : Stopped (aiStop { q with aiCmdStarted := true }) := aiStop_stopped rfl
    rw [if_pos hend]
    exact .of_stopped (Nat.zero_le _) ⟨fun _ => hempty.symm, fun _ => rfl⟩ hstop
  · have hend : ¬ (¬ q.aiContinuous = true ∧ q.aiScanCount = 0) := fun hend => hz (hcount ▸ hend.2)
    rw [if_neg hend]
    have hleft : Left q.aiScanCount q.aiScanPos cmd.scanEndArg (aiWanted cmd) := by
      refine ⟨?_, ?_⟩
      · rw [hpos]
        exact hs'
      · rw [hcount, hpos]
        rfl
    have hk : 1 ≤ aiWanted cmd := by
      have hne : aiWanted cmd ≠ 0 := fun hn => hz (hcount ▸ hleft.count_zero.mpr hn)
      omega
    dsimp only
    generalize hq' : aiUpdateFifoTriggerLevel _ cmd = q'
    have hgo : Going q' cmd (aiWanted cmd) := hq' ▸ .update rfl hcont hleft hs hk
    split
    · exact .of_going hk rfl hgo
    split
    · exact .of_going hk rfl hgo
    · exact .of_going hk rfl ⟨hgo.started, hgo.continuous, hgo.left, hgo.pos, hgo.level⟩

theorem aiInterrupt_inv (h : AiAccepted cmd) (hx : AiInv cmd x) (r : AiReading) :
    AiInv cmd (aiInterrupt cmd x r) := by
  have hs : cmd.scanEndArg.toNat ≤ 256 := by
    rw [h.scanEndArg]
    exact h.chanlistLen.2
  unfold aiInterrupt
  obtain hstop | ⟨hlt, hgo⟩ := hx.phase
  · rw [if_pos hstop.int]
    exact hx
  split
  · exact hx
  have heoa : x.eoa = false := by
    rw [Bool.eq_false_iff]
    intro he
    have := hx.exact.eoa.mp he
    omega
  obtain ⟨m, hm, ht, he, hphase⟩ := handleAi_spec hgo hs r
  have he' : (x.eoa || hasEoa (handleAi x.dev cmd 0 r).raised) = true ↔
      x.taken + (handleAi x.dev cmd 0 r).taken = aiWanted cmd := by
    rw [heoa, Bool.false_or, he, ht]
    omega
  obtain hstop | hgo' := hphase
  · exact .of_stopped (by dsimp only; omega) he' hstop
  · have hlt' := hgo'.pos
    refine .of_going (by dsimp only; omega) ?_ ?_
    · rw [Bool.eq_false_iff]
      intro hn
      have := he'.mp hn
      omega
    · dsimp only
      rwa [ht, ← Nat.sub_sub]

/-- After any interrupts. -/
theorem aiRun_exact (h : AiAccepted cmd) (p : Private) (rs : List AiReading) :
    AiExact cmd (aiRun cmd p rs) := by
  have hrun : ∀ x, AiInv cmd x → AiInv cmd (rs.foldl (aiInterrupt cmd) x) := by
    induction rs with
    | nil => exact fun x hx => hx
    | cons r rs ih => exact fun x hx => ih _ (aiInterrupt_inv h hx r)
  exact (hrun _ (aiBegin_inv h p)).exact

end Input

section Output

variable {cmd : Cmd} {entries : List U32} {p : Private} {x : AoRun} {k : Nat}

/-- A command of the FIFO version with `k` scans to go. -/
structure AoGoing (p : Private) (k : Nat) : Prop where
  hwver : 2 ≤ p.hwver
  started : p.aoCmdStarted = true
  continuous : p.aoContinuous = false
  left : p.aoScanCount.toNat = k

theorem aoStop_dacen (p : Private) : (aoStop p).dacen = p.dacen := by
  unfold aoStop
  split <;> rfl

theorem aoStop_int (hv : 2 ≤ p.hwver) (h : p.aoCmdStarted = true) :
    (aoStop p).intEn &&& intDac = 0 := by
  have hsrc : aoIntsrc p.hwver = intDac := if_neg (BitVec.not_lt.mpr hv)
  rw [aoStop, if_pos h]
  change p.intEn &&& ~~~aoIntsrc p.hwver &&& intDac = 0
  rw [hsrc]
  exact BitFlags.cleared (by decide)

theorem aoCountDown_going (h : AoGoing p k) {moved : U32} (hm : moved.toNat ≤ k) :
    AoGoing (aoCountDown p moved) (k - moved.toNat) ∧ (aoCountDown p moved).dacen = p.dacen := by
  have hsub : (p.aoScanCount - moved).toNat = k - moved.toNat := by
    rw [BitVec.toNat_sub_of_le (by rw [BitVec.le_def, h.left]; exact hm), h.left]
  unfold aoCountDown
  rw [if_neg (by rw [h.continuous]; exact Bool.false_ne_true)]
  split
  · exact ⟨⟨h.hwver, h.started, h.continuous, hsub⟩, rfl⟩
  · exact ⟨⟨h.hwver, h.started, h.continuous, hsub⟩, rfl⟩

/-- What is moved is wanted, and there is room for it. -/
theorem aoMoved_le (h : AoGoing p k) (cmd : Cmd) (r : AoReading) :
    (aoMoved p cmd r).toNat ≤ k ∧
      (aoMoved p cmd r).toNat * cmd.chanlistLen.toNat ≤ (aoRoom r.dacstat).toNat := by
  have hnum : (aoNumScans p cmd r).toNat ≤ k := by
    unfold aoNumScans
    dsimp only
    split
    · exact h.left.le
    · next hn =>
      rw [h.continuous, BitVec.lt_def, h.left] at hn
      simp only [Bool.false_eq_true, not_false_eq_true, true_and, not_lt] at hn
      exact hn
  have hroom : (aoRoom r.dacstat / cmd.chanlistLen).toNat * cmd.chanlistLen.toNat ≤
      (aoRoom r.dacstat).toNat := by
    rw [BitVec.toNat_udiv]
    exact Nat.div_mul_le_self _ _
  unfold aoMoved
  dsimp only
  split
  · next hlt =>
    rw [BitVec.lt_def] at hlt
    exact ⟨hlt.le.trans hnum, hroom⟩
  · next hge =>
    rw [BitVec.lt_def, not_lt] at hge
    exact ⟨hnum, (Nat.mul_le_mul_right _ hge).trans hroom⟩

theorem aoFifoEvents_eoa (cmd : Cmd) (r : AoReading) (he : hasEoa (aoFifoEvents p cmd r) = true) :
    p.aoScanCount = 0 := by
  unfold aoFifoEvents at he
  split at he
  · next hz => exact hz.2
  split at he
  · exact absurd he (by decide)
  · exact absurd he (by decide)

theorem hasEoa_zero_or (e : U32) : hasEoa (0 ||| e) = hasEoa e :=
  congrArg hasEoa BitVec.zero_or

/-- An interrupt moves some of the scans that are left, and raises the end of the acquisition only
when there were none. -/
theorem handleAoFifo_spec (h : AoGoing p k) (cmd : Cmd) (r : AoReading)
    (hlen : (channels cmd).length = cmd.chanlistLen.toNat) :
    ∃ m ≤ k, (handleAoFifo p cmd 0 r).2.written = (List.replicate m (channels cmd)).flatten ∧
      (handleAoFifo p cmd 0 r).2.written.length ≤ (aoRoom r.dacstat).toNat ∧
      (hasEoa (handleAoFifo p cmd 0 r).2.raised = true → k = 0) ∧
      (handleAoFifo p cmd 0 r).2.dev.dacen = p.dacen ∧
      ((handleAoFifo p cmd 0 r).1 = false ∧
          (handleAoFifo p cmd 0 r).2.dev.intEn &&& intDac = 0 ∨
        (handleAoFifo p cmd 0 r).1 = true ∧ AoGoing (handleAoFifo p cmd 0 r).2.dev (k - m)) := by
  obtain ⟨hm, hroom⟩ := aoMoved_le h cmd r
  have hwritten : (List.replicate (aoMoved p cmd r).toNat (channels cmd)).flatten.length ≤
      (aoRoom r.dacstat).toNat := by
    rw [List.length_flatten, List.map_replicate, List.sum_replicate_nat, hlen]
    exact hroom
  obtain ⟨hgo, hdacen⟩ := aoCountDown_going h hm
  unfold handleAoFifo
  dsimp only
  split
  · refine ⟨0, Nat.zero_le _, rfl, Nat.zero_le _, fun he => ?_, aoStop_dacen p,
      .inl ⟨rfl, aoStop_int h.hwver h.started⟩⟩
    rw [hasEoa_zero_or] at he
    rw [← h.left, aoFifoEvents_eoa cmd r he]
    rfl
  split
  · refine ⟨_, hm, rfl, hwritten, fun he => ?_, (aoStop_dacen _).trans hdacen,
      .inl ⟨rfl, aoStop_int hgo.hwver hgo.started⟩⟩
    rw [hasEoa_zero_or] at he
    exact absurd he (by decide)
  · refine ⟨_, hm, rfl, hwritten, fun he => ?_, hdacen, .inr ⟨rfl, hgo⟩⟩
    rw [hasEoa_zero_or] at he
    exact absurd he (by decide)

/-- What is true of a command after any interrupts. -/
structure AoInv (cmd : Cmd) (x : AoRun) : Prop where
  scans : ∃ n ≤ cmd.stopArg.toNat, x.written = (List.replicate n (channels cmd)).flatten ∧
    (x.eoa = true → n = cmd.stopArg.toNat) ∧
    (x.dev.intEn &&& intDac = 0 ∨ AoGoing x.dev (cmd.stopArg.toNat - n))
  room : x.last ≤ x.room
  dacen : x.dev.dacen = aoDacen (channels cmd)

theorem channels_length (h : AoAccepted cmd entries) :
    (channels cmd).length = cmd.chanlistLen.toNat := by
  rw [channels, h.chanlist]
  simp only [List.length_map, List.length_take, h.length, Nat.min_self]

theorem aoBegin_inv (h : AoAccepted cmd entries) (hv : 2 ≤ p.hwver) (r : AoReading) :
    AoInv cmd (aoBegin p cmd r) := by
  have hcount : (aoSetUp p cmd).aoScanCount = cmd.stopArg := if_pos h.stopSrc
  have hcont : (aoSetUp p cmd).aoContinuous = false := by
    change decide (cmd.stopSrc ≠ trigCount) = false
    rw [h.stopSrc]
    rfl
  have hdacen : (aoSetUp p cmd).dacen = aoDacen (channels cmd) := if_pos hv
  have hver : 2 ≤ (aoSetUp p cmd).hwver := hv
  unfold aoBegin aoStart
  generalize aoSetUp p cmd = q at hcount hcont hdacen hver
  let q₁ : Private := { q with aoCmdStarted := true }
  have hno : ¬ q.aoContinuous = true := by rw [hcont]; exact Bool.false_ne_true
  have hint : (aoStop q₁).intEn &&& intDac = 0 := aoStop_int hver rfl
  have hgo : AoGoing q₁ cmd.stopArg.toNat := ⟨hver, rfl, hcont, congrArg BitVec.toNat hcount⟩
  by_cases hz : cmd.stopArg = 0
  · have hend : ¬ q.aoContinuous = true ∧ q.aoScanCount = 0 := ⟨hno, by rw [hcount, hz]⟩
    rw [if_pos hend]
    exact ⟨⟨0, Nat.zero_le _, rfl, fun _ => by rw [hz]; rfl, .inl hint⟩, Nat.zero_le _,
      (aoStop_dacen q₁).trans hdacen⟩
  · have hend : ¬ (¬ q.aoContinuous = true ∧ q.aoScanCount = 0) := fun hend => hz (hcount ▸ hend.2)
    rw [if_neg hend, if_pos hver]
    obtain ⟨m, hm, hw, hroom, heoa, hd, hphase⟩ := handleAoFifo_spec hgo cmd r (channels_length h)
    have hh := handleAoFifo_spec hgo cmd r (channels_length h)
    dsimp only
    generalize handleAoFifo q₁ cmd 0 r = y at hh ⊢
    obtain ⟨run, y⟩ := y
    obtain ⟨m, hm, hw, hroom, heoa, hd, ⟨rfl, hint'⟩ | ⟨rfl, hgo'⟩⟩ := hh
    · refine ⟨⟨m, hm, hw, fun he => ?_, .inl hint'⟩, hroom, hd.trans hdacen⟩
      have := heoa he
      omega
    · have hen : aoEnable { y.dev with
            daccon := y.dev.daccon &&& ~~~dacTrigMask ||| aoScantrig cmd } cmd (some y.raised)
            y.written =
          { dev := { y.dev with
              daccon := y.dev.daccon &&& ~~~dacTrigMask ||| aoScantrig cmd
              intEn := y.dev.intEn ||| intDac }
            inttrig := if cmd.scanBeginSrc = RtTimer.trigInt then some aoInttrigScanBegin else none
            events := some y.raised
            written := y.written } := by
        unfold aoEnable
        rw [if_pos hgo'.hwver]
      rw [if_pos rfl, hen]
      refine ⟨⟨m, hm, hw, fun he => ?_, .inr ⟨hgo'.hwver, hgo'.started, hgo'.continuous, hgo'.left⟩⟩,
        hroom, hd.trans hdacen⟩
      have := heoa he
      omega

theorem aoInterrupt_inv (h : AoAccepted cmd entries) (hx : AoInv cmd x) (r : AoReading) :
    AoInv cmd (aoInterrupt cmd x r) := by
  obtain ⟨n, hn, hw, he, hphase⟩ := hx.scans
  unfold aoInterrupt
  split
  · exact hx
  next hint =>
  have hgo := hphase.resolve_left hint
  obtain ⟨m, hm, hw', hroom, heoa, hd, hphase'⟩ := handleAoFifo_spec hgo cmd r (channels_length h)
  refine ⟨⟨n + m, by omega, ?_, fun hor => ?_, ?_⟩, hroom, hd.trans hx.dacen⟩
  · dsimp only
    rw [hw, hw', ← List.flatten_append, List.replicate_append_replicate]
  · rcases Bool.or_eq_true_iff.mp hor with hold | hnew
    · have := he hold
      omega
    · have := heoa hnew
      omega
  · obtain ⟨-, hint'⟩ | ⟨-, hgo'⟩ := hphase'
    · exact .inl hint'
    · rw [Nat.sub_sub] at hgo'
      exact .inr hgo'

/-- After any interrupts. -/
theorem aoRun_inv (h : AoAccepted cmd entries) (hv : 2 ≤ p.hwver) (r : AoReading)
    (rs : List AoReading) : AoInv cmd (aoRun cmd p r rs) := by
  have hrun : ∀ x, AoInv cmd x → AoInv cmd (rs.foldl (aoInterrupt cmd) x) := by
    induction rs with
    | nil => exact fun x hx => hx
    | cons r rs ih => exact fun x hx => ih _ (aoInterrupt_inv h hx r)
  exact hrun _ (aoBegin_inv h hv r)

theorem AoInv.exact (hx : AoInv cmd x) : AoExact cmd x := by
  obtain ⟨n, hn, hw, he, -⟩ := hx.scans
  exact ⟨⟨n, hn, hw, he⟩, hx.room⟩

theorem chan_cases {c : U32} (h : c.toNat < 2) : c = 0 ∨ c = 1 := by
  rcases Nat.lt_succ_iff_lt_or_eq.mp h with hz | ho
  · exact .inl (BitVec.eq_of_toNat_eq (by simpa using hz))
  · exact .inr (BitVec.eq_of_toNat_eq ho)

/-- The channel lists that step 5 lets pass on two channels. -/
def passingChannels : List (List U32) := [[0], [1], [0, 0], [0, 1], [1, 1]]

theorem channels_passing (h : AoAccepted cmd entries) : channels cmd ∈ passingChannels := by
  have hmap : channels cmd = entries.map crChan := by
    rw [channels, h.chanlist]
    dsimp only
    rw [List.take_of_length_le h.length.le]
  have hlen := h.length
  have hbound := h.chanlistLen
  have hchan := h.chans
  have hstep := h.step5
  rw [hmap]
  match entries, hlen, hchan, hstep with
  | [], hlen, _, _ =>
    rw [List.length_nil] at hlen
    omega
  | [a], _, hchan, _ =>
    rcases chan_cases (hchan a (by simp)) with ha | ha <;> simp [ha, passingChannels]
  | [a, b], _, hchan, hstep =>
    simp only [aoChanlistTest, aoStep5, Bool.and_true, Bool.and_eq_true, Bool.not_eq_true',
      decide_eq_false_iff_not] at hstep
    have hle := hstep.1
    rcases chan_cases (hchan a (by simp)) with ha | ha <;>
      rcases chan_cases (hchan b (by simp)) with hb | hb <;>
      simp [ha, hb, passingChannels] at hle ⊢
  | _ :: _ :: _ :: _, hlen, _, _ =>
    simp only [List.length_cons] at hlen
    omega

theorem passing_each : ∀ chans ∈ passingChannels,
    (enabledChannels (aoDacen chans) = chans.length ∧
        ∀ i < 16, (aoDacen chans).getLsbD i = true → (chans.map BitVec.toNat).count i = 1) ↔
      chans.Pairwise (· < ·) := by
  decide

/-- Each enabled channel gets one sample of a scan exactly if no channel is listed twice. -/
theorem oneEach_iff (h : AoAccepted cmd entries) (hx : AoInv cmd x) :
    OneEach cmd x ↔ (channels cmd).Pairwise (· < ·) := by
  rw [← passing_each _ (channels_passing h), channels_length h, ← hx.dacen]
  exact ⟨fun ho => ⟨ho.enabled, ho.each⟩, fun ⟨he, hc⟩ => ⟨he, hc⟩⟩

end Output

/-- Whatever the FIFOs report, input takes exactly the samples that it wants, output moves exactly
whole scans, and each enabled channel gets one sample of a scan if and only if the channels of the
list strictly increase. -/
theorem transfers_exact {ai ao : Cmd} {entries : List U32} (hai : AiAccepted ai)
    (hao : AoAccepted ao entries) (p q : Private) (hv : 2 ≤ q.hwver) (rs : List AiReading)
    (r : AoReading) (qs : List AoReading) :
    AiExact ai (aiRun ai p rs) ∧ AoExact ao (aoRun ao q r qs) ∧
      (OneEach ao (aoRun ao q r qs) ↔ (channels ao).Pairwise (· < ·)) := by
  have hinv := aoRun_inv hao hv r qs
  exact ⟨aiRun_exact hai p rs, hinv.exact, oneEach_iff hao hinv⟩

/-- Triggered input of three scans of two channels. -/
def threeScans : Cmd where
  startSrc := RtTimer.trigNow
  scanBeginSrc := RtTimer.trigFollow
  convertSrc := RtTimer.trigInt
  scanEndSrc := trigCount
  scanEndArg := 2
  stopSrc := trigCount
  stopArg := 3
  chanlist := .kernel [0, 1]
  chanlistLen := 2

/-- Triggered output of one scan. -/
def oneScan (entries : List U32) : Cmd where
  startSrc := RtTimer.trigInt
  scanBeginSrc := RtTimer.trigInt
  convertSrc := RtTimer.trigNow
  scanEndSrc := trigCount
  scanEndArg := .ofNat 32 entries.length
  stopSrc := trigCount
  stopArg := 1
  chanlist := .kernel entries
  chanlistLen := .ofNat 32 entries.length

theorem threeScans_accepted : AiAccepted threeScans := ⟨rfl, by decide, rfl⟩

theorem oneScan_accepted {entries : List U32} (h : entries = [0, 1] ∨ entries = [0, 0]) :
    AoAccepted (oneScan entries) entries := by
  rcases h with rfl | rfl
  · exact ⟨rfl, rfl, by decide, by simp [crChan], rfl, rfl⟩
  · exact ⟨rfl, rfl, by decide, by simp [crChan], rfl, rfl⟩

/-- A reading of a FIFO that is half full, and of an empty one with a full buffer behind it. -/
def halfFull : AiReading := ⟨fun _ => adcFifoHalf, fun _ => 0, fun _ => true⟩

def emptyFifo : AoReading := ⟨dacFifoEmpty, 0, 4096⟩

theorem transfers_exact_both :
    AiExact threeScans (aiRun threeScans {} [halfFull, halfFull]) ∧
      OneEach (oneScan [0, 1]) (aoRun (oneScan [0, 1]) { hwver := 2 } emptyFifo [emptyFifo]) := by
  obtain ⟨hin, -, hout⟩ := transfers_exact threeScans_accepted (oneScan_accepted (.inl rfl)) {}
    { hwver := 2 } (by decide) [halfFull, halfFull] emptyFifo [emptyFifo]
  exact ⟨hin, hout.mpr (by decide)⟩

/-- With one channel listed twice, one channel is enabled and two samples are written for it. -/
theorem same_channel_twice :
    let x := aoRun (oneScan [0, 0]) { hwver := 2 } emptyFifo []
    AoAccepted (oneScan [0, 0]) [0, 0] ∧ x.written = [0, 0] ∧ enabledChannels x.dev.dacen = 1 ∧
      ¬ OneEach (oneScan [0, 0]) x := by
  have hen : enabledChannels (aoRun (oneScan [0, 0]) { hwver := 2 } emptyFifo []).dev.dacen = 1 := by
    decide
  refine ⟨oneScan_accepted (.inr rfl), by decide, hen, fun h => ?_⟩
  have h' := h.enabled
  rw [hen] at h'
  exact absurd h' (by decide)

end Comedi.Pci230Scans
