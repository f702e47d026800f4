import Comedi.PcidasAoWord

namespace Comedi.PcidasAoRuns

open ChanlistCheck Pcidas PcidasAo PcidasAoWord
open FakeWaveform (chanspec)
open PcidasSamples (total other_field pcidas1602)
open Pci230 (trigExt)
open NiTioCmd (trigInt)
open RtTimer (trigNone trigNow trigTimer trigCount)

variable {board : CbPcidasBoard} {cmd : Cmd} {st : Ao} {bits source word : U32}

def Live (st : Ao) : Prop := st.phase = .armed ∨ st.phase = .running

instance (st : Ao) : Decidable (Live st) := inferInstanceAs (Decidable (_ ∨ _))

/-- The interrupts of analog output are not enabled. -/
def Quiet (st : Ao) : Prop :=
  st.adcFifoBits &&& (dahfie ||| daemie) = 0 ∧ st.intAdcfifo &&& outw (dahfie ||| daemie) = 0

/-- An interrupt that has something to do with analog output. -/
def Served (r : AoReading) : Prop := r.status &&& (dahfi ||| daemi) ≠ 0

/-- The FIFO has run empty after the last sample. -/
def Completing (st : Ao) (r : AoReading) : Prop :=
  r.status &&& daemi ≠ 0 ∧ r.csr &&& outw dacEmpty ≠ 0 ∧ ¬ underflow st

/-- The condition on one operation: a command is begun with a number of samples that does not
overflow, and with a control word that has nothing of another one; and the trigger does not come
after the end. -/
def Meets (board : CbPcidasBoard) (st : Ao) : Op → Prop
  | .cmd cmd => st.phase = .idle →
      (cbPcidasAoCmdtest board ⟨st.aoDivisor1, st.aoDivisor2, cmd⟩).1 = 0 →
        Listed cmd ∧ (counts cmd → total cmd < 2 ^ 32) ∧ Clean cmd st.aoControlBits
  | .inttrig _ => st.phase ≠ .ended
  | _ => True

/-- A running command completes by itself. -/
def Completes (st : Ao) : Op → Prop
  | .interrupt r => st.phase = .running ∧ Completing st r
  | _ => False

/-- The runs of operations that meet the condition, and whether no command has completed by itself
in them. -/
inductive Run (board : CbPcidasBoard) : Prop → Ao → Prop
  | start : Run board True {}
  | step {uncompleted : Prop} {st : Ao} {op : Op} : Run board uncompleted st →
      Meets board st op → Run board (uncompleted ∧ ¬ Completes st op) (step board st op)

/-- What every operation that meets the condition preserves. -/
structure Inv (st : Ao) : Prop where
  listed : st.phase = .armed → ∀ e ∈ entries st.cmd, crChan e < 2
  armed : st.phase = .armed → Exact st.cmd (st.aoControlBits ||| started)
  running : st.phase = .running → Exact st.cmd (st.dacCsr.setWidth 32)
  trigger : st.phase = .idle ∨ st.phase = .running → st.inttrig = false
  counted : st.phase ≠ .idle → counts st.cmd →
    st.fifo.length + st.aoCount.toNat = total st.cmd
  ordered : st.phase ≠ .idle → st.fifo ++ st.waiting = st.written
  enabled : st.phase = .running → st.adcFifoBits &&& (dahfie ||| daemie) ≠ 0

theorem csr_field {m : U32} (h : (0xffff : U32) &&& m = m) (x : U32) :
    (outw x).setWidth 32 &&& m = x &&& m := by
  have hlow : (outw x).setWidth 32 = x &&& 0xffff := by
    apply BitVec.eq_of_toNat_eq
    have hx := x.isLt
    unfold outw
    rw [BitVec.toNat_setWidth, BitVec.toNat_setWidth, BitVec.toNat_and]
    have hmask : (0xffff : U32).toNat = 2 ^ 16 - 1 := rfl
    rw [hmask, Nat.and_two_pow_sub_one_eq_mod]
    omega
  rw [hlow, BitVec.and_assoc, h]

theorem exact_outw (hlist : ∀ e ∈ entries cmd, crChan e < 2) (h : Exact cmd word) :
    Exact cmd ((outw word).setWidth 32) := by
  refine ⟨fun c hc => ?_, fun e he => ?_, ?_⟩
  · have hfield : (outw word).setWidth 32 &&& dacChanEn c = word &&& dacChanEn c := by
      rcases chan_cases hc with rfl | rfl <;> exact csr_field (by decide) word
    rw [hfield]
    exact h.enabled c hc
  · have hfield : (outw word).setWidth 32 &&& dacRangeMask (crChan e) =
        word &&& dacRangeMask (crChan e) := by
      rcases chan_cases (hlist e he) with hc | hc <;> rw [hc] <;> exact csr_field (by decide) word
    rw [hfield]
    exact h.range e he
  · have hfield : (outw word).setWidth 32 &&& dacPacerMask = word &&& dacPacerMask :=
      csr_field (by decide) word
    rw [hfield]
    exact h.pacer

section Moves

theorem moved_length (st : Ao) (n : U32) (hcounts : counts st.cmd) :
    (st.waiting.take (if counts st.cmd ∧ st.aoCount < n then st.aoCount else n).toNat).length ≤
      st.aoCount.toNat := by
  refine (List.length_take_le _ _).trans ?_
  split
  · exact le_rfl
  next h => exact Nat.not_lt.mp fun hlt => h ⟨hcounts, hlt⟩

theorem moveSamples_counted (n : U32) (hcounts : counts st.cmd) :
    (moveSamples st n).fifo.length + (moveSamples st n).aoCount.toNat =
      st.fifo.length + st.aoCount.toNat := by
  have hle := moved_length st n hcounts
  have hlt := st.aoCount.isLt
  unfold moveSamples
  dsimp only
  rw [if_pos hcounts, List.length_append]
  generalize (st.waiting.take _).length = moved at hle ⊢
  have hmoved : (BitVec.ofNat 32 moved).toNat = moved := by
    rw [BitVec.toNat_ofNat]
    exact Nat.mod_eq_of_lt (by omega)
  have hsub : (st.aoCount - BitVec.ofNat 32 moved).toNat = st.aoCount.toNat - moved := by
    rw [BitVec.toNat_sub_of_le (by change (BitVec.ofNat 32 moved).toNat ≤ _; omega), hmoved]
  omega

theorem moveSamples_ordered (st : Ao) (n : U32) :
    (moveSamples st n).fifo ++ (moveSamples st n).waiting = st.fifo ++ st.waiting := by
  unfold moveSamples
  dsimp only
  rw [List.append_assoc, List.take_append_drop]

theorem moveSamples_events (n : U32) (h : st.events = 0) :
    (moveSamples st n).events &&& (comediCbEoa ||| comediCbError ||| comediCbOverflow) = 0 := by
  unfold moveSamples
  dsimp only
  rw [h]
  generalize st.waiting.take _ = moved
  split
  · exact (by decide : (0 : U32) &&& (comediCbEoa ||| comediCbError ||| comediCbOverflow) = 0)
  · exact (by decide : (0 ||| comediCbBlock : U32) &&&
      (comediCbEoa ||| comediCbError ||| comediCbOverflow) = 0)

end Moves

section Serving

variable {r : AoReading}

/-- The part of an interrupt before the core notes its events. -/
def serve (board : CbPcidasBoard) (st : Ao) (r : AoReading) : Ao :=
  if r.status &&& daemi ≠ 0 then serveEmpty st r.csr else serveHalf board st

theorem interrupt_served (h : Served r) (st : Ao) :
    interrupt board st r = noteEvents (serve board { st with events := 0 } r) := if_neg h

theorem interrupt_other (h : ¬ Served r) (st : Ao) : interrupt board st r = st :=
  if_pos (not_not.mp h)

/-- What serving an interrupt leaves as it is. -/
structure Kept (st st' : Ao) : Prop where
  cmd : st'.cmd = st.cmd
  phase : st'.phase = st.phase
  inttrig : st'.inttrig = st.inttrig
  written : st'.written = st.written
  counted : counts st.cmd →
    st'.fifo.length + st'.aoCount.toNat = st.fifo.length + st.aoCount.toNat
  ordered : st'.fifo ++ st'.waiting = st.fifo ++ st.waiting

theorem serve_kept (board : CbPcidasBoard) (st : Ao) (r : AoReading) :
    Kept st (serve board st r) := by
  unfold serve
  split
  · unfold serveEmpty
    dsimp only
    split
    · split
      · exact ⟨rfl, rfl, rfl, rfl, fun _ => rfl, rfl⟩
      · exact ⟨rfl, rfl, rfl, rfl, fun _ => rfl, rfl⟩
    · exact ⟨rfl, rfl, rfl, rfl, fun _ => rfl, rfl⟩
  · unfold serveHalf
    exact ⟨rfl, rfl, rfl, rfl, moveSamples_counted _, moveSamples_ordered st _⟩

/-- Serving an interrupt leaves the enabled interrupts and the control word alone. -/
structure Steady (st st' : Ao) : Prop where
  bits : st'.aoControlBits = st.aoControlBits
  csr : st'.dacCsr = st.dacCsr
  fifoBits : st'.adcFifoBits = st.adcFifoBits
  enabled : st'.intAdcfifo &&& outw (dahfie ||| daemie) =
    outw st.adcFifoBits &&& outw (dahfie ||| daemie)

theorem cleared_enables (x : U32) :
    x &&& (~~~dahfie &&& ~~~daemie) &&& (dahfie ||| daemie) = 0 :=
  other_field (by decide)

theorem outw_and (x y : U32) : outw x &&& outw y = outw (x &&& y) := by
  unfold outw
  rw [BitVec.setWidth_and]

theorem quiet_of_bits (h : st.adcFifoBits &&& (dahfie ||| daemie) = 0)
    (h' : st.intAdcfifo &&& outw (dahfie ||| daemie) =
      outw st.adcFifoBits &&& outw (dahfie ||| daemie)) : Quiet st := by
  refine ⟨h, ?_⟩
  rw [h', outw_and, h]
  rfl

theorem or_latch {latch : U16} (h : latch &&& outw (dahfie ||| daemie) = 0) (x : U16) :
    (x ||| latch) &&& outw (dahfie ||| daemie) = x &&& outw (dahfie ||| daemie) := by
  rw [BitVec.and_or_distrib_right, h]
  exact BitVec.or_zero

theorem quiet_aoCancel (st : Ao) : Quiet (aoCancel st) :=
  quiet_of_bits (cleared_enables _) rfl

theorem serveEmpty_underflow {csr : U16} (hcsr : csr &&& outw dacEmpty ≠ 0) (h : underflow st) :
    serveEmpty st csr = { aoCancel { st with intAdcfifo := outw st.adcFifoBits ||| daemi } with
      events := st.events ||| comediCbError ||| comediCbEoa } := by
  have hunder : underflow { st with intAdcfifo := outw st.adcFifoBits ||| daemi } := h
  unfold serveEmpty
  dsimp only
  rw [if_pos hcsr, if_pos hunder]
  rfl

theorem serveEmpty_done {csr : U16} (hcsr : csr &&& outw dacEmpty ≠ 0) (h : ¬ underflow st) :
    serveEmpty st csr = { st with
      intAdcfifo := outw st.adcFifoBits ||| daemi
      events := st.events ||| comediCbEoa } := by
  have hunder : ¬ underflow { st with intAdcfifo := outw st.adcFifoBits ||| daemi } := h
  unfold serveEmpty
  dsimp only
  rw [if_pos hcsr, if_neg hunder]

theorem serveEmpty_filled {csr : U16} (hcsr : ¬ csr &&& outw dacEmpty ≠ 0) :
    serveEmpty st csr = { st with intAdcfifo := outw st.adcFifoBits ||| daemi } := if_neg hcsr

/-- An interrupt has nothing to report, or it finds the command complete, or samples missing. -/
theorem serve_cases (board : CbPcidasBoard) (r : AoReading) (h : st.events = 0) :
    (Steady st (serve board st r) ∧ (serve board st r).events &&&
        (comediCbEoa ||| comediCbError ||| comediCbOverflow) = 0) ∨
      (Steady st (serve board st r) ∧ Completing st r ∧
        (serve board st r).events = comediCbEoa) ∨
      (Quiet (serve board st r) ∧ underflow st ∧
        (serve board st r).events = comediCbError ||| comediCbEoa) := by
  have hzero : ∀ v : U32, 0 ||| v = v := fun _ => BitVec.zero_or
  unfold serve
  split
  next hempty =>
    by_cases hcsr : r.csr &&& outw dacEmpty ≠ 0
    · by_cases hunder : underflow st
      · rw [serveEmpty_underflow hcsr hunder, h, hzero]
        exact .inr (.inr ⟨quiet_aoCancel _, hunder, rfl⟩)
      · rw [serveEmpty_done hcsr hunder, h, hzero]
        exact .inr (.inl ⟨⟨rfl, rfl, rfl, or_latch (by decide) _⟩, ⟨hempty, hcsr, hunder⟩, rfl⟩)
    · rw [serveEmpty_filled hcsr, h]
      exact .inl ⟨⟨rfl, rfl, rfl, or_latch (by decide) _⟩, by decide⟩
  · left
    exact ⟨⟨rfl, rfl, rfl, or_latch (by decide) _⟩, moveSamples_events _ h⟩

end Serving

section Steps

variable {r : AoReading}

theorem Quiet.steady {st' : Ao} (h : Quiet st) (hsteady : Steady st st') : Quiet st' := by
  refine quiet_of_bits (hsteady.fifoBits ▸ h.1) ?_
  rw [hsteady.fifoBits]
  exact hsteady.enabled

theorem noteEvents_quiet (h : st.events &&&
    (comediCbEoa ||| comediCbError ||| comediCbOverflow) = 0) : noteEvents st = st :=
  if_neg fun hboth => hboth.2 h

theorem noteEvents_ended (hlive : Live st)
    (h : st.events &&& (comediCbEoa ||| comediCbError ||| comediCbOverflow) ≠ 0) :
    noteEvents st = { st with phase := .ended } := if_pos ⟨hlive, h⟩

theorem noteEvents_other (hlive : ¬ Live st) : noteEvents st = st :=
  if_neg fun hboth => hlive hboth.1

/-- The samples are kept, whatever becomes of the command. -/
theorem Inv.of_kept {st' : Ao} (h : Inv st) (hkept : Kept st st') (hphase : st.phase ≠ .idle) :
    Inv { st' with phase := .ended } := by
  refine ⟨nofun, nofun, nofun, nofun, fun _ hcounts => ?_, fun _ => ?_, nofun⟩
  · change counts st'.cmd at hcounts
    change st'.fifo.length + st'.aoCount.toNat = total st'.cmd
    rw [hkept.cmd] at hcounts ⊢
    exact (hkept.counted hcounts).trans (h.counted hphase hcounts)
  · change st'.fifo ++ st'.waiting = st'.written
    rw [hkept.ordered, hkept.written]
    exact h.ordered hphase

theorem Inv.of_steady {st' : Ao} (h : Inv st) (hkept : Kept st st') (hsteady : Steady st st') :
    Inv st' := by
  obtain ⟨hcmd, hphase, hinttrig, hwritten, hcounted, hordered⟩ := hkept
  refine ⟨?_, ?_, ?_, ?_, ?_, ?_, ?_⟩
  · rw [hphase, hcmd]
    exact h.listed
  · rw [hphase, hcmd, hsteady.bits]
    exact h.armed
  · rw [hphase, hcmd, hsteady.csr]
    exact h.running
  · rw [hphase, hinttrig]
    exact h.trigger
  · rw [hphase, hcmd]
    exact fun hidle hcounts => (hcounted hcounts).trans (h.counted hidle hcounts)
  · rw [hphase, hordered, hwritten]
    exact h.ordered
  · rw [hphase, hsteady.fifoBits]
    exact h.enabled

theorem inv_clear (h : Inv st) : Inv { st with events := 0 } :=
  ⟨h.listed, h.armed, h.running, h.trigger, h.counted, h.ordered, h.enabled⟩

theorem live_cases (st : Ao) : Live st ∨ st.phase = .idle ∨ st.phase = .ended := by
  unfold Live
  cases st.phase <;> decide

/-- The states after an interrupt that is cancelled by an underflow in a command that is over. -/
theorem Inv.of_over {st' : Ao} (h : Inv st) (hkept : Kept st st') (hover : ¬ Live st) :
    Inv st' := by
  obtain ⟨hcmd, hphase, hinttrig, hwritten, hcounted, hordered⟩ := hkept
  refine ⟨?_, ?_, ?_, ?_, ?_, ?_, ?_⟩
  · rw [hphase]
    exact fun harmed => absurd (.inl harmed) hover
  · rw [hphase]
    exact fun harmed => absurd (.inl harmed) hover
  · rw [hphase]
    exact fun hrunning => absurd (.inr hrunning) hover
  · rw [hphase, hinttrig]
    exact h.trigger
  · rw [hphase, hcmd]
    exact fun hidle hcounts => (hcounted hcounts).trans (h.counted hidle hcounts)
  · rw [hphase, hordered, hwritten]
    exact h.ordered
  · rw [hphase]
    exact fun hrunning => absurd (.inr hrunning) hover

theorem Live.not_idle (h : Live st) : st.phase ≠ .idle := by
  rcases h with h | h <;> rw [h] <;> decide

theorem inv_interrupt (h : Inv st) : Inv (interrupt board st r) := by
  by_cases hserved : Served r
  · rw [interrupt_served hserved]
    have hclear := inv_clear h
    have hkept := serve_kept board { st with events := 0 } r
    have hphase := hkept.phase
    generalize hst' : serve board { st with events := 0 } r = st' at hkept hphase ⊢
    have hlive' : Live st' ↔ Live st := by
      unfold Live
      rw [hphase]
    rcases serve_cases board r (rfl : ({ st with events := 0 } : Ao).events = 0) with
      ⟨hsteady, hevents⟩ | ⟨hsteady, -, hevents⟩ | ⟨-, -, hevents⟩
    · rw [hst'] at hsteady hevents
      rw [noteEvents_quiet hevents]
      exact hclear.of_steady hkept hsteady
    · rw [hst'] at hsteady hevents
      by_cases hlive : Live st
      · rw [noteEvents_ended (hlive'.mpr hlive) (by rw [hevents]; decide)]
        exact hclear.of_kept hkept hlive.not_idle
      · rw [noteEvents_other (mt hlive'.mp hlive)]
        exact hclear.of_steady hkept hsteady
    · rw [hst'] at hevents
      by_cases hlive : Live st
      · rw [noteEvents_ended (hlive'.mpr hlive) (by rw [hevents]; decide)]
        exact hclear.of_kept hkept hlive.not_idle
      · rw [noteEvents_other (mt hlive'.mp hlive)]
        exact hclear.of_over hkept hlive
  · rw [interrupt_other hserved]
    exact h

theorem inv_insnWrite (h : Inv st) (n : Nat) (chanspec : U32) (data : U16) :
    Inv (insnWrite st n chanspec data) := by
  unfold insnWrite
  by_cases hidle : st.phase = .idle
  · rw [if_pos hidle]
    unfold fifoWinsn
    by_cases hn : n = 0
    · rwa [if_pos hn]
    · have hother : ∀ phase : Phase, phase ≠ .idle → st.phase ≠ phase :=
        fun phase hne hphase => hne (hphase.symm.trans hidle)
      rw [if_neg hn]
      exact ⟨fun hphase => absurd hphase (hother _ (by decide)),
        fun hphase => absurd hphase (hother _ (by decide)),
        fun hphase => absurd hphase (hother _ (by decide)), h.trigger,
        fun hphase => absurd hidle hphase, fun hphase => absurd hidle hphase,
        fun hphase => absurd hphase (hother _ (by decide))⟩
  · rwa [if_neg hidle]

theorem inv_write (h : Inv st) (samples : List U16) : Inv (write st samples) := by
  unfold write
  by_cases hidle : st.phase = .idle
  · rwa [if_pos hidle]
  · rw [if_neg hidle]
    refine ⟨h.listed, h.armed, h.running, h.trigger, h.counted, fun hphase => ?_, h.enabled⟩
    dsimp only
    rw [← List.append_assoc, h.ordered hphase]

theorem inv_nonbusy (st : Ao) : Inv (becomeNonbusy st) :=
  ⟨nofun, nofun, nofun, fun _ => rfl, fun hidle => absurd rfl hidle,
    fun hidle => absurd rfl hidle, nofun⟩

theorem inv_doCancel (h : Inv st) : Inv (doCancel st) := by
  unfold doCancel
  split
  · exact h
  · exact inv_nonbusy _
  · exact inv_nonbusy _
  · exact inv_nonbusy _

theorem enables_ne_zero (x : U32) : (x ||| (daemie ||| dahfie)) &&& (dahfie ||| daemie) ≠ 0 := by
  rw [BitVec.and_or_distrib_right]
  intro h
  exact absurd (BitVec.or_eq_zero_iff.mp h).2 (by decide)

theorem Inv.armed_of_trigger (h : Inv st) (hmeets : st.phase ≠ .ended)
    (htrig : st.inttrig ≠ false) : st.phase = .armed := by
  have hnot : ¬ (st.phase = .idle ∨ st.phase = .running) := fun hphase => htrig (h.trigger hphase)
  rcases live_cases st with (hphase | hphase) | hphase | hphase
  · exact hphase
  · exact absurd (.inr hphase) hnot
  · exact absurd (.inl hphase) hnot
  · exact absurd hphase hmeets

theorem inv_inttrig (h : Inv st) (hmeets : st.phase ≠ .ended) (trigNum : U32) :
    Inv (aoInttrig board st trigNum) := by
  unfold aoInttrig
  by_cases hrefused : st.inttrig = false ∨ trigNum ≠ 0
  · rwa [if_pos hrefused]
  · rw [if_neg hrefused]
    have harmed := h.armed_of_trigger hmeets fun hfalse => hrefused (.inl hfalse)
    have hidle : st.phase ≠ .idle := by
      rw [harmed]
      decide
    dsimp only
    rw [if_pos harmed]
    refine ⟨nofun, nofun, fun _ => ?_, fun _ => rfl, fun _ hcounts => ?_, fun _ => ?_, ?_⟩
    · exact exact_outw (h.listed harmed) (h.armed harmed)
    · change counts st.cmd at hcounts
      change (moveSamples st board.fifoSize).fifo.length +
        (moveSamples st board.fifoSize).aoCount.toNat = total st.cmd
      exact (moveSamples_counted _ hcounts).trans (h.counted hidle hcounts)
    · exact (moveSamples_ordered st _).trans (h.ordered hidle)
    · exact fun _ => enables_ne_zero _

theorem aoCmd_armed {source : U32} (h : pacer st.cmd = some source) :
    aoCmd st = { loadCounters { st with
        aoControlBits := (entries st.cmd).foldl enable st.aoControlBits
        dacCsr := outw ((entries st.cmd).foldl enable st.aoControlBits)
        fifo := [] } with
      aoCount := (if counts st.cmd then st.cmd.chanlistLen * st.cmd.stopArg else st.aoCount)
      aoControlBits := (entries st.cmd).foldl enable st.aoControlBits ||| source
      phase := .armed
      inttrig := true } := by
  unfold aoCmd loadCounters
  dsimp only
  by_cases htimer : st.cmd.scanBeginSrc = trigTimer
  · rw [if_pos htimer]
    dsimp only
    have hpacer : pacer { st.cmd with scanBeginArg := (I8253.cascadeNsToTimer2div timerBase
        ⟨st.aoDivisor1, st.aoDivisor2, st.cmd.scanBeginArg⟩ st.cmd.flags).nanosec } = some source :=
      h
    rw [hpacer]
    rfl
  · rw [if_neg htimer]
    dsimp only
    rw [h]

/-- A command differs from another one only in the period of its scans. -/
theorem loadCounters_cmd (st : Ao) :
    ∃ d1 d2 period, loadCounters st = { st with
      aoDivisor1 := d1
      aoDivisor2 := d2
      cmd := { st.cmd with scanBeginArg := period } } := by
  unfold loadCounters
  split
  · exact ⟨_, _, _, rfl⟩
  · exact ⟨st.aoDivisor1, st.aoDivisor2, st.cmd.scanBeginArg, rfl⟩

theorem inv_aoCmd (hfresh : st.written = [] ∧ st.waiting = [])
    (haccepted : Accepted st.cmd) (hlist : Listed st.cmd)
    (htotal : counts st.cmd → total st.cmd < 2 ^ 32) (hclean : Clean st.cmd st.aoControlBits) :
    Inv (aoCmd st) := by
  obtain ⟨source, hsource⟩ := haccepted.pacer
  have hexact := exact_of_clean hlist haccepted.chanlist hsource hclean
  have hchan : ∀ e ∈ entries st.cmd, crChan e < 2 := by
    intro e he
    obtain ⟨i, hi, rfl⟩ := List.mem_map.mp he
    exact hlist.chan i (List.mem_range.mp hi)
  have hbits : (entries st.cmd).foldl enable st.aoControlBits =
      st.aoControlBits ||| wanted st.cmd := foldl_enable _ _
  rw [aoCmd_armed hsource]
  obtain ⟨d1, d2, period, hload⟩ := loadCounters_cmd { st with
    aoControlBits := (entries st.cmd).foldl enable st.aoControlBits
    dacCsr := outw ((entries st.cmd).foldl enable st.aoControlBits)
    fifo := [] }
  rw [hload, hbits]
  refine ⟨fun _ => hchan, fun _ => ?_, nofun, ?_, fun _ hcounts => ?_, fun _ => ?_, nofun⟩
  · obtain ⟨henabled, hrange, hpacer⟩ := hexact
    exact ⟨henabled, hrange, hpacer⟩
  · rintro (hphase | hphase)
    · exact nomatch hphase
    · exact nomatch hphase
  · change counts st.cmd at hcounts
    change 0 + (if counts st.cmd then st.cmd.chanlistLen * st.cmd.stopArg
      else st.aoCount).toNat = total st.cmd
    rw [if_pos hcounts, BitVec.toNat_mul, Nat.zero_add]
    exact Nat.mod_eq_of_lt (htotal hcounts)
  · change [] ++ st.waiting = st.written
    rw [hfresh.1, hfresh.2]
    rfl

theorem inv_doCmd (h : Inv st) {cmd : Cmd} (hmeets : Meets board st (.cmd cmd)) :
    Inv (doCmd board st cmd) := by
  unfold doCmd
  by_cases hbusy : st.phase ≠ .idle
  · rwa [if_pos hbusy]
  rw [if_neg hbusy]
  have hidle : st.phase = .idle := not_not.mp hbusy
  have hother : ∀ phase : Phase, phase ≠ .idle → st.phase ≠ phase :=
    fun phase hne hphase => hne (hphase.symm.trans hidle)
  dsimp only
  split
  · exact ⟨fun hphase => absurd hphase (hother _ (by decide)),
      fun hphase => absurd hphase (hother _ (by decide)),
      fun hphase => absurd hphase (hother _ (by decide)), h.trigger,
      fun hphase => absurd hidle hphase, fun hphase => absurd hidle hphase,
      fun hphase => absurd hphase (hother _ (by decide))⟩
  next hpassed =>
    have hret : (cbPcidasAoCmdtest board ⟨st.aoDivisor1, st.aoDivisor2, cmd⟩).1 = 0 := by
      by_contra hne
      exact hpassed (.inr hne)
    obtain ⟨hkept, haccepted⟩ := accepted_of_test hret
    obtain ⟨hlist, htotal, hclean⟩ := hmeets hidle hret
    rw [hkept]
    exact inv_aoCmd ⟨rfl, rfl⟩ haccepted hlist htotal hclean

theorem inv_step {op : Op} (h : Inv st) (hmeets : Meets board st op) : Inv (step board st op) := by
  cases op with
  | insnWrite n chanspec data => exact inv_insnWrite h n chanspec data
  | cmd cmd => exact inv_doCmd h hmeets
  | write samples => exact inv_write h samples
  | inttrig trigNum => exact inv_inttrig h hmeets trigNum
  | interrupt r => exact inv_interrupt h
  | cancel => exact inv_doCancel h

theorem Run.inv {uncompleted : Prop} (h : Run board uncompleted st) : Inv st := by
  induction h with
  | start =>
    exact ⟨nofun, nofun, nofun, fun _ => rfl, fun hidle => absurd rfl hidle,
      fun hidle => absurd rfl hidle, nofun⟩
  | step _ hmeets ih => exact inv_step ih hmeets

end Steps

section Quietness

variable {r : AoReading} {uncompleted : Prop}

/-- Quietness is a matter of two words. -/
theorem Quiet.of_words {st' : Ao} (h : Quiet st) (hbits : st'.adcFifoBits = st.adcFifoBits)
    (hword : st'.intAdcfifo = st.intAdcfifo) : Quiet st' := by
  unfold Quiet
  rw [hbits, hword]
  exact h

theorem loadCounters_words (st : Ao) : (loadCounters st).adcFifoBits = st.adcFifoBits ∧
    (loadCounters st).intAdcfifo = st.intAdcfifo := by
  obtain ⟨d1, d2, period, hload⟩ := loadCounters_cmd st
  rw [hload]
  exact ⟨rfl, rfl⟩

theorem aoCmd_words (st : Ao) : (aoCmd st).adcFifoBits = st.adcFifoBits ∧
    (aoCmd st).intAdcfifo = st.intAdcfifo := by
  have hload := loadCounters_words { st with
    aoControlBits := (entries st.cmd).foldl enable st.aoControlBits
    dacCsr := outw ((entries st.cmd).foldl enable st.aoControlBits)
    fifo := [] }
  unfold aoCmd
  dsimp only
  split
  · exact hload
  · exact hload

theorem doCmd_words (st : Ao) (cmd : Cmd) : (doCmd board st cmd).adcFifoBits = st.adcFifoBits ∧
    (doCmd board st cmd).intAdcfifo = st.intAdcfifo := by
  unfold doCmd
  dsimp only
  split
  · exact ⟨rfl, rfl⟩
  split
  · exact ⟨rfl, rfl⟩
  · exact aoCmd_words _

theorem insnWrite_words (st : Ao) (n : Nat) (chanspec : U32) (data : U16) :
    (insnWrite st n chanspec data).adcFifoBits = st.adcFifoBits ∧
      (insnWrite st n chanspec data).intAdcfifo = st.intAdcfifo ∧
      (insnWrite st n chanspec data).phase = st.phase := by
  unfold insnWrite
  split
  · unfold fifoWinsn
    split
    · exact ⟨rfl, rfl, rfl⟩
    · exact ⟨rfl, rfl, rfl⟩
  · exact ⟨rfl, rfl, rfl⟩

theorem write_words (st : Ao) (samples : List U16) :
    (write st samples).adcFifoBits = st.adcFifoBits ∧
      (write st samples).intAdcfifo = st.intAdcfifo ∧ (write st samples).phase = st.phase := by
  unfold write
  split
  · exact ⟨rfl, rfl, rfl⟩
  · exact ⟨rfl, rfl, rfl⟩

theorem quiet_interrupt (hquiet : st.phase ≠ .running → Quiet st)
    (hno : ¬ (st.phase = .running ∧ Completing st r))
    (hphase : (interrupt board st r).phase ≠ .running) : Quiet (interrupt board st r) := by
  by_cases hserved : Served r
  · rw [interrupt_served hserved] at hphase ⊢
    have hkept := (serve_kept board { st with events := 0 } r).phase
    have hcases := serve_cases board r (rfl : ({ st with events := 0 } : Ao).events = 0)
    generalize serve board { st with events := 0 } r = st' at hkept hcases hphase ⊢
    have hnoted : ∀ st : Ao, Quiet st → Quiet (noteEvents st) := by
      intro st h
      unfold noteEvents
      split
      · exact h
      · exact h
    rcases hcases with ⟨hsteady, hevents⟩ | ⟨hsteady, hcompleting, -⟩ | ⟨hstopped, -, -⟩
    · rw [noteEvents_quiet hevents, hkept] at hphase
      have hbefore : Quiet { st with events := 0 } := hquiet hphase
      exact hnoted st' (hbefore.steady hsteady)
    · have hbefore : Quiet { st with events := 0 } := hquiet fun hrunning =>
        hno ⟨hrunning, hcompleting⟩
      exact hnoted st' (hbefore.steady hsteady)
    · exact hnoted st' hstopped
  · rw [interrupt_other hserved] at hphase ⊢
    exact hquiet hphase

theorem quiet_inttrig (h : Inv st) (hquiet : st.phase ≠ .running → Quiet st)
    (hmeets : st.phase ≠ .ended) (trigNum : U32)
    (hphase : (aoInttrig board st trigNum).phase ≠ .running) :
    Quiet (aoInttrig board st trigNum) := by
  by_cases hrefused : st.inttrig = false ∨ trigNum ≠ 0
  · have hsame : aoInttrig board st trigNum = st := if_pos hrefused
    rw [hsame] at hphase ⊢
    exact hquiet hphase
  · have harmed := h.armed_of_trigger hmeets fun hfalse => hrefused (.inl hfalse)
    unfold aoInttrig at hphase
    dsimp only at hphase
    rw [if_neg hrefused, if_pos harmed] at hphase
    exact absurd rfl hphase

theorem quiet_doCancel (hquiet : st.phase ≠ .running → Quiet st) : Quiet (doCancel st) := by
  unfold doCancel
  split
  next hidle => exact hquiet (by rw [hidle]; decide)
  · exact (quiet_aoCancel st).of_words rfl rfl
  · exact (quiet_aoCancel st).of_words rfl rfl
  next hended =>
    have h := hquiet (by rw [hended]; decide)
    exact h.of_words rfl rfl

theorem quiet_step {op : Op} (h : Inv st) (hquiet : st.phase ≠ .running → Quiet st)
    (hmeets : Meets board st op) (hno : ¬ Completes st op)
    (hphase : (step board st op).phase ≠ .running) : Quiet (step board st op) := by
  cases op with
  | insnWrite n chanspec data =>
    obtain ⟨hbits, hword, hsame⟩ := insnWrite_words st n chanspec data
    change (insnWrite st n chanspec data).phase ≠ .running at hphase
    rw [hsame] at hphase
    exact (hquiet hphase).of_words hbits hword
  | cmd cmd =>
    obtain ⟨hbits, hword⟩ := @doCmd_words board st cmd
    have hbefore : st.phase ≠ .running := by
      intro hrunning
      have hsame : doCmd board st cmd = st := if_pos (by rw [hrunning]; decide)
      change (doCmd board st cmd).phase ≠ .running at hphase
      rw [hsame] at hphase
      exact hphase hrunning
    exact (hquiet hbefore).of_words hbits hword
  | write samples =>
    obtain ⟨hbits, hword, hsame⟩ := write_words st samples
    change (write st samples).phase ≠ .running at hphase
    rw [hsame] at hphase
    exact (hquiet hphase).of_words hbits hword
  | inttrig trigNum => exact quiet_inttrig h hquiet hmeets trigNum hphase
  | interrupt r => exact quiet_interrupt hquiet hno hphase
  | cancel => exact quiet_doCancel hquiet

theorem Run.quiet (h : Run board uncompleted st) :
    uncompleted → st.phase ≠ .running → Quiet st := by
  induction h with
  | start => exact fun _ _ => ⟨by decide, by decide⟩
  | step hrun hmeets ih =>
    exact fun hno => quiet_step hrun.inv (ih hno.1) hmeets hno.2

end Quietness

section Ends

variable {r : AoReading} {uncompleted : Prop}

theorem interrupt_events (h : Served r) : (interrupt board st r).events =
    (serve board { st with events := 0 } r).events := by
  rw [interrupt_served h]
  unfold noteEvents
  split
  · rfl
  · rfl

theorem interrupt_error (hinv : Inv st) (hlive : Live st) (h : Served r)
    (herror : (interrupt board st r).events &&& comediCbError ≠ 0) :
    st.cmd.stopSrc = trigNone ∨ counts st.cmd ∧ st.fifo.length < total st.cmd := by
  rw [interrupt_events h] at herror
  rcases serve_cases board r (rfl : ({ st with events := 0 } : Ao).events = 0) with
    ⟨-, hevents⟩ | ⟨-, -, hevents⟩ | ⟨-, hunder, -⟩
  · refine absurd ?_ herror
    have hmask : comediCbError =
        (comediCbEoa ||| comediCbError ||| comediCbOverflow) &&& comediCbError := by decide
    rw [hmask, ← BitVec.and_assoc, hevents]
    exact BitVec.zero_and
  · rw [hevents] at herror
    exact absurd (by decide) herror
  · rcases hunder with hnone | ⟨hcounts, hleft⟩
    · exact .inl hnone
    · have hcounted := hinv.counted hlive.not_idle hcounts
      have hpos : st.aoCount.toNat ≠ 0 := fun hzero => hleft (BitVec.eq_of_toNat_eq hzero)
      exact .inr ⟨hcounts, by omega⟩

theorem interrupt_completing (h : Completing st r) :
    (interrupt board st r).fifo = st.fifo ∧
      (interrupt board st r).adcFifoBits = st.adcFifoBits := by
  obtain ⟨hempty, hcsr, hunder⟩ := h
  have hserved : Served r := by
    intro hnone
    have hmask : daemi = (dahfi ||| daemi) &&& daemi := by decide
    apply hempty
    rw [hmask, ← BitVec.and_assoc, hnone]
    exact BitVec.zero_and
  have hserve : serve board { st with events := 0 } r = serveEmpty { st with events := 0 } r.csr :=
    if_pos hempty
  have hbefore : ¬ underflow { st with events := 0 } := hunder
  rw [interrupt_served hserved, hserve, serveEmpty_done hcsr hbefore]
  unfold noteEvents
  split
  · exact ⟨rfl, rfl⟩
  · exact ⟨rfl, rfl⟩

theorem interrupt_complete (hinv : Inv st) (hlive : Live st) (h : Served r)
    (heoa : (interrupt board st r).events &&& comediCbEoa ≠ 0)
    (hok : (interrupt board st r).events &&& comediCbError = 0) (hcounts : counts st.cmd) :
    st.fifo.length = total st.cmd ∧ (interrupt board st r).fifo = st.fifo := by
  rw [interrupt_events h] at heoa hok
  rcases serve_cases board r (rfl : ({ st with events := 0 } : Ao).events = 0) with
    ⟨-, hevents⟩ | ⟨-, ⟨hempty, hcsr, hunder⟩, -⟩ | ⟨-, -, hevents⟩
  · refine absurd ?_ heoa
    have hmask : comediCbEoa =
        (comediCbEoa ||| comediCbError ||| comediCbOverflow) &&& comediCbEoa := by decide
    rw [hmask, ← BitVec.and_assoc, hevents]
    exact BitVec.zero_and
  · have hzero : st.aoCount = 0 := by
      by_contra hne
      exact hunder (.inr ⟨hcounts, hne⟩)
    have hcounted := hinv.counted hlive.not_idle hcounts
    rw [hzero] at hcounted
    exact ⟨hcounted, (@interrupt_completing board st r ⟨hempty, hcsr, hunder⟩).1⟩
  · rw [hevents] at hok
    exact absurd hok (by decide)

/-- A command that completes by itself leaves its interrupts enabled. -/
theorem not_quiet_of_completes (hinv : Inv st) (h : st.phase = .running ∧ Completing st r) :
    ¬ Quiet (interrupt board st r) := by
  obtain ⟨hrunning, hempty, hcsr, hunder⟩ := h
  have hkept := (@interrupt_completing board st r ⟨hempty, hcsr, hunder⟩).2
  intro hquiet
  have hzero := hquiet.1
  rw [hkept] at hzero
  exact hinv.enabled hrunning hzero

end Ends

section Drives

variable {uncompleted : Prop}

/-- Two scans of a list of channels on external pulses. -/
def twoScans (chanlist : List U32) : Cmd :=
  { startSrc := trigInt, scanBeginSrc := trigExt, convertSrc := trigNow, scanEndSrc := trigCount,
    scanEndArg := BitVec.ofNat 32 chanlist.length, stopSrc := trigCount, stopArg := 2,
    chanlist := .kernel chanlist, chanlistLen := BitVec.ofNat 32 chanlist.length }

/-- A command is begun, gets its samples, and is triggered. -/
def begun (st : Ao) (cmd : Cmd) (samples : List U16) : Ao :=
  step pcidas1602 (step pcidas1602 (step pcidas1602 st (.cmd cmd)) (.write samples)) (.inttrig 0)

theorem listed_both : Listed (twoScans [0, 1]) where
  some := Chanlist.noConfusion
  pos := (by decide : 0 < (2 : U32).toNat)
  le := (by decide : (2 : U32).toNat ≤ 2)
  chan i hi := by
    have hcases : i = 0 ∨ i = 1 := by
      change i < 2 at hi
      omega
    rcases hcases with rfl | rfl <;> decide

theorem clean_zero (cmd : Cmd) : Clean cmd 0 := by
  have hzero : ∀ v : U32, 0 &&& v = 0 := fun _ => BitVec.zero_and
  refine ⟨fun c _ h => absurd (hzero _) h, fun e _ => ?_, fun source _ => ?_⟩
  · rw [hzero, hzero]
  · rw [hzero, hzero]

end Drives

end Comedi.PcidasAoRuns
