import Comedi.Pci224Output
import Mathlib.Data.Finset.Card

namespace Comedi.Pci224OutputRuns

open ChanlistCheck Pci224Output
open FakeWaveform (chanspec)
open Pci224Cmdtest (Accepted pci224AoCmdtest)
open Pci230 (trigExt)
open Pcidas (counts U16)
open RtTimer (trigInt)

section Order

variable {cmd : Cmd} {i j c b n : Nat} {f : Nat → Nat} {rest vals : List U16} {order : Nat → Nat}

/-- Different channels of the board. -/
structure Listed (cmd : Cmd) : Prop where
  pos : 0 < scanLen cmd
  chan_lt : ∀ i < scanLen cmd, chanOf cmd i < 16
  distinct : ∀ i < scanLen cmd, ∀ j < scanLen cmd, chanOf cmd i = chanOf cmd j → i = j

/-- Counting the values of an injection is counting its arguments. -/
theorem count_image {p : Nat → Prop} [DecidablePred p] (hp : ∀ c < b, p c ↔ ∃ i < n, f i = c)
    (hf : ∀ i < n, ∀ j < n, f i = f j → i = j) :
    Nat.count p b = Nat.count (fun i => f i < b) n := by
  rw [Nat.count_eq_card_filter_range, Nat.count_eq_card_filter_range]
  have himage : (Finset.range b).filter p =
      ((Finset.range n).filter fun i => f i < b).image f := by
    ext c
    simp only [Finset.mem_filter, Finset.mem_range, Finset.mem_image]
    constructor
    · rintro ⟨hc, hpc⟩
      obtain ⟨i, hi, rfl⟩ := (hp c hc).mp hpc
      exact ⟨i, ⟨hi, hc⟩, rfl⟩
    · rintro ⟨i, ⟨hi, hlt⟩, rfl⟩
      exact ⟨hlt, (hp _ hlt).mpr ⟨i, hi, rfl⟩⟩
  rw [himage]
  refine Finset.card_image_of_injOn fun i hi j hj heq => ?_
  rw [Finset.mem_coe, Finset.mem_filter, Finset.mem_range] at hi hj
  exact hf i hi.1 j hj.1 heq

theorem aoEnab_bit (hc : c < 16) :
    (aoEnab cmd).getLsbD c = true ↔ ∃ i < scanLen cmd, chanOf cmd i = c := by
  have hset : ∀ (v : U16) i, (v ||| (1 : U16) <<< chanOf cmd i).getLsbD c = true ↔
      v.getLsbD c = true ∨ chanOf cmd i = c := by
    intro v i
    rw [BitVec.getLsbD_or, Bool.or_eq_true]
    refine or_congr_right ?_
    rw [show (1 : U16) = 1#16 from rfl, BitFlags.one_shiftLeft_bit hc, decide_eq_true_eq]
    exact eq_comm
  refine (BitFlags.foldl_range_bit hset _ 0).trans (or_iff_right ?_)
  exact fun h => Bool.false_ne_true (BitVec.getLsbD_zero.symm.trans h)

theorem aoEnab_none (hnone : ∀ i < scanLen cmd, chanOf cmd i ≠ c) :
    (aoEnab cmd).getLsbD c = false := by
  by_cases hc : c < 16
  · rw [← Bool.not_eq_true, aoEnab_bit hc]
    rintro ⟨i, hi, heq⟩
    exact hnone i hi heq
  · exact BitVec.getLsbD_of_ge _ _ (Nat.not_lt.mp hc)

theorem enabledBelow_eq (h : Listed cmd) (hb : b ≤ 16) : enabledBelow (aoEnab cmd) b =
    Nat.count (fun i => chanOf cmd i < b) (scanLen cmd) :=
  count_image (fun _ hc => aoEnab_bit (Nat.lt_of_lt_of_le hc hb)) h.distinct

theorem enabledBelow_all (h : Listed cmd) : enabledBelow (aoEnab cmd) 16 = scanLen cmd := by
  rw [enabledBelow_eq h le_rfl, Nat.count_iff_forall]
  exact h.chan_lt

theorem enabledBelow_chan (h : Listed cmd) (hi : i < scanLen cmd) :
    enabledBelow (aoEnab cmd) (chanOf cmd i) = rank cmd i :=
  enabledBelow_eq h (h.chan_lt i hi).le

theorem chan_enabled (h : Listed cmd) (hi : i < scanLen cmd) :
    (aoEnab cmd).getLsbD (chanOf cmd i) = true :=
  (aoEnab_bit (h.chan_lt i hi)).mpr ⟨i, hi, rfl⟩

theorem rank_lt (h : Listed cmd) (hi : i < scanLen cmd) : rank cmd i < scanLen cmd := by
  rw [← enabledBelow_chan h hi, ← enabledBelow_all h]
  exact Nat.count_strict_mono (chan_enabled h hi) (h.chan_lt i hi)

theorem rank_distinct (h : Listed cmd) (hi : i < scanLen cmd) (hj : j < scanLen cmd)
    (heq : rank cmd i = rank cmd j) : i = j := by
  rw [← enabledBelow_chan h hi, ← enabledBelow_chan h hj] at heq
  exact h.distinct i hi j hj
    (Nat.count_injective (chan_enabled h hi) (chan_enabled h hj) heq)

/-- The loop of `pci224_ao_cmd` puts each entry to its place. -/
theorem scanOrder_rank (h : Listed cmd) (order : Nat → Nat) (hi : i < scanLen cmd) :
    aoScanOrder cmd order (rank cmd i) = i := by
  have hloop : ∀ m ≤ scanLen cmd, ∀ i < m, (List.range m).foldl
      (fun order i => Function.update order (rank cmd i) i) order (rank cmd i) = i := by
    intro m
    induction m with
    | zero => exact fun _ i hi => absurd hi (Nat.not_lt_zero i)
    | succ m ih =>
      intro hm i hi
      rw [List.range_succ, List.foldl_append, List.foldl_cons, List.foldl_nil]
      rcases Nat.lt_succ_iff_lt_or_eq.mp hi with hlt | rfl
      · have hne : rank cmd i ≠ rank cmd m := fun heq =>
          Nat.ne_of_lt hlt (rank_distinct h (Nat.lt_trans hlt hm) hm heq)
        rw [Function.update_of_ne hne, ih (Nat.le_of_succ_le hm) i hlt]
      · exact Function.update_self ..
  exact hloop _ le_rfl i hi

/-- Each channel of the list gets its own sample of the scan, and the others get none. -/
theorem loaded_scan (h : Listed cmd) (horder : ∀ i < scanLen cmd, order (rank cmd i) = i) :
    (∀ i < scanLen cmd, loaded (aoEnab cmd) (scanWords (scanLen cmd) order vals ++ rest)
        (chanOf cmd i) = some (vals.getD i 0)) ∧
      ∀ c, (∀ i < scanLen cmd, chanOf cmd i ≠ c) →
        loaded (aoEnab cmd) (scanWords (scanLen cmd) order vals ++ rest) c = none := by
  unfold loaded
  constructor
  · intro i hi
    have hrank := rank_lt h hi
    rw [if_pos (chan_enabled h hi), enabledBelow_chan h hi]
    unfold scanWords
    rw [List.getElem?_append_left (by rw [List.length_map, List.length_range]; exact hrank),
      List.getElem?_map, List.getElem?_range hrank, Option.map_some, horder i hi]
  · intro c hnone
    rw [aoEnab_none hnone]
    exact if_neg Bool.false_ne_true

end Order

section Invariant

variable (board : Pci224Board) (s : Ao)

/-- The words that the samples of the user have become. -/
def stream : List U16 := s.given.map (munged board s.cmd)

def scanAt (k : Nat) : List U16 :=
  scanWords (scanLen s.cmd) s.scanOrder
    (((stream board s).drop (k * scanLen s.cmd)).take (scanLen s.cmd))

/-- The scans that have been taken and not played. -/
def queue : List U16 :=
  (List.range (s.taken - s.played.length)).flatMap fun k => scanAt board s (s.played.length + k)

/-- The `k`-th scan of the user, sample by sample, and nothing on the other channels. -/
def Sounds (k : Nat) (volts : Nat → Option U16) : Prop :=
  (∀ i < scanLen s.cmd,
      volts (chanOf s.cmd i) = (stream board s)[k * scanLen s.cmd + i]?) ∧
    ∀ c, (∀ i < scanLen s.cmd, chanOf s.cmd i ≠ c) → volts c = none

/-- What becomes of the samples while there is a command. -/
structure Carries : Prop where
  list : Listed s.cmd
  order : ∀ i < scanLen s.cmd, s.scanOrder (rank s.cmd i) = i
  supply : s.buffer = (stream board s).drop (s.taken * scanLen s.cmd)
  enough : s.taken * scanLen s.cmd ≤ s.given.length
  behind : s.played.length ≤ s.taken
  sounds : ∀ k volts, s.played[k]? = some volts → Sounds board s k volts
  queued : trigOf s ≠ dacconTrigSw → s.enab = aoEnab s.cmd ∧ s.fifo = queue board s

/-- The count of the scans. -/
structure Counted : Prop where
  counts : counts s.cmd →
    s.stopContinuous = false ∧ s.taken + s.stopCount.toNat = s.cmd.stopArg.toNat
  endless : ¬ Pcidas.counts s.cmd → s.stopContinuous = true

/-- The start is awaited. -/
def Waiting : Prop :=
  s.inttrig = true ∨ s.cmd.startSrc = trigExt ∧ s.intsce &&& intrExt ≠ 0

/-- All scans have been played. -/
def Complete : Prop := counts s.cmd ∧ s.played.length = s.cmd.stopArg.toNat

/-- A command that was not begun on a board that an earlier one has left started. -/
structure Fresh : Prop where
  waiting : Waiting s → s.started = false ∧ trigOf s = dacconTrigNone
  sound : s.started = true → trigOf s ≠ dacconTrigSw
  sources : s.cmd.startSrc = trigExt → s.cmd.stopSrc ≠ trigExt
  inttrig : s.inttrig = true → s.cmd.startSrc = trigInt
  complete : s.reported &&& comediCbEoa ≠ 0 → Complete s

structure Inv : Prop where
  capacity : s.fifo.length ≤ fifoSize
  dac : s.intsce &&& intrDac ≠ 0 → s.started = true
  calm : s.busy = false → s.inttrig = false
  carries : s.busy = true → Carries board s
  counted : s.busy = true → Counted s
  idle : s.busy = true → trigOf s = dacconTrigNone → s.taken = 0
  fresh : s.busy = true → s.fresh = true → Fresh s

/-- No event is left that the core was not told of. -/
def Told : Prop := s.running = true → s.events = 0

end Invariant

section Driver

variable {board : Pci224Board} {s t : Ao} {m : Nat} {e : U32}

theorem inv_attach (board : Pci224Board) : Inv board {} :=
  ⟨Nat.zero_le _, fun h => absurd (by decide) h, fun _ => rfl, nofun, nofun, nofun, nofun⟩

/-- What the samples become does not depend on the rest of the state. -/
theorem Carries.congr (h : Carries board s) (hsame : t = { s with
      started := t.started
      intsce := t.intsce
      stopContinuous := t.stopContinuous
      stopCount := t.stopCount
      daccon := t.daccon
      running := t.running
      inttrig := t.inttrig
      events := t.events
      reported := t.reported
      fresh := t.fresh })
    (htrig : trigOf t ≠ dacconTrigSw → trigOf s ≠ dacconTrigSw) : Carries board t := by
  have hqueued := h.queued ∘ htrig
  rw [hsame] at hqueued ⊢
  exact ⟨h.list, h.order, h.supply, h.enough, h.behind, h.sounds, hqueued⟩

theorem combine16_keeps {old new mask z : U16} (h : z &&& mask = 0) :
    combine16 old new mask &&& z = old &&& z := BitFlags.set_keeps h

theorem combine16_reads {old new mask z : U16} (h : z &&& ~~~mask = 0) :
    combine16 old new mask &&& z = new &&& z := BitFlags.set_reads h

/-- Nothing that becomes of the samples is changed. -/
theorem Inv.congr (h : Inv board s) (hsame : t = { s with
      started := t.started
      intsce := t.intsce
      running := t.running
      inttrig := t.inttrig
      events := t.events
      reported := t.reported })
    (hdac : t.intsce &&& intrDac ≠ 0 → t.started = true)
    (hcalm : s.busy = false → t.inttrig = false)
    (hfresh : s.busy = true → s.fresh = true → Fresh s → Fresh t) : Inv board t := by
  rw [hsame] at hfresh ⊢
  exact ⟨h.capacity, hdac, hcalm, fun hb => (h.carries hb).congr rfl id,
    fun hb => ⟨(h.counted hb).counts, (h.counted hb).endless⟩, h.idle,
    fun hb hf => hfresh hb hf (h.fresh hb hf)⟩

theorem inv_raise (h : Inv board s) (e : U32) : Inv board (raise s e) :=
  h.congr rfl h.dac h.calm fun _ _ hfresh => ⟨hfresh.waiting, hfresh.sound, hfresh.sources,
    hfresh.inttrig, hfresh.complete⟩

theorem event_eq (s : Ao) : comediEvent s = { s with
    running := (comediEvent s).running
    reported := (comediEvent s).reported
    events := (comediEvent s).events } := by
  unfold comediEvent
  split
  · rfl
  · rfl

theorem reported_event (s : Ao) : (comediEvent s).reported =
    if s.running then s.reported ||| s.events else s.reported := by
  unfold comediEvent
  cases s.running with
  | false => rfl
  | true => rfl

theorem or_and_zero {a b c : U32} (ha : a &&& c = 0) (hb : b &&& c = 0) : (a ||| b) &&& c = 0 := by
  rw [BitVec.and_or_distrib_right, ha, hb]
  exact BitVec.zero_or

/-- An end that is reported is that of a command that is complete. -/
theorem inv_event (h : Inv board s) (heoa : s.running = true → s.events &&& comediCbEoa ≠ 0 →
    s.busy = true → s.fresh = true → Complete s) : Inv board (comediEvent s) := by
  have hreported := reported_event s
  rw [event_eq]
  generalize (comediEvent s).reported = reported at hreported
  generalize (comediEvent s).events = events
  generalize (comediEvent s).running = running
  refine h.congr rfl h.dac h.calm fun hb hf hfresh => ⟨hfresh.waiting, hfresh.sound,
    hfresh.sources, hfresh.inttrig, fun hnew => ?_⟩
  dsimp only at hnew
  rw [hreported] at hnew
  split at hnew
  next hrunning =>
    by_cases hold : s.reported &&& comediCbEoa = 0
    · by_cases hevents : s.events &&& comediCbEoa = 0
      · exact absurd (or_and_zero hold hevents) hnew
      · exact heoa hrunning hevents hb hf
    · exact hfresh.complete hold
  next => exact hfresh.complete hnew

theorem told_event (s : Ao) : Told (comediEvent s) := by
  unfold comediEvent
  split
  next h => exact fun hrunning => absurd (h.symm.trans hrunning) (by decide)
  next => exact fun _ => rfl

/-- The board after `pci224_ao_stop` has stopped it. -/
def halted (s : Ao) : Ao :=
  { s with
    started := false
    intsce := 0
    enab := 0
    daccon := Pci224Output.combine16 s.daccon (dacconTrigSw ||| dacconFifointrEmpty)
      (dacconTrigMask ||| dacconFifointrMask)
    fifo := [] }

theorem stop_started (h : s.started = true) : aoStop s = halted s :=
  if_neg (by rw [h]; exact Bool.noConfusion)

theorem stop_idle (h : s.started = false) : aoStop s = s := if_pos h

theorem trigOf_halted (s : Ao) : trigOf (halted s) = dacconTrigSw := by
  have hmask : dacconTrigMask &&& ~~~(dacconTrigMask ||| dacconFifointrMask) = 0 := by decide
  exact (combine16_reads hmask).trans (by decide)

theorem inv_halted (h : Inv board s)
    (hinttrig : s.busy = true → s.fresh = true → s.inttrig = false) : Inv board (halted s) := by
  have htrig := trigOf_halted s
  have hdac : (0 : U8) &&& intrDac = 0 := by decide
  have hext : (0 : U8) &&& intrExt = 0 := by decide
  refine ⟨Nat.zero_le _, fun hne => absurd hdac hne, h.calm,
    fun hb => ?_, fun hb => ⟨(h.counted hb).counts, (h.counted hb).endless⟩,
    fun _ hnone => absurd (htrig.symm.trans hnone) (by decide), fun hb hf => ?_⟩
  · have hcarries := h.carries hb
    exact ⟨hcarries.list, hcarries.order, hcarries.supply, hcarries.enough, hcarries.behind,
      hcarries.sounds, fun hne => absurd htrig hne⟩
  · have hfresh := h.fresh hb hf
    refine ⟨?_, nofun, hfresh.sources, hfresh.inttrig, hfresh.complete⟩
    rintro (hwait | ⟨-, harmed⟩)
    · exact absurd (hwait.symm.trans (hinttrig hb hf)) (by decide)
    · exact absurd hext harmed

theorem inv_stop (h : Inv board s) : Inv board (aoStop s) := by
  cases hstarted : s.started with
  | false =>
    rw [stop_idle hstarted]
    exact h
  | true =>
    rw [stop_started hstarted]
    refine inv_halted h fun hb hf => Bool.eq_false_iff.mpr fun hinttrig => ?_
    exact absurd (((h.fresh hb hf).waiting (.inl hinttrig)).1.symm.trans hstarted) (by decide)

/-- The scan trigger that is set is one of the two that change the voltages. -/
theorem scanTrigger_active (cmd : Cmd) : scanTrigger cmd &&& dacconTrigMask ≠ dacconTrigNone ∧
    scanTrigger cmd &&& dacconTrigMask ≠ dacconTrigSw := by
  unfold scanTrigger
  split
  · decide
  split
  · decide
  · decide

/-- The start of a command that is not empty. -/
theorem inv_begun (h : Inv board s)
    (hnone : s.busy = true → s.fresh = true → trigOf s = dacconTrigNone ∧ s.inttrig = false) :
    Inv board { s with
      started := true
      intsce := if s.cmd.stopSrc = trigExt then intrExt ||| intrDac else intrDac } := by
  refine h.congr rfl (fun _ => rfl) h.calm fun hb hf hfresh => ?_
  obtain ⟨htrig, hinttrig⟩ := hnone hb hf
  refine ⟨?_, fun _ hsw => ?_, hfresh.sources, hfresh.inttrig, hfresh.complete⟩
  · rintro (hwait | ⟨hstart, harmed⟩)
    · exact absurd (hwait.symm.trans hinttrig) (by decide)
    · dsimp only at harmed
      rw [if_neg (hfresh.sources hstart)] at harmed
      exact absurd (by decide) harmed
  · exact absurd (htrig.symm.trans hsw) (by decide)

theorem inv_start (h : Inv board s) (htold : Told s)
    (hnone : s.busy = true → s.fresh = true → trigOf s = dacconTrigNone ∧ s.inttrig = false) :
    Inv board (aoStart s) ∧ Told (aoStart s) := by
  unfold aoStart
  split
  next hempty =>
    have hhalted := inv_raise (inv_halted h fun hb hf => (hnone hb hf).2) comediCbEoa
    refine ⟨inv_event hhalted fun _ _ hb hf => ?_, told_event _⟩
    have hcounts : counts s.cmd := by
      by_contra hendless
      exact absurd (hempty.1.symm.trans ((h.counted hb).endless hendless)) (by decide)
    have hcount := ((h.counted hb).counts hcounts).2
    have htaken := h.idle hb (hnone hb hf).1
    have hbehind := (h.carries hb).behind
    have hzero : s.stopCount.toNat = 0 := congrArg BitVec.toNat hempty.2
    refine ⟨hcounts, ?_⟩
    change s.played.length = s.cmd.stopArg.toNat
    omega
  next hsome => exact ⟨inv_begun h hnone, htold⟩

theorem putScans_eq (m : Nat) (s : Ao) : putScans m s = { s with
    buffer := (putScans m s).buffer
    fifo := (putScans m s).fifo
    events := (putScans m s).events
    taken := s.taken + m } := by
  induction m generalizing s with
  | zero => rfl
  | succ m ih =>
    have hsum : (putScan s).taken + m = s.taken + (m + 1) := by
      change s.taken + 1 + m = _
      omega
    rw [putScans, ih, hsum]
    rfl

theorem queue_putScan (h : Carries board s) : queue board (putScan s) = queue board s ++
    scanWords (scanLen s.cmd) s.scanOrder (s.buffer.take (scanLen s.cmd)) := by
  have hlast : (putScan s).played.length + (s.taken - s.played.length) = s.taken :=
    Nat.add_sub_of_le h.behind
  change (List.range (s.taken + 1 - s.played.length)).flatMap _ = _
  rw [Nat.succ_sub h.behind, List.range_succ, List.flatMap_append, List.flatMap_singleton, hlast,
    h.supply]
  rfl

theorem carries_putScan (h : Carries board s) (hsome : scanLen s.cmd ≤ s.buffer.length) :
    Carries board (putScan s) := by
  have hqueue := queue_putScan h
  have henough := h.enough
  have hmore : (s.taken + 1) * scanLen s.cmd = s.taken * scanLen s.cmd + scanLen s.cmd :=
    Nat.succ_mul ..
  rw [h.supply, List.length_drop] at hsome
  unfold stream at hsome
  rw [List.length_map] at hsome
  refine ⟨h.list, h.order, ?_, ?_, Nat.le_succ_of_le h.behind, h.sounds, fun hne => ?_⟩
  · change s.buffer.drop (scanLen s.cmd) = (stream board s).drop ((s.taken + 1) * scanLen s.cmd)
    rw [h.supply, List.drop_drop, hmore]
  · change (s.taken + 1) * scanLen s.cmd ≤ s.given.length
    omega
  · obtain ⟨henab, hfifo⟩ := h.queued hne
    refine ⟨henab, ?_⟩
    rw [hqueue, ← hfifo]
    rfl

theorem carries_putScans (h : Carries board s) (hsome : m * scanLen s.cmd ≤ s.buffer.length) :
    Carries board (putScans m s) := by
  induction m generalizing s with
  | zero => exact h
  | succ m ih =>
    rw [Nat.succ_mul] at hsome
    refine ih (carries_putScan h (by omega)) ?_
    change m * scanLen s.cmd ≤ (s.buffer.drop (scanLen s.cmd)).length
    rw [List.length_drop]
    omega

theorem fifo_putScans (m : Nat) (s : Ao) :
    (putScans m s).fifo.length = s.fifo.length + m * scanLen s.cmd := by
  induction m generalizing s with
  | zero => rw [Nat.zero_mul]; rfl
  | succ m ih =>
    have hput : (putScan s).fifo.length = s.fifo.length + scanLen s.cmd := by
      change (s.fifo ++ scanWords _ _ _).length = _
      unfold scanWords
      rw [List.length_append, List.length_map, List.length_range]
    rw [putScans, ih, hput, Nat.succ_mul, Nat.add_assoc, Nat.add_comm (scanLen s.cmd)]
    rfl

theorem events_putScans (m : Nat) (s : Ao) (h : s.events &&& comediCbEoa = 0) :
    (putScans m s).events &&& comediCbEoa = 0 := by
  induction m generalizing s with
  | zero => exact h
  | succ m ih => exact ih (putScan s) (or_and_zero h (by decide))

theorem countDown_eq (s : Ao) (m : Nat) : countDown s m = { s with
    stopCount := (countDown s m).stopCount, daccon := (countDown s m).daccon } := by
  unfold countDown
  split
  · rfl
  · rfl

theorem trigOf_countDown (s : Ao) (m : Nat) : trigOf (countDown s m) = trigOf s := by
  unfold countDown
  split
  · rfl
  · unfold trigOf
    dsimp only
    split
    · exact combine16_keeps (by decide)
    · rfl

theorem countDown_counted (h : s.stopContinuous = false) (hm : m ≤ s.stopCount.toNat) :
    (countDown s m).stopCount.toNat + m = s.stopCount.toNat := by
  have hlt := s.stopCount.isLt
  have hcount : (BitVec.ofNat 32 m).toNat = m := by
    rw [BitVec.toNat_ofNat]
    exact Nat.mod_eq_of_lt (by omega)
  unfold countDown
  rw [if_neg (by rw [h]; exact Bool.noConfusion)]
  dsimp only
  rw [BitVec.toNat_sub, hcount]
  omega

theorem setTrigger_eq (s : Ao) : setTrigger s = { s with daccon := (setTrigger s).daccon } := by
  unfold setTrigger
  split
  · rfl
  · rfl

theorem trigOf_setTrigger (s : Ao) : trigOf (setTrigger s) ≠ dacconTrigNone ∧
    (trigOf (setTrigger s) = dacconTrigSw ↔ trigOf s = dacconTrigSw) := by
  unfold setTrigger
  split
  next hnone =>
    have hactive := scanTrigger_active s.cmd
    have htrig : combine16 s.daccon (scanTrigger s.cmd) dacconTrigMask &&& dacconTrigMask =
        scanTrigger s.cmd &&& dacconTrigMask := combine16_reads (by decide)
    unfold trigOf
    dsimp only
    rw [htrig, hnone]
    exact ⟨hactive.1, iff_of_false hactive.2 (by decide)⟩
  next hsome => exact ⟨hsome, Iff.rfl⟩

theorem trigOf_fed (s : Ao) (m : Nat) :
    trigOf (setTrigger (countDown (putScans m s) m)) ≠ dacconTrigNone ∧
      (trigOf (setTrigger (countDown (putScans m s) m)) = dacconTrigSw ↔
        trigOf s = dacconTrigSw) := by
  obtain ⟨hnone, hsw⟩ := trigOf_setTrigger (countDown (putScans m s) m)
  rw [trigOf_countDown] at hsw
  refine ⟨hnone, hsw.trans ?_⟩
  rw [putScans_eq]
  exact Iff.rfl

theorem fed_eq (s : Ao) (m : Nat) : setTrigger (countDown (putScans m s) m) = { s with
    buffer := (putScans m s).buffer
    fifo := (putScans m s).fifo
    events := (putScans m s).events
    taken := s.taken + m
    stopCount := (countDown (putScans m s) m).stopCount
    daccon := (setTrigger (countDown (putScans m s) m)).daccon } := by
  have hput := putScans_eq m s
  generalize putScans m s = u at hput ⊢
  have hdown := countDown_eq u m
  generalize countDown u m = v at hdown ⊢
  have hset := setTrigger_eq v
  generalize setTrigger v = w at hset ⊢
  rw [hset, hdown, hput]

/-- Scans are put into the FIFO of a board that is started, or has just been stopped. -/
theorem inv_feed (h : Inv board s) (hlive : s.started = true ∨ trigOf s = dacconTrigSw)
    (hsome : s.busy = true → m * scanLen s.cmd ≤ s.buffer.length)
    (hroom : s.fifo.length + m * scanLen s.cmd ≤ fifoSize)
    (hcount : s.stopContinuous = false → m ≤ s.stopCount.toNat) :
    Inv board (setTrigger (countDown (putScans m s) m)) := by
  have hput := putScans_eq m s
  have hfifo := fifo_putScans m s
  have hcarries := fun hb => carries_putScans (h.carries hb) (hsome hb)
  have hsame := fed_eq s m
  obtain ⟨hnone, htrig⟩ := trigOf_fed s m
  have hleft := @countDown_counted (putScans m s) m
  generalize putScans m s = u at hput hfifo hcarries hsame hnone htrig hleft ⊢
  generalize hdown : countDown u m = v at hsame hnone htrig hleft ⊢
  have hset := setTrigger_eq v
  generalize setTrigger v = w at hset hsame hnone htrig ⊢
  have hcarried : s.busy = true → Carries board w := fun hb => by
    refine (hcarries hb).congr (by rw [hset, ← hdown, countDown_eq]) fun hne hswitch => ?_
    rw [hput] at hswitch
    exact hne (htrig.mpr hswitch)
  rw [hput] at hleft
  dsimp only at hleft
  rw [hsame] at hcarried htrig hnone ⊢
  generalize w.daccon = daccon at *
  refine ⟨?_, h.dac, h.calm, hcarried, fun hb => ⟨fun hcounts => ?_, (h.counted hb).endless⟩,
    fun _ hn => absurd hn hnone, fun hb hf => ?_⟩
  · rw [hfifo]
    exact hroom
  · obtain ⟨hfinite, hsum⟩ := (h.counted hb).counts hcounts
    refine ⟨hfinite, ?_⟩
    dsimp only
    have := hleft hfinite (hcount hfinite)
    omega
  · have hfresh := h.fresh hb hf
    have hbusy : ¬ Waiting s := fun hwait => by
      obtain ⟨hidle, htrignone⟩ := hfresh.waiting hwait
      rcases hlive with hstarted | hswitch
      · exact absurd (hidle.symm.trans hstarted) (by decide)
      · exact absurd (htrignone.symm.trans hswitch) (by decide)
    exact ⟨fun hwait => absurd hwait hbusy, fun hstarted hswitch =>
      hfresh.sound hstarted (htrig.mp hswitch), hfresh.sources, hfresh.inttrig, hfresh.complete⟩

theorem stop_eq (s : Ao) : aoStop s = { s with
    started := (aoStop s).started
    intsce := (aoStop s).intsce
    enab := (aoStop s).enab
    daccon := (aoStop s).daccon
    fifo := (aoStop s).fifo } := by
  unfold aoStop
  split
  · rfl
  · rfl

theorem queue_length (board : Pci224Board) (s : Ao) :
    (queue board s).length = (s.taken - s.played.length) * scanLen s.cmd := by
  have hscan : ∀ k, (scanAt board s k).length = scanLen s.cmd := fun k => by
    unfold scanAt scanWords
    rw [List.length_map, List.length_range]
  unfold queue
  simp only [List.length_flatMap, hscan, List.map_const', List.length_range,
    List.sum_replicate_nat]

/-- An empty FIFO after the last scan was taken. -/
theorem complete_empty (h : Inv board s) (hb : s.busy = true) (hf : s.fresh = true)
    (hlive : s.started = true ∨ ¬ counts s.cmd) (hfinite : s.stopContinuous = false)
    (hzero : s.stopCount = 0) (hempty : s.fifo = []) : Complete s := by
  have hcounts : counts s.cmd := by
    by_contra hendless
    exact absurd (hfinite.symm.trans ((h.counted hb).endless hendless)) (by decide)
  have hstarted := hlive.resolve_right (not_not.mpr hcounts)
  have hcarries := h.carries hb
  have hqueue := (hcarries.queued ((h.fresh hb hf).sound hstarted)).2
  have hlength := queue_length board s
  rw [← hqueue, hempty, List.length_nil, eq_comm, Nat.mul_eq_zero] at hlength
  have hnone := hlength.resolve_right (Nat.ne_of_gt hcarries.list.pos)
  have hbehind := hcarries.behind
  have hcount := ((h.counted hb).counts hcounts).2
  have hleft : s.stopCount.toNat = 0 := congrArg BitVec.toNat hzero
  exact ⟨hcounts, by omega⟩

theorem fifoStatus_empty {fill : Nat} :
    fifoStatus fill &&& dacconFifoflMask = dacconFifoflEmpty ↔ fill = 0 := by
  unfold fifoStatus
  by_cases hzero : fill = 0
  · rw [if_pos hzero]
    exact iff_of_true (by decide) hzero
  · rw [if_neg hzero]
    refine iff_of_false ?_ hzero
    split
    · decide
    split
    · decide
    · decide

/-- The room is there. -/
theorem room_le {fill : Nat} (h : fill ≤ fifoSize) :
    fill + roomOf (fifoStatus fill) ≤ fifoSize := by
  unfold fifoStatus
  have hempty : roomOf dacconFifoflEmpty = 4096 := by decide
  have hhalf : roomOf dacconFifoflOnetohalf = 2048 := by decide
  have hmore : roomOf dacconFifoflHalftofull = 1 := by decide
  have hfull : roomOf dacconFifoflFull = 0 := by decide
  unfold fifoSize at h ⊢
  split
  · omega
  split
  · omega
  split
  · omega
  · omega

theorem numScans_le (s : Ao) : numScans s * scanLen s.cmd ≤ s.buffer.length ∧
    (s.stopContinuous = false → numScans s ≤ s.stopCount.toNat) := by
  unfold numScans
  have havailable : 2 * s.buffer.length / (if s.cmd.chanlistLen ≠ 0 then scanLen s.cmd * 2 else 2) *
      scanLen s.cmd ≤ s.buffer.length := by
    by_cases hlen : s.cmd.chanlistLen = 0
    · have hzero : scanLen s.cmd = 0 := congrArg BitVec.toNat hlen
      rw [hzero]
      exact Nat.zero_le _
    · rw [if_pos hlen, Nat.mul_comm (scanLen s.cmd), Nat.mul_div_mul_left _ _ (by decide)]
      exact Nat.div_mul_le_self ..
  dsimp only
  generalize 2 * s.buffer.length / (if s.cmd.chanlistLen ≠ 0 then scanLen s.cmd * 2 else 2) =
    available at havailable ⊢
  split
  next hfew =>
    exact ⟨(Nat.mul_le_mul_right _ hfew.2.le).trans havailable, fun _ => le_rfl⟩
  next hfew =>
    exact ⟨havailable, fun hfinite => Nat.not_lt.mp fun hlt => hfew ⟨hfinite, hlt⟩⟩

/-- The scans that an interrupt puts into the FIFO. -/
def feeds (s : Ao) : Nat :=
  let room := roomOf (fifoStatus s.fifo.length)
  let fits := if s.cmd.chanlistLen ≠ 0 then room / scanLen s.cmd else room
  if fits < numScans s then fits else numScans s

theorem feeds_le (s : Ao) : feeds s ≤ numScans s := by
  unfold feeds
  dsimp only
  generalize (if s.cmd.chanlistLen ≠ 0 then roomOf (fifoStatus s.fifo.length) / scanLen s.cmd
    else roomOf (fifoStatus s.fifo.length)) = fits
  split
  next hlt => exact hlt.le
  next => exact le_rfl

theorem feeds_room (h : s.fifo.length ≤ fifoSize) :
    s.fifo.length + feeds s * scanLen s.cmd ≤ fifoSize := by
  have hroom := room_le h
  have hfits : feeds s * scanLen s.cmd ≤ roomOf (fifoStatus s.fifo.length) := by
    by_cases hlen : s.cmd.chanlistLen = 0
    · have hzero : scanLen s.cmd = 0 := congrArg BitVec.toNat hlen
      rw [hzero]
      exact Nat.zero_le _
    · refine le_trans (Nat.mul_le_mul_right _ ?_) (Nat.div_mul_le_self _ (scanLen s.cmd))
      unfold feeds
      dsimp only
      rw [if_pos hlen]
      split
      next => exact le_rfl
      next hle => exact Nat.not_lt.mp hle
  omega

theorem inv_tell (h : Inv board s) (hnone : s.running = true → s.events &&& comediCbEoa = 0) :
    Inv board (tellCore s) := by
  unfold tellCore
  split
  · exact inv_event h fun hrunning heoa => absurd (hnone hrunning) heoa
  · exact h

theorem told_tell (s : Ao) : Told (tellCore s) := by
  unfold tellCore
  split
  · exact told_event s
  next hnone => exact fun _ => not_not.mp hnone

theorem handleFifo_eq (s : Ao) : aoHandleFifo s =
    if s.fifo = [] ∧ s.stopContinuous = false ∧ s.stopCount = 0 then
      comediEvent (raise (aoStop s) comediCbEoa)
    else
      tellCore (setTrigger (countDown (putScans (feeds s)
        (if fifoRoomOnetohalf ≤ roomOf (fifoStatus s.fifo.length) ∧ numScans s = 0 then
          raise (aoStop s) comediCbOverflow else s)) (feeds s))) := by
  unfold aoHandleFifo
  dsimp only
  simp only [fifoStatus_empty, List.length_eq_zero_iff]
  rfl

theorem inv_fed (h : Inv board s) (hlive : s.started = true ∨ trigOf s = dacconTrigSw)
    (hsome : m * scanLen s.cmd ≤ s.buffer.length)
    (hroom : s.fifo.length + m * scanLen s.cmd ≤ fifoSize)
    (hcount : s.stopContinuous = false → m ≤ s.stopCount.toNat)
    (hnone : s.running = true → s.events &&& comediCbEoa = 0) :
    Inv board (tellCore (setTrigger (countDown (putScans m s) m))) ∧
      Told (tellCore (setTrigger (countDown (putScans m s) m))) := by
  refine ⟨inv_tell (inv_feed h hlive (fun _ => hsome) hroom hcount) ?_, told_tell _⟩
  rw [fed_eq]
  exact fun hrunning => events_putScans m s (hnone hrunning)

theorem Told.quiet (h : Told s) (hrunning : s.running = true) : s.events &&& comediCbEoa = 0 := by
  rw [h hrunning]
  exact BitVec.zero_and

theorem inv_handleFifo (h : Inv board s) (htold : Told s) (hlive : s.started = true ∨
      trigOf s = dacconTrigSw ∧ (s.busy = true → s.fresh = true → ¬ counts s.cmd)) :
    Inv board (aoHandleFifo s) ∧ Told (aoHandleFifo s) := by
  have hstop := stop_eq s
  have hsome := (Nat.mul_le_mul_right _ (feeds_le s)).trans (numScans_le s).1
  have hroom := feeds_room h.capacity
  have hcount := fun hfinite => (feeds_le s).trans ((numScans_le s).2 hfinite)
  rw [handleFifo_eq]
  split
  next hend =>
    have hcomplete : s.busy = true → s.fresh = true → Complete s := fun hb hf =>
      complete_empty h hb hf (hlive.imp_right fun hnot => hnot.2 hb hf) hend.2.1 hend.2.2 hend.1
    have hraised := inv_raise (inv_stop h) comediCbEoa
    refine ⟨inv_event hraised fun _ _ hb hf => ?_, told_event _⟩
    rw [hstop] at hb hf ⊢
    exact hcomplete hb hf
  split
  · have hswitch : trigOf (aoStop s) = dacconTrigSw := by
      cases hstarted : s.started with
      | true =>
        rw [stop_started hstarted]
        exact trigOf_halted s
      | false =>
        rw [stop_idle hstarted]
        exact (hlive.resolve_left (by rw [hstarted]; exact Bool.noConfusion)).1
    have hless : (aoStop s).fifo.length ≤ s.fifo.length := by
      unfold aoStop
      split
      · exact le_rfl
      · exact Nat.zero_le _
    have hinv := inv_raise (inv_stop h) comediCbOverflow
    generalize aoStop s = f at hstop hswitch hless hinv
    have hquiet : s.running = true → (s.events ||| comediCbOverflow) &&& comediCbEoa = 0 :=
      fun hrunning => or_and_zero (htold.quiet hrunning) (by decide)
    refine inv_fed hinv (.inr hswitch) ?_ ?_ ?_ ?_
    · rw [hstop]
      exact hsome
    · have hcmd : f.cmd = s.cmd := by rw [hstop]
      change f.fifo.length + feeds s * scanLen f.cmd ≤ fifoSize
      rw [hcmd]
      omega
    · rw [hstop]
      exact hcount
    · rw [hstop]
      exact hquiet
  · exact inv_fed h (hlive.imp_right And.left) hsome hroom hcount htold.quiet

theorem clear_intrExt (x : U8) : x &&& ~~~intrExt &&& intrDac = x &&& intrDac ∧
    x &&& ~~~intrExt &&& intrExt = 0 :=
  ⟨BitFlags.clear_keeps (by decide), BitFlags.cleared (by decide)⟩

/-- The external trigger is not armed any more. -/
theorem inv_disarmed (h : Inv board s) :
    Inv board { s with intsce := s.intsce &&& ~~~intrExt } := by
  obtain ⟨hdac, hext⟩ := clear_intrExt s.intsce
  refine h.congr rfl (fun hne => h.dac ?_) h.calm fun hb hf hfresh => ?_
  · rw [← hdac]
    exact hne
  · refine ⟨?_, hfresh.sound, hfresh.sources, hfresh.inttrig, hfresh.complete⟩
    rintro (hwait | ⟨-, harmed⟩)
    · exact hfresh.waiting (.inl hwait)
    · exact absurd hext harmed

theorem inv_externalTrigger (h : Inv board s) (htold : Told s)
    (harmed : s.intsce &&& intrExt ≠ 0) :
    Inv board (externalTrigger s) ∧ Told (externalTrigger s) := by
  have hdisarmed := inv_disarmed h
  unfold externalTrigger
  dsimp only
  split
  next hstart =>
    refine inv_start hdisarmed htold fun hb hf => ?_
    have hfresh := h.fresh hb hf
    refine ⟨(hfresh.waiting (.inr ⟨hstart, harmed⟩)).2, Bool.eq_false_iff.mpr fun hinttrig => ?_⟩
    exact absurd (hstart.symm.trans (hfresh.inttrig hinttrig)) (by decide)
  split
  · refine ⟨inv_stop hdisarmed, ?_⟩
    rw [stop_eq]
    exact htold
  · exact ⟨hdisarmed, htold⟩

theorem live_externalTrigger (h : Inv board s) (harmed : s.intsce &&& intrExt ≠ 0)
    (hstarted : s.started = true) : (externalTrigger s).started = true ∨
      trigOf (externalTrigger s) = dacconTrigSw ∧ ((externalTrigger s).busy = true →
        (externalTrigger s).fresh = true → ¬ counts (externalTrigger s).cmd) := by
  unfold externalTrigger
  dsimp only
  split
  next hstart =>
    unfold aoStart
    split
    · refine .inr ?_
      rw [event_eq]
      refine ⟨trigOf_halted _, fun hb hf => absurd hstarted ?_⟩
      rw [((h.fresh hb hf).waiting (.inr ⟨hstart, harmed⟩)).1]
      exact Bool.noConfusion
    · exact .inl rfl
  split
  next hstop =>
    have hhalted := @stop_started { s with intsce := s.intsce &&& ~~~intrExt } hstarted
    refine .inr ?_
    rw [hhalted]
    exact ⟨trigOf_halted _, fun _ _ hcounts => absurd (hstop.symm.trans hcounts) (by decide)⟩
  · exact .inl hstarted

theorem valid_armed {x y z : U8} (h : x &&& y &&& z ≠ 0) : x &&& z ≠ 0 := by
  rintro hzero
  rw [BitVec.and_assoc, BitVec.and_comm y, ← BitVec.and_assoc, hzero] at h
  exact h BitVec.zero_and

theorem inv_interrupt (h : Inv board s) (htold : Told s) (intstat : U8) :
    Inv board (pci224Interrupt s intstat) ∧ Told (pci224Interrupt s intstat) := by
  unfold pci224Interrupt
  dsimp only
  by_cases hext : s.intsce &&& (intstat &&& intrBits) &&& intrExt = 0
  · rw [if_neg (not_not.mpr hext)]
    split
    next hdac => exact inv_handleFifo h htold (.inl (h.dac (valid_armed hdac)))
    next => exact ⟨h, htold⟩
  · rw [if_pos hext]
    have harmed := valid_armed hext
    obtain ⟨hinv, htold'⟩ := inv_externalTrigger h htold harmed
    split
    next hdac =>
      exact inv_handleFifo hinv htold' (live_externalTrigger h harmed (h.dac (valid_armed hdac)))
    next => exact ⟨hinv, htold'⟩

theorem inv_inttrig (h : Inv board s) (htold : Told s) (trignum : U32) :
    Inv board (aoInttrigStart s trignum) ∧ Told (aoInttrigStart s trignum) := by
  unfold aoInttrigStart
  split
  · exact ⟨h, htold⟩
  next hgo =>
    rw [not_or, Bool.not_eq_false] at hgo
    have hinv : Inv board { s with inttrig := false } := by
      refine h.congr rfl h.dac (fun _ => rfl) fun hb hf hfresh => ?_
      exact ⟨fun _ => hfresh.waiting (.inl hgo.1), hfresh.sound, hfresh.sources, nofun,
        hfresh.complete⟩
    exact inv_start hinv htold fun hb hf => ⟨((h.fresh hb hf).waiting (.inl hgo.1)).2, rfl⟩

theorem inv_nonbusy (hcapacity : s.fifo.length ≤ fifoSize)
    (hdac : s.intsce &&& intrDac ≠ 0 → s.started = true) :
    Inv board (becomeNonbusy s) ∧ Told (becomeNonbusy s) :=
  ⟨⟨hcapacity, hdac, fun _ => rfl, nofun, nofun, nofun, nofun⟩, nofun⟩

theorem inv_cancel (h : Inv board s) (htold : Told s) :
    Inv board (doCancel s) ∧ Told (doCancel s) := by
  unfold doCancel
  split
  · split
    · have hstop := inv_stop h
      exact inv_nonbusy hstop.capacity hstop.dac
    · exact inv_nonbusy h.capacity h.dac
  · exact ⟨h, htold⟩

theorem drop_take_append {xs ys : List U16} {a n : Nat} (h : a + n ≤ xs.length) :
    ((xs ++ ys).drop a).take n = (xs.drop a).take n := by
  rw [List.drop_append_of_le_length (by omega), List.take_append_of_le_length]
  rw [List.length_drop]
  omega

theorem scan_taken (h : Carries board s) {k : Nat} (hk : k < s.taken) :
    k * scanLen s.cmd + scanLen s.cmd ≤ (stream board s).length := by
  have hle : (k + 1) * scanLen s.cmd ≤ s.taken * scanLen s.cmd := Nat.mul_le_mul_right _ hk
  rw [Nat.succ_mul] at hle
  unfold stream
  rw [List.length_map]
  exact hle.trans h.enough

/-- The user's samples are added to those that are there. -/
theorem carries_write (h : Carries board s) (samples : List U16) : Carries board { s with
    buffer := s.buffer ++ samples.map (munged board s.cmd), given := s.given ++ samples } := by
  have htaken := @scan_taken board s h
  have henough : s.taken * scanLen s.cmd ≤ (stream board s).length := by
    unfold stream
    rw [List.length_map]
    exact h.enough
  obtain ⟨hlist, horder, hsupply, hgiven, hbehind, hsounds, hqueued⟩ := h
  have hstream : stream board { s with
      buffer := s.buffer ++ samples.map (munged board s.cmd), given := s.given ++ samples } =
      stream board s ++ samples.map (munged board s.cmd) := List.map_append ..
  refine ⟨hlist, horder, ?_, ?_, hbehind, fun k volts hk => ?_, fun hne => ?_⟩
  · rw [hstream]
    dsimp only
    rw [hsupply, List.drop_append_of_le_length henough]
  · dsimp only
    rw [List.length_append]
    omega
  · obtain ⟨hlisted, hothers⟩ := hsounds k volts hk
    have hklt : k < s.played.length := (List.getElem?_eq_some_iff.mp hk).1
    refine ⟨fun i hi => ?_, hothers⟩
    have := htaken (Nat.lt_of_lt_of_le hklt hbehind)
    rw [hstream]
    dsimp only
    rw [List.getElem?_append_left (by dsimp only at hi; omega)]
    exact hlisted i hi
  · obtain ⟨henab, hfifo⟩ := hqueued hne
    refine ⟨henab, hfifo.trans ?_⟩
    refine List.flatMap_congr fun k hk => ?_
    rw [List.mem_range] at hk
    unfold scanAt
    rw [hstream]
    dsimp only
    rw [drop_take_append (htaken (by omega))]

theorem inv_write (h : Inv board s) (htold : Told s) (samples : List U16) :
    Inv board (comediWrite board s samples) ∧ Told (comediWrite board s samples) := by
  unfold comediWrite
  split
  · exact ⟨h, htold⟩
  next hbusy =>
    split
    · exact inv_nonbusy h.capacity h.dac
    · have hb := Bool.eq_true_of_not_eq_false hbusy
      have hcarries := h.carries hb
      refine ⟨⟨h.capacity, h.dac, h.calm, fun _ => carries_write hcarries samples,
        fun _ => ⟨(h.counted hb).counts, (h.counted hb).endless⟩, h.idle, fun _ hf => ?_⟩, htold⟩
      have hfresh := h.fresh hb hf
      exact ⟨hfresh.waiting, hfresh.sound, hfresh.sources, hfresh.inttrig, hfresh.complete⟩

theorem inv_insnWrite (h : Inv board s) (htold : Told s) (chan range : Nat) (data : U32) :
    Inv board (aoSetData s board chan range data) ∧ Told (aoSetData s board chan range data) := by
  unfold aoSetData
  split
  · exact ⟨h, htold⟩
  next hbusy =>
    have hidle : ∀ {p : Prop}, s.busy = true → p := fun hb => absurd hb hbusy
    exact ⟨⟨Nat.zero_le _, h.dac, h.calm, hidle, hidle, hidle, hidle⟩, htold⟩

theorem queue_cons (h : s.played.length < s.taken) : queue board s =
    scanAt board s s.played.length ++ (List.range (s.taken - (s.played.length + 1))).flatMap
      fun k => scanAt board s (s.played.length + 1 + k) := by
  have hsub : s.taken - s.played.length = s.taken - (s.played.length + 1) + 1 := by omega
  unfold queue
  rw [hsub, List.range_succ_eq_map, List.flatMap_cons, List.flatMap_map, Nat.add_zero]
  refine congrArg _ (List.flatMap_congr fun k _ => ?_)
  rw [Nat.succ_eq_add_one, Nat.add_assoc, Nat.add_comm 1]

theorem sounds_loaded (h : Carries board s) {k : Nat} (hk : k < s.taken) (rest : List U16) :
    Sounds board s k (loaded (aoEnab s.cmd) (scanAt board s k ++ rest)) := by
  obtain ⟨hlisted, hothers⟩ := @loaded_scan s.cmd rest
    (((stream board s).drop (k * scanLen s.cmd)).take (scanLen s.cmd)) _ h.list h.order
  refine ⟨fun i hi => (hlisted i hi).trans ?_, hothers⟩
  have hlt := scan_taken h hk
  have hin : k * scanLen s.cmd + i < (stream board s).length := by omega
  rw [List.getD_eq_getElem?_getD, List.getElem?_take_of_lt hi, List.getElem?_drop,
    List.getElem?_eq_getElem hin]
  rfl

/-- The scan that is next is played. -/
theorem carries_convert (h : Carries board s) (hne : trigOf s ≠ dacconTrigSw)
    (hwhole : enabledBelow s.enab 16 ≤ s.fifo.length) :
    s.played.length < s.taken ∧ Carries board { s with
      fifo := s.fifo.drop (enabledBelow s.enab 16)
      played := s.played ++ [loaded s.enab s.fifo] } := by
  obtain ⟨henab, hfifo⟩ := h.queued hne
  have hpos := h.list.pos
  have hall := enabledBelow_all h.list
  rw [henab, hall] at hwhole ⊢
  have hlt : s.played.length < s.taken := by
    by_contra hnone
    have hlength := queue_length board s
    rw [← hfifo, Nat.sub_eq_zero_of_le (Nat.not_lt.mp hnone), Nat.zero_mul] at hlength
    omega
  have hscan : (scanAt board s s.played.length).length = scanLen s.cmd := by
    unfold scanAt scanWords
    rw [List.length_map, List.length_range]
  rw [hfifo, queue_cons hlt]
  generalize hrest : List.flatMap _ _ = rest
  refine ⟨hlt, h.list, h.order, h.supply, h.enough, ?_, fun k volts hk => ?_, fun _ => ?_⟩
  · dsimp only
    rw [List.length_append, List.length_singleton]
    exact hlt
  · dsimp only at hk
    rw [List.getElem?_append] at hk
    split at hk
    · exact h.sounds k volts hk
    next hge =>
      rw [List.getElem?_singleton] at hk
      split at hk
      next heq =>
        have hlast : k = s.played.length := by omega
        rw [hlast, ← Option.some.inj hk]
        exact sounds_loaded h hlt rest
      next => exact absurd hk (by simp)
  · refine ⟨rfl, ?_⟩
    dsimp only
    rw [← hscan, List.drop_left, ← hrest]
    unfold queue
    dsimp only
    rw [List.length_append, List.length_singleton]
    rfl

theorem inv_convert (h : Inv board s) (htold : Told s) :
    Inv board (convert s) ∧ Told (convert s) := by
  unfold convert
  split
  next hready =>
    refine ⟨⟨?_, h.dac, h.calm, fun hb => ?_, fun hb => ⟨(h.counted hb).counts,
      (h.counted hb).endless⟩, h.idle, fun hb hf => ?_⟩, htold⟩
    · dsimp only
      rw [List.length_drop]
      exact (Nat.sub_le ..).trans h.capacity
    · exact (carries_convert (h.carries hb) hready.2.1 hready.2.2.1).2
    · have hlt := (carries_convert (h.carries hb) hready.2.1 hready.2.2.1).1
      have hfresh := h.fresh hb hf
      refine ⟨hfresh.waiting, hfresh.sound, hfresh.sources, hfresh.inttrig, fun heoa => ?_⟩
      obtain ⟨hcounts, hplayed⟩ := hfresh.complete heoa
      have hcount := ((h.counted hb).counts hcounts).2
      omega
  next => exact ⟨h, htold⟩

end Driver

section Command

variable {board : Pci224Board} {s : Ao} {user cmd : Cmd} {list : Nat → U32} {entries : List U32}
variable {seen : U32}

/-- No channel is found twice. -/
theorem duplicates_distinct (hchan : ∀ entry ∈ entries, (crChan entry).toNat < 32)
    (h : Pci224Cmdtest.duplicates entries seen = false) :
    (∀ entry ∈ entries, seen &&& (1 : U32) <<< crChan entry = 0) ∧
      entries.Pairwise fun a b => crChan a ≠ crChan b := by
  induction entries generalizing seen with
  | nil => exact ⟨nofun, .nil⟩
  | cons entry rest ih =>
    rw [List.forall_mem_cons] at hchan
    unfold Pci224Cmdtest.duplicates at h
    rw [Bool.or_eq_false_iff, decide_eq_false_iff_not, not_not] at h
    obtain ⟨hseen, hpairs⟩ := ih hchan.2 h.2
    have hboth : ∀ other ∈ rest, seen &&& (1 : U32) <<< crChan other = 0 ∧
        (1 : U32) <<< crChan entry &&& (1 : U32) <<< crChan other = 0 := fun other hother => by
      have hzero := hseen other hother
      rw [BitVec.and_or_distrib_right] at hzero
      exact BitVec.or_eq_zero_iff.mp hzero
    refine ⟨List.forall_mem_cons.mpr ⟨h.1, fun other hother => (hboth other hother).1⟩,
      List.pairwise_cons.mpr ⟨fun other hother heq => ?_, hpairs⟩⟩
    have hzero := (hboth other hother).2
    rw [← heq, BitVec.and_self, BitVec.shiftLeft_eq'] at hzero
    have hbit := @BitFlags.one_shiftLeft_bit 32 (crChan entry).toNat _ hchan.1
    rw [show (1#32) <<< (crChan entry).toNat = 0 from hzero, decide_eq_true rfl] at hbit
    exact Bool.false_ne_true (BitVec.getLsbD_zero.symm.trans hbit)

theorem chanspec_copied {i : Nat} (hi : i < scanLen user) :
    chanspec (copied user list) i = list i := by
  change ((List.range (scanLen user)).map list).getD i 0 = list i
  rw [List.getD_eq_getElem?_getD, List.getElem?_map, List.getElem?_range hi]
  rfl

/-- A channel list that the core and the driver accept. -/
theorem listed_accepted (hlen : ¬ scanLen user < 1) (hgood : goodChans board (copied user list))
    (h : Pci224Cmdtest.badChanlist (copied user list) = false) : Listed (copied user list) := by
  have hpos : 0 < scanLen user := Nat.not_lt.mp hlen
  have hchan : ∀ i < scanLen user, chanOf (copied user list) i < 16 := fun i hi =>
    Nat.lt_of_lt_of_le (hgood i hi).1 board.chans_le
  refine ⟨hpos, hchan, ?_⟩
  have hentries : (FakeWaveform.entriesOf (copied user list).chanlist).take (scanLen user) =
      (List.range (scanLen user)).map list := by
    change ((List.range (scanLen user)).map list).take (scanLen user) = _
    exact List.take_of_length_le (by rw [List.length_map, List.length_range])
  unfold Pci224Cmdtest.badChanlist at h
  dsimp only at h
  rw [show (copied user list).chanlistLen.toNat = scanLen user from rfl, hentries] at h
  have hsome : 0 < (copied user list).chanlistLen := hpos
  rw [decide_eq_true (p := _ ∧ _) ⟨nofun, hsome⟩, Bool.true_and, Bool.or_eq_false_iff] at h
  have hin : ∀ entry ∈ (List.range (scanLen user)).map list, (crChan entry).toNat < 32 := by
    intro entry hentry
    obtain ⟨i, hi, rfl⟩ := List.mem_map.mp hentry
    have := hchan i (List.mem_range.mp hi)
    unfold chanOf at this
    rw [chanspec_copied (List.mem_range.mp hi)] at this
    omega
  have hpairs := (duplicates_distinct hin h.1).2
  rw [List.pairwise_iff_getElem] at hpairs
  have hless : ∀ i j, i < j → j < scanLen user →
      chanOf (copied user list) i ≠ chanOf (copied user list) j := by
    intro i j hij hj heq
    have hne := hpairs i j (by simpa using Nat.lt_trans hij hj) (by simpa using hj) hij
    unfold chanOf at heq
    rw [chanspec_copied (Nat.lt_trans hij hj), chanspec_copied hj] at heq
    rw [List.getElem_map, List.getElem_map, List.getElem_range, List.getElem_range] at hne
    exact hne (BitVec.eq_of_toNat_eq heq)
  intro i hi j hj heq
  rcases Nat.lt_trichotomy i j with hij | hij | hij
  · exact absurd heq (hless i j hij hj)
  · exact hij
  · exact absurd heq.symm (hless j i hij hi)

theorem rangeOf_bits (board : Pci224Board) (cmd : Cmd) :
    rangeOf board cmd &&& ~~~(dacconPolarMask ||| dacconVrefMask) = 0 := by
  unfold rangeOf
  rw [List.getD_eq_getElem?_getD]
  cases hrange : board.hwrange[(crRange (chanspec cmd 0)).toNat]? with
  | none => exact BitVec.zero_and
  | some range =>
    have hall := List.all_eq_true.mp board.range_bits range (List.mem_of_getElem? hrange)
    exact of_decide_eq_true hall

/-- The command that `pci224_ao_cmd` is given by the core. -/
structure Given (board : Pci224Board) (s : Ao) : Prop where
  list : Listed s.cmd
  sources : s.cmd.startSrc = trigExt → s.cmd.stopSrc ≠ trigExt
  buffer : s.buffer = []
  given : s.given = []
  taken : s.taken = 0
  played : s.played = []
  reported : s.reported = 0
  fresh : s.fresh = !s.started
  busy : s.busy = true

/-- What `pci224_ao_cmd` sets up, before the start is awaited. -/
def ready (board : Pci224Board) (s : Ao) : Ao :=
  { s with
    enab := aoEnab s.cmd
    scanOrder := aoScanOrder s.cmd s.scanOrder
    daccon := combine16 s.daccon (rangeOf board s.cmd ||| dacconTrigNone ||| dacconFifointrNhalf)
      (dacconPolarMask ||| dacconVrefMask ||| dacconTrigMask ||| dacconFifointrMask)
    fifo := []
    stopContinuous := ¬ counts s.cmd
    stopCount := if counts s.cmd then s.cmd.stopArg else 0 }

theorem trigOf_ready (board : Pci224Board) (s : Ao) :
    trigOf (ready board s) = dacconTrigNone := by
  have hmask : dacconTrigMask &&&
      ~~~(dacconPolarMask ||| dacconVrefMask ||| dacconTrigMask ||| dacconFifointrMask) = 0 := by
    decide
  have hrange : rangeOf board s.cmd &&& dacconTrigMask = 0 := by
    have hdisjoint : ~~~(dacconPolarMask ||| dacconVrefMask) &&& dacconTrigMask =
        dacconTrigMask := by decide
    rw [← hdisjoint, ← BitVec.and_assoc, rangeOf_bits]
    exact BitVec.zero_and
  refine (combine16_reads hmask).trans ?_
  rw [BitVec.and_or_distrib_right, BitVec.and_or_distrib_right, hrange]
  decide

theorem inv_ready (hgiven : Given board s) (hdac : s.intsce &&& intrDac ≠ 0 → s.started = true)
    {x : U8} {i : Bool} (hx : x &&& intrDac = s.intsce &&& intrDac)
    (hi : i = true → s.cmd.startSrc = trigInt) :
    Inv board { ready board s with intsce := x, inttrig := i } := by
  obtain ⟨hlist, hsources, hbuffer, hempty, htaken, hplayed, hreported, hfresh, hbusy⟩ := hgiven
  have htrig := trigOf_ready board s
  refine ⟨Nat.zero_le _, fun hne => hdac ?_, fun hb => absurd (hbusy.symm.trans hb) (by decide),
    fun hb => ?_, fun hb => ⟨fun hcounts => ?_, fun hendless => decide_eq_true hendless⟩,
    fun _ _ => htaken, fun hb hf => ?_⟩
  · rw [← hx]
    exact hne
  · refine ⟨hlist, fun i hi => scanOrder_rank hlist _ hi, ?_, ?_, ?_, fun k volts hk => ?_,
      fun _ => ⟨rfl, ?_⟩⟩
    · change s.buffer = (s.given.map _).drop _
      rw [hbuffer, hempty]
      exact List.drop_nil.symm
    · change s.taken * _ ≤ _
      rw [htaken, Nat.zero_mul]
      exact Nat.zero_le _
    · change s.played.length ≤ _
      rw [hplayed]
      exact Nat.zero_le _
    · change s.played[k]? = _ at hk
      rw [hplayed] at hk
      exact absurd hk (by simp)
    · change [] = (List.range (s.taken - s.played.length)).flatMap _
      rw [htaken, Nat.zero_sub]
      rfl
  · refine ⟨decide_eq_false (not_not.mpr hcounts), ?_⟩
    change s.taken + (if counts s.cmd then s.cmd.stopArg else 0).toNat = s.cmd.stopArg.toNat
    rw [if_pos (show counts s.cmd from hcounts), htaken, Nat.zero_add]
  · have hidle : s.started = false := by
      rw [← Bool.not_eq_true', ← hfresh]
      exact hf
    refine ⟨fun _ => ⟨hidle, htrig⟩, fun hs => absurd (hidle.symm.trans hs) (by decide), hsources,
      hi, fun heoa => absurd ?_ heoa⟩
    change s.reported &&& comediCbEoa = 0
    rw [hreported]
    exact BitVec.zero_and

theorem aoCmd_eq (board : Pci224Board) (s : Ao) (hinttrig : s.inttrig = false) :
    ∃ x i, aoCmd board s = { ready board s with intsce := x, inttrig := i } ∧
      x &&& intrDac = s.intsce &&& intrDac ∧ (i = true → s.cmd.startSrc = trigInt) := by
  have hoff : s.inttrig = true → s.cmd.startSrc = trigInt := by
    rw [hinttrig]
    exact nofun
  unfold aoCmd
  dsimp only
  split
  next hstart => exact ⟨_, _, rfl, rfl, fun _ => hstart⟩
  split
  · exact ⟨_, _, rfl, BitFlags.and_or_of_disjoint (by decide), hoff⟩
  · exact ⟨_, _, rfl, rfl, hoff⟩

theorem inv_aoCmd (hgiven : Given board s) (hdac : s.intsce &&& intrDac ≠ 0 → s.started = true)
    (hevents : s.events = 0) (hinttrig : s.inttrig = false) :
    Inv board (aoCmd board s) ∧ Told (aoCmd board s) := by
  obtain ⟨x, i, heq, hx, hi⟩ := aoCmd_eq board s hinttrig
  rw [heq]
  exact ⟨inv_ready hgiven hdac hx hi, fun _ => hevents⟩

theorem inv_doCmd (h : Inv board s) (htold : Told s) (user : Cmd) (list : Nat → U32) :
    Inv board (doCmd board s user list) ∧ Told (doCmd board s user list) := by
  unfold doCmd
  dsimp only
  split
  · exact ⟨h, htold⟩
  next hfree =>
    rw [not_or, not_or] at hfree
    split
    · exact inv_nonbusy h.capacity h.dac
    next hgood =>
      split
      · exact inv_nonbusy h.capacity h.dac
      next haccept =>
        rw [not_or, not_not, not_not] at haccept
        have haccepted := Pci224Cmdtest.accepted_iff.mp haccept.2
        have hlisted : Listed (copied user list) :=
          listed_accepted hfree.2.2 (not_not.mp hgood) haccepted.chanlist
        have hsources : (copied user list).startSrc = trigExt →
            (copied user list).stopSrc ≠ trigExt := fun hstart hstop => by
          refine haccepted.sources (.inr (.inr (.inr (.inr (.inr (.inr (.inl ⟨?_, ?_⟩)))))))
          · rw [hstart]
            decide
          · rw [hstop]
            decide
        rw [Pci224Cmdtest.accepted_cmd haccepted]
        refine inv_aoCmd ⟨⟨hlisted.pos, hlisted.chan_lt, hlisted.distinct⟩, hsources, rfl, rfl,
          rfl, rfl, rfl, rfl, rfl⟩ h.dac rfl ?_
        exact h.calm (Bool.eq_false_iff.mpr hfree.1)

theorem inv_step (h : Inv board s) (htold : Told s) (op : Op) :
    Inv board (step board s op) ∧ Told (step board s op) := by
  cases op with
  | cmd user list => exact inv_doCmd h htold user list
  | inttrig trignum => exact inv_inttrig h htold trignum
  | cancel => exact inv_cancel h htold
  | write samples => exact inv_write h htold samples
  | insnWrite chan range data => exact inv_insnWrite h htold chan range data
  | interrupt intstat => exact inv_interrupt h htold _
  | convert => exact inv_convert h htold

end Command

section Runs

variable {board : Pci224Board} {s : Ao} {intstat : U8}

theorem reached_inv (h : Reached board s) : Inv board s ∧ Told s := by
  induction h with
  | attach => exact ⟨inv_attach board, nofun⟩
  | step op _ ih => exact inv_step ih.1 ih.2 op

/-- The bits of the interrupts that the driver acts on. -/
def valid (s : Ao) (intstat : U8) : U8 := s.intsce &&& (intstatOf s intstat &&& intrBits)

theorem half_room {fill : Nat} :
    fifoRoomOnetohalf ≤ roomOf (fifoStatus fill) ↔ fill ≤ fifoSize / 2 := by
  have hempty : roomOf dacconFifoflEmpty = 4096 := by decide
  have hhalf : roomOf dacconFifoflOnetohalf = 2048 := by decide
  have hmore : roomOf dacconFifoflHalftofull = 1 := by decide
  have hfull : roomOf dacconFifoflFull = 0 := by decide
  unfold fifoStatus fifoRoomOnetohalf fifoSize
  split
  · omega
  split
  · omega
  split
  · omega
  · omega

theorem tell_eq (s : Ao) : tellCore s = { s with
    running := (tellCore s).running
    reported := (tellCore s).reported
    events := (tellCore s).events } := by
  unfold tellCore
  split
  · rw [event_eq]
  · rfl

/-- The command has come to its end, or the user has not given samples in time. -/
def Ending (s : Ao) : Prop :=
  (s.fifo = [] ∧ s.stopContinuous = false ∧ s.stopCount = 0) ∨
    (numScans s = 0 ∧ s.fifo.length ≤ fifoSize / 2)

theorem serves_fifo (hstarted : s.started = true) :
    (aoHandleFifo s).taken = s.taken + feeds s ∧
      ((aoHandleFifo s).started = false ↔ Ending s) := by
  rw [handleFifo_eq, stop_started hstarted]
  split
  next hend =>
    have hnone := (feeds_le s).trans ((numScans_le s).2 hend.2.1)
    rw [hend.2.2] at hnone
    rw [event_eq, Nat.le_zero.mp hnone]
    exact ⟨rfl, iff_of_true rfl (.inl hend)⟩
  next hgoes =>
    split
    next hunder =>
      rw [tell_eq, fed_eq]
      exact ⟨rfl, iff_of_true rfl (.inr ⟨hunder.2, half_room.mp hunder.1⟩)⟩
    next hmore =>
      rw [tell_eq, fed_eq]
      refine ⟨rfl, iff_of_false (by rw [hstarted]; exact Bool.noConfusion) ?_⟩
      rintro (hend | ⟨hnone, hhalf⟩)
      · exact hgoes hend
      · exact hmore ⟨half_room.mpr hhalf, hnone⟩

/-- Without an edge of the external trigger, only the FIFO is served. -/
theorem interrupt_fifo (hext : valid s intstat &&& intrExt = 0) :
    step board s (.interrupt intstat) =
      if valid s intstat &&& intrDac ≠ 0 then aoHandleFifo s else s := by
  change pci224Interrupt s (intstatOf s intstat) = _
  unfold valid at hext ⊢
  unfold pci224Interrupt
  dsimp only
  rw [if_neg (not_not.mpr hext)]

theorem quiet_step (h : Inv board s) (hstopped : s.started = false)
    (hext : valid s intstat &&& intrExt = 0) : step board s (.interrupt intstat) = s := by
  rw [interrupt_fifo hext, if_neg fun hdac => ?_]
  exact absurd (hstopped.symm.trans (h.dac (valid_armed hdac))) (by decide)

/-- The external trigger stops the output, and the core is not told. -/
theorem external_stop (hstarted : s.started = true) (hstart : s.cmd.startSrc ≠ trigExt)
    (hstop : s.cmd.stopSrc = trigExt) (hext : valid s intstat &&& intrExt ≠ 0)
    (hdac : valid s intstat &&& intrDac = 0) : step board s (.interrupt intstat) =
      halted { s with intsce := s.intsce &&& ~~~intrExt } := by
  have hhalted := @stop_started { s with intsce := s.intsce &&& ~~~intrExt } hstarted
  change pci224Interrupt s (intstatOf s intstat) = _
  unfold valid at hext hdac
  unfold pci224Interrupt externalTrigger
  dsimp only
  rw [if_pos hext, if_neg (not_not.mpr hdac), if_neg hstart, if_pos hstop, hhalted]

/-- The external start was awaited when the command was cancelled, and still is. -/
theorem late_start (h : Inv board s) (hb : s.busy = true) (hf : s.fresh = true)
    (hstart : s.cmd.startSrc = trigExt) (harmed : s.intsce &&& intrExt ≠ 0) :
    (step board s .cancel).busy = false ∧ (step board s .cancel).intsce = s.intsce ∧
      (step board s .cancel).cmd.startSrc = trigExt := by
  have hidle := ((h.fresh hb hf).waiting (.inr ⟨hstart, harmed⟩)).1
  change (doCancel s).busy = false ∧ (doCancel s).intsce = s.intsce ∧
    (doCancel s).cmd.startSrc = trigExt
  unfold doCancel aoCancel
  rw [if_pos hb, stop_idle hidle]
  split
  · exact ⟨rfl, rfl, hstart⟩
  · exact ⟨rfl, rfl, hstart⟩

/-- What is true of the output in every state. -/
structure Plays (board : Pci224Board) (s : Ao) : Prop where
  capacity : s.fifo.length ≤ fifoSize
  sounds : s.busy = true → ∀ k volts, s.played[k]? = some volts →
    (∀ i < scanLen s.cmd, ∃ sample, s.given[k * scanLen s.cmd + i]? = some sample ∧
        volts (chanOf s.cmd i) = some (munged board s.cmd sample)) ∧
      ∀ c, (∀ i < scanLen s.cmd, chanOf s.cmd i ≠ c) → volts c = none
  counted : s.busy = true → counts s.cmd → s.played.length ≤ s.cmd.stopArg.toNat
  complete : s.busy = true → s.fresh = true → s.reported &&& comediCbEoa ≠ 0 →
    counts s.cmd ∧ s.played.length = s.cmd.stopArg.toNat
  waiting : s.busy = true → s.fresh = true → Waiting s → s.started = false ∧ s.played = []
  quiet : s.started = false → ∀ intstat, valid s intstat &&& intrExt = 0 →
    step board s (.interrupt intstat) = s
  serves : s.started = true → ∀ intstat, valid s intstat &&& intrExt = 0 →
    valid s intstat &&& intrDac ≠ 0 →
      (step board s (.interrupt intstat)).taken = s.taken + feeds s ∧
        ((step board s (.interrupt intstat)).started = false ↔ Ending s)
  stopped : s.started = true → s.cmd.startSrc ≠ trigExt → s.cmd.stopSrc = trigExt →
    ∀ intstat, valid s intstat &&& intrExt ≠ 0 → valid s intstat &&& intrDac = 0 →
      (step board s (.interrupt intstat)).started = false ∧
        (step board s (.interrupt intstat)).running = s.running ∧
        (step board s (.interrupt intstat)).reported = s.reported
  late : s.busy = true → s.fresh = true → s.cmd.startSrc = trigExt → s.intsce &&& intrExt ≠ 0 →
    (step board s .cancel).busy = false ∧ (step board s .cancel).intsce = s.intsce ∧
      (step board s .cancel).cmd.startSrc = trigExt

/-- Every sample that was given is played once, on its channel and in its scan, whatever the
interrupts, the triggers and the user do. -/
theorem plays (h : Reached board s) : Plays board s := by
  have hinv := (reached_inv h).1
  refine ⟨hinv.capacity, fun hb k volts hk => ?_, fun hb hcounts => ?_, fun hb hf => ?_,
    fun hb hf hwait => ?_, fun hidle _ => quiet_step hinv hidle,
    fun hstarted intstat hext hdac => ?_, fun hstarted hstart hstop intstat hext hdac => ?_,
    fun hb hf => late_start hinv hb hf⟩
  · have hcarries := hinv.carries hb
    obtain ⟨hlisted, hothers⟩ := hcarries.sounds k volts hk
    refine ⟨fun i hi => ?_, hothers⟩
    have hklt : k < s.played.length := (List.getElem?_eq_some_iff.mp hk).1
    have hin := scan_taken hcarries (Nat.lt_of_lt_of_le hklt hcarries.behind)
    unfold stream at hin hlisted
    rw [List.length_map] at hin
    have hsample : k * scanLen s.cmd + i < s.given.length := by omega
    refine ⟨_, List.getElem?_eq_getElem hsample, ?_⟩
    rw [hlisted i hi, List.getElem?_map, List.getElem?_eq_getElem hsample]
    rfl
  · have hcount := ((hinv.counted hb).counts hcounts).2
    have hbehind := (hinv.carries hb).behind
    omega
  · exact (hinv.fresh hb hf).complete
  · obtain ⟨hidle, htrig⟩ := (hinv.fresh hb hf).waiting hwait
    have hbehind := (hinv.carries hb).behind
    rw [hinv.idle hb htrig] at hbehind
    exact ⟨hidle, List.eq_nil_of_length_eq_zero (Nat.le_zero.mp hbehind)⟩
  · rw [interrupt_fifo hext, if_pos hdac]
    exact serves_fifo hstarted
  · rw [external_stop hstarted hstart hstop hext hdac]
    exact ⟨rfl, rfl, rfl⟩

theorem reached_run (h : Reached board s) (ops : List Op) :
    Reached board (ops.foldl (step board) s) := by
  induction ops generalizing s with
  | nil => exact h
  | cons op ops ih => exact ih (.step op h)

/-- Three scans of the channels 5 and 2. -/
def twoChannels : Cmd :=
  { startSrc := trigInt, scanBeginSrc := RtTimer.trigTimer, scanBeginArg := 10000,
    convertSrc := RtTimer.trigNow, scanEndSrc := RtTimer.trigCount, scanEndArg := 2,
    stopSrc := RtTimer.trigCount, stopArg := 3, chanlistLen := 2 }

theorem plays_two_channels :
    let ops : List Op := [.cmd twoChannels fun i => if i = 0 then 5 else 2,
      .write [1, 2, 3, 4, 5, 6], .inttrig 0, .interrupt intrDac, .convert, .convert, .convert,
      .interrupt intrDac]
    let s := ops.foldl (step pci224Internal) {}
    (s.played.map fun volts => (volts 5, volts 2, volts 3)) =
        [(some 0x8010, some 0x8020, none), (some 0x8030, some 0x8040, none),
          (some 0x8050, some 0x8060, none)] ∧
      s.reported &&& comediCbEoa ≠ 0 ∧ Plays pci224Internal s := by
  exact ⟨by decide, by decide, plays (reached_run .attach _)⟩

end Runs

end Comedi.Pci224OutputRuns
