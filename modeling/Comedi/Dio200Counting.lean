import Comedi.BitFlags
import Comedi.Dio200Intr

namespace Comedi.Dio200Counting

open RtTimer (trigNow trigCount trigInt)
open SampleSink (endBits)
open ChanlistCheck FakeWaveform Dio200Intr Gathering

/-- The source that the entry `n` of the channel list is for. -/
def source (cmd : Cmd) (n : Nat) : Nat := (crChan (chanspec cmd n)).toNat

/-- The core has copied the channel list, and has found its length and its channels in range. -/
structure Admitted (layout : Dio200Layout) (cmd : Cmd) : Prop where
  kernel : ∃ entries, cmd.chanlist = .kernel entries
  len : cmd.chanlistLen.toNat ≤ nChan layout
  chans : ∀ n < cmd.chanlistLen.toNat, source cmd n < nChan layout

/-- The state in which a command meets the subdevice. The core has reset the buffer. -/
structure Idle (layout : Dio200Layout) (st : Intr) : Prop where
  active : st.active = false
  enabled : st.enabledIsns = 0
  register : layout.hasIntSce = true → st.intSce = 0
  out : st.out = []
  events : st.events = 0
  raised : st.raised = []

/-- What holds of the subdevice outside its functions, once the command has been started. -/
structure Counting (layout : Dio200Layout) (cmd : Cmd) (st : Intr) : Prop where
  register : layout.hasIntSce = true → st.intSce.setWidth 32 = st.enabledIsns
  listed : st.enabledIsns = 0 ∨ st.enabledIsns = isnBits cmd &&& layout.sdinfo
  idle : st.active = false → st.enabledIsns = 0
  events : st.events = 0
  mode : st.continuous = true ↔ cmd.stopSrc ≠ trigCount
  remaining : cmd.stopSrc = trigCount → st.active = true →
    st.out.length + st.stopcount.toNat = cmd.stopArg.toNat
  pending : cmd.stopSrc = trigCount → st.active = true → st.stopcount = 0 →
    cmd.stopArg = 0 ∧ st.enabledIsns = 0
  bound : cmd.stopSrc = trigCount → st.out.length ≤ cmd.stopArg.toNat
  ended : ∀ e ∈ st.raised, e &&& endBits ≠ 0 → st.active = false
  eoa : cmd.stopSrc = trigCount → cmd.stopArg ≠ 0 →
    (∀ e ∈ st.raised, e &&& comediCbError = 0) →
    ((∃ e ∈ st.raised, e &&& comediCbEoa ≠ 0) ↔ st.out.length = cmd.stopArg.toNat)
  once : (st.raised.filter fun e => e &&& comediCbEoa ≠ 0).length ≤ 1

variable {layout : Dio200Layout} {cmd : Cmd} {st st' : Intr} {readings : Nat → Byte} {n : Nat}

/-- The source has triggered, of which a board without the status register has but one. -/
def Triggered (layout : Dio200Layout) (readings : Nat → Byte) (n : Nat) (chan : Nat) : Prop :=
  if layout.hasIntSce then ∃ k < n, (readings k).getLsbD chan = true else chan = 0

/-- A source that is enabled has triggered. -/
def Hit (layout : Dio200Layout) (readings : Nat → Byte) (n : Nat) (st : Intr) : Prop :=
  ∃ chan, st.enabledIsns.getLsbD chan = true ∧ Triggered layout readings n chan

/-- How an interrupt whose readings end with number `n` goes. -/
structure Counted (layout : Dio200Layout) (cmd : Cmd) (readings : Nat → Byte) (n : Nat)
    (room : Bool) (st st' : Intr) : Prop where
  none : ¬ Hit layout readings n st → st' = st
  sample : Hit layout readings n st → room = true → ∃ val ev,
    st'.out = st.out ++ [val] ∧ st'.raised = st.raised ++ [ev] ∧
      (∀ i < 16, val.getLsbD i = true ↔
        i < cmd.chanlistLen.toNat ∧ Triggered layout readings n (source cmd i)) ∧
      ev &&& (comediCbError ||| comediCbOverflow) = 0 ∧
      (ev &&& comediCbEoa ≠ 0 ↔
        cmd.stopSrc = trigCount ∧ st'.out.length = cmd.stopArg.toNat)
  full : Hit layout readings n st → room = false →
    st'.out = st.out ∧ st'.active = false ∧ ∃ ev, st'.raised = st.raised ++ [ev] ∧
      ev &&& comediCbError ≠ 0 ∧ ev &&& comediCbOverflow ≠ 0

theorem layouts_cases (name : LayoutName) :
    dio200Layouts name = ⟨0x3f, true⟩ ∨ dio200Layouts name = ⟨0x01, false⟩ := by
  cases name with
  | pc214 => exact .inr rfl
  | _ => exact .inl rfl

/-- The valid sources are the channels of the subdevice. -/
theorem sdinfo_bit (name : LayoutName) {i : Nat} (hi : i < 32) :
    (dio200Layouts name).sdinfo.getLsbD i = true ↔ i < nChan (dio200Layouts name) := by
  have hsix : ∀ i < 32, (0x3f : U32).getLsbD i = true ↔ i < 6 := by decide
  have hone : ∀ i < 32, (0x01 : U32).getLsbD i = true ↔ i < 1 := by decide
  rcases layouts_cases name with h | h
  · rw [h]
    exact hsix i hi
  · rw [h]
    exact hone i hi

theorem nChan_le (layout : Dio200Layout) : nChan layout ≤ 6 := by
  unfold nChan dio200MaxIsns
  split <;> decide

theorem Admitted.chan_lt (h : Admitted layout cmd) {n : Nat} (hn : n < cmd.chanlistLen.toNat) :
    source cmd n < 32 := by
  have := h.chans n hn
  have := nChan_le layout
  omega

section Bits

theorem isnBits_bit (h : Admitted layout cmd) {i : Nat} (hi : i < 32) :
    (isnBits cmd).getLsbD i = true ↔ ∃ n < cmd.chanlistLen.toNat, source cmd n = i := by
  obtain ⟨entries, hlist⟩ := h.kernel
  have hset : ∀ (v : U32) m, (v ||| (1 : U32) <<< source cmd m).getLsbD i = true ↔
      v.getLsbD i = true ∨ source cmd m = i := fun v m => by
    rw [BitVec.getLsbD_or, Bool.or_eq_true, show (1 : U32) = 1#32 from rfl,
      BitFlags.one_shiftLeft_bit hi, decide_eq_true_iff, eq_comm (a := i)]
  unfold isnBits
  rw [if_neg (by rw [hlist]; nofun)]
  refine (BitFlags.foldl_range_bit hset _ 0).trans ?_
  simp

theorem scanVal_bit (h : Admitted layout cmd) {triggered : U32} {i : Nat} (hi : i < 16) :
    (scanVal cmd triggered).getLsbD i = true ↔
      i < cmd.chanlistLen.toNat ∧ triggered.getLsbD (source cmd i) = true := by
  have hset : ∀ (v : U16) m,
      (if triggered &&& (1 : U32) <<< source cmd m ≠ 0 then v ||| (1 : U16) <<< m
        else v).getLsbD i = true ↔
      v.getLsbD i = true ∨ (triggered &&& (1 : U32) <<< source cmd m ≠ 0 ∧ m = i) := by
    intro v m
    split
    next hbit =>
      rw [BitVec.getLsbD_or, Bool.or_eq_true, show (1 : U16) = 1#16 from rfl,
        BitFlags.one_shiftLeft_bit hi, decide_eq_true_iff, eq_comm (a := i)]
      exact or_congr_right (and_iff_right hbit).symm
    next hbit => exact (or_iff_left fun h => hbit h.1).symm
  unfold scanVal
  refine (BitFlags.foldl_range_bit hset _ 0).trans ?_
  constructor
  · rintro (hzero | ⟨m, hm, hbit, rfl⟩)
    · simp at hzero
    · exact ⟨hm, (BitFlags.and_one_shiftLeft_ne (h.chan_lt hm)).mp hbit⟩
  · rintro ⟨hlt, hbit⟩
    exact .inr ⟨i, hlt, (BitFlags.and_one_shiftLeft_ne (h.chan_lt hlt)).mpr hbit, rfl⟩

end Bits

section Loop

theorem collectIsns_triggered {valid : U32} (fuel : Nat) (readings : Nat → Byte) (c : Collected) :
    (collectIsns valid fuel readings c).map Collected.triggered =
      gather valid fuel (fun k => (readings k).setWidth 32) c.triggered := by
  induction fuel generalizing readings c with
  | zero => rfl
  | succ fuel ih =>
    unfold collectIsns gather
    split
    next h => rw [if_pos h]; rfl
    next h =>
      rw [if_neg h]
      exact ih _ _

/-- The loop ends. If it has found nothing, it has written nothing. -/
theorem collectIsns_spec (valid : U32) (readings : Nat → Byte) (c : Collected)
    (hc : c.triggered = 0) :
    ∃ n c', collectIsns valid 33 readings c = some c' ∧
      FirstQuiet valid 0 (fun k => (readings k).setWidth 32) n ∧
      (∀ i, c'.triggered.getLsbD i = true ↔
        valid.getLsbD i = true ∧ ∃ k < n, (readings k).getLsbD i = true) ∧
      (c'.triggered = 0 → c' = c) := by
  obtain ⟨n, t, hrun, hquiet, hbits⟩ := gather_spec valid c.triggered
    (fun k => (readings k).setWidth 32) (Nat.lt_succ_of_le unseen_card_le)
  rw [← collectIsns_triggered, Option.map_eq_some_iff] at hrun
  obtain ⟨c', hrun, rfl⟩ := hrun
  rw [hc] at hquiet
  have hbits' : ∀ i, c'.triggered.getLsbD i = true ↔
      valid.getLsbD i = true ∧ ∃ k < n, (readings k).getLsbD i = true := by
    intro i
    rw [hbits, hc]
    simp only [BitVec.getLsbD_setWidth]
    constructor
    · rintro (hz | ⟨hv, k, hk, hb⟩)
      · simp at hz
      · exact ⟨hv, k, hk, (Bool.and_eq_true _ _ ▸ hb).2⟩
    · rintro ⟨hv, k, hk, hb⟩
      exact .inr ⟨hv, k, hk, by simp [hb, BitVec.lt_of_getLsbD hv]⟩
  refine ⟨n, c', hrun, hquiet, hbits', fun hzero => ?_⟩
  unfold collectIsns at hrun
  by_cases hfirst : (readings 0).setWidth 32 &&& valid &&& ~~~c.triggered = 0
  · rw [if_pos hfirst] at hrun
    exact (Option.some.inj hrun).symm
  · obtain ⟨i, -, hv, hx, -⟩ := new_flag hfirst
    cases n with
    | zero =>
      rcases hquiet.quiet i hv hx with hz | ⟨k, hk, -⟩
      · simp at hz
      · exact absurd hk (Nat.not_lt_zero k)
    | succ n =>
      have hbit := (hbits' i).mpr ⟨hv, 0, Nat.succ_pos n, by
        rw [BitVec.getLsbD_setWidth] at hx
        exact (Bool.and_eq_true _ _ ▸ hx).2⟩
      rw [hzero] at hbit
      simp at hbit

end Loop

section Interrupt

variable {room : Bool} {val : U16}

/-- What becomes of a scan, before the events are passed on. -/
inductive Scanned (layout : Dio200Layout) (val : U16) (st : Intr) : Bool → Intr → Prop
  | goesOn (count : U32)
      (hcount : st.continuous = true ∨
        st.continuous = false ∧ count = st.stopcount - 1 ∧ count ≠ 0) :
      Scanned layout val st true { st with
        out := st.out ++ [val]
        stopcount := count
        events := comediCbBlock ||| comediCbEos }
  | last (intSce : Byte) (hregister : layout.hasIntSce = true → intSce = 0)
      (hmode : st.continuous = false) (hcount : st.stopcount = 1) :
      Scanned layout val st true { st with
        active := false
        enabledIsns := 0
        intSce := intSce
        out := st.out ++ [val]
        stopcount := 0
        events := comediCbBlock ||| comediCbEos ||| comediCbEoa }
  | full (intSce : Byte) (hregister : layout.hasIntSce = true → intSce = 0) (count ev : U32)
      (herror : ev &&& comediCbError ≠ 0) (hoverflow : ev &&& comediCbOverflow ≠ 0) :
      Scanned layout val st false { st with
        active := false
        enabledIsns := 0
        intSce := intSce
        stopcount := count
        events := ev }

theorem Scanned.events_ne_zero (h : Scanned layout val st room st') : st'.events ≠ 0 := by
  cases h with
  | goesOn count hcount => exact (by decide : comediCbBlock ||| comediCbEos ≠ 0)
  | last intSce hregister hmode hcount =>
    exact (by decide : comediCbBlock ||| comediCbEos ||| comediCbEoa ≠ 0)
  | full intSce hregister count ev herror hoverflow =>
    intro (hzero : ev = 0)
    subst hzero
    exact herror BitVec.zero_and

theorem writeScan_true (hevents : st.events = 0) :
    writeScan layout true val st =
      { st with out := st.out ++ [val], events := comediCbBlock ||| comediCbEos } := by
  change { st with
    out := st.out ++ [val]
    events := st.events ||| (comediCbBlock ||| comediCbEos) } = _
  rw [hevents]
  rfl

theorem writeScan_false (hevents : st.events = 0) :
    writeScan layout false val st = { st with
      active := false
      enabledIsns := 0
      intSce := if layout.hasIntSce then 0 else st.intSce
      events := comediCbError ||| comediCbOverflow } := by
  change { st with
    active := false
    enabledIsns := 0
    intSce := if layout.hasIntSce then 0 else st.intSce
    events := st.events ||| comediCbError ||| (comediCbError ||| comediCbOverflow) } = _
  rw [hevents]
  rfl

theorem countScan_cases (layout : Dio200Layout) (st : Intr) :
    (st.continuous = true ∨ st.stopcount = 0) ∧ countScan layout st = st ∨
    st.continuous = false ∧ st.stopcount - 1 ≠ 0 ∧
      countScan layout st = { st with stopcount := st.stopcount - 1 } ∨
    st.continuous = false ∧ st.stopcount = 1 ∧ countScan layout st = { st with
      active := false
      enabledIsns := 0
      intSce := if layout.hasIntSce then 0 else st.intSce
      stopcount := 0
      events := st.events ||| comediCbEoa } := by
  unfold countScan
  split
  next h =>
    have hmode : st.continuous = false := Bool.eq_false_iff.mpr h.1
    dsimp only
    split
    next hzero =>
      have hone : st.stopcount = 1 := by bv_omega
      exact .inr (.inr ⟨hmode, hone, by rw [hone]; rfl⟩)
    next hmore => exact .inr (.inl ⟨hmode, hmore, rfl⟩)
  next h =>
    refine .inl ⟨?_, rfl⟩
    by_contra hnot
    push Not at hnot
    exact h ⟨hnot.1, by have := hnot.2; bv_omega⟩

theorem scanned (hevents : st.events = 0) (hmore : st.continuous = true ∨ st.stopcount ≠ 0) :
    Scanned layout val st room (countScan layout (writeScan layout room val st)) := by
  cases room with
  | true =>
    rw [writeScan_true hevents]
    rcases countScan_cases layout _ with ⟨hmode, heq⟩ | ⟨hmode, hcount, heq⟩ | ⟨hmode, hone, heq⟩
    · rw [heq]
      have hcontinuous : st.continuous = true :=
        hmore.elim id fun h => hmode.resolve_right h
      exact .goesOn st.stopcount (.inl hcontinuous)
    · rw [heq]
      exact .goesOn (st.stopcount - 1) (.inr ⟨hmode, rfl, hcount⟩)
    · rw [heq]
      exact .last _ (fun h => if_pos h) hmode hone
  | false =>
    rw [writeScan_false hevents]
    rcases countScan_cases layout _ with ⟨-, heq⟩ | ⟨-, -, heq⟩ | ⟨-, -, heq⟩
    · rw [heq]
      exact .full _ (fun h => if_pos h) _ (comediCbError ||| comediCbOverflow)
        (by decide) (by decide)
    · rw [heq]
      exact .full _ (fun h => if_pos h) _ (comediCbError ||| comediCbOverflow)
        (by decide) (by decide)
    · rw [heq]
      exact .full _ (fun h => if_pos h) 0 (comediCbError ||| comediCbOverflow ||| comediCbEoa)
        (by decide) (by decide)

theorem Counting.chan_lt {name : LayoutName} (h : Counting (dio200Layouts name) cmd st) {chan : Nat}
    (hbit : st.enabledIsns.getLsbD chan = true) : chan < nChan (dio200Layouts name) := by
  have hlt : chan < 32 := BitVec.lt_of_getLsbD hbit
  rcases h.listed with hzero | hlist
  · rw [hzero] at hbit
    simp at hbit
  · rw [hlist, BitVec.getLsbD_and, Bool.and_eq_true] at hbit
    exact (sdinfo_bit name hlt).mp hbit.2

/-- The status is read to its end, and nothing else of the state changes. Where no source has
triggered the register is not written. -/
theorem triggeredIsns_spec {name : LayoutName} (h : Counting (dio200Layouts name) cmd st)
    (readings : Nat → Byte) :
    ∃ n t intSce, triggeredIsns (dio200Layouts name) readings st =
        some (t, { st with intSce := intSce }) ∧
      ((dio200Layouts name).hasIntSce = true →
        FirstQuiet (dio200Layouts name).sdinfo 0 (fun k => (readings k).setWidth 32) n) ∧
      ((dio200Layouts name).hasIntSce = false ∨ t = 0 → intSce = st.intSce) ∧
      ∀ chan, st.enabledIsns.getLsbD chan = true →
        (t.getLsbD chan = true ↔ Triggered (dio200Layouts name) readings n chan) := by
  unfold triggeredIsns Triggered
  cases hsce : (dio200Layouts name).hasIntSce with
  | true =>
    obtain ⟨n, c, hrun, hquiet, hbits, hnothing⟩ := collectIsns_spec
      (dio200Layouts name).sdinfo readings ⟨0, st.enabledIsns, st.intSce⟩ rfl
    refine ⟨n, c.triggered, c.intSce, by rw [if_pos rfl, hrun]; rfl, fun _ => hquiet, ?_, ?_⟩
    · rintro (hno | hzero)
      · cases hno
      · rw [hnothing hzero]
    · intro chan hbit
      rw [hbits, if_pos rfl]
      exact and_iff_right ((sdinfo_bit name (BitVec.lt_of_getLsbD hbit)).mpr (h.chan_lt hbit))
  | false =>
    refine ⟨0, st.enabledIsns, st.intSce, by rw [if_neg Bool.false_ne_true], nofun, fun _ => rfl, ?_⟩
    intro chan hbit
    have hlt := h.chan_lt hbit
    unfold nChan at hlt
    rw [hsce, if_neg Bool.false_ne_true] at hlt
    rw [if_neg Bool.false_ne_true]
    exact iff_of_true hbit (Nat.lt_one_iff.mp hlt)

/-- The register is given the sources back that were disabled in the loop. -/
theorem Counting.restore (h : Counting layout cmd st) {intSce : Byte}
    (hsame : layout.hasIntSce = false → intSce = st.intSce) :
    writeIntSce layout st.enabledIsns { st with intSce := intSce } = st := by
  have hregister :
      (if layout.hasIntSce then st.enabledIsns.setWidth 8 else intSce) = st.intSce := by
    cases hsce : layout.hasIntSce with
    | true => rw [if_pos rfl, ← h.register hsce, BitVec.setWidth_setWidth_of_le _ (by decide),
        BitVec.setWidth_eq]
    | false => rw [if_neg Bool.false_ne_true, hsame hsce]
  unfold writeIntSce
  dsimp only
  rw [hregister]

theorem hit_iff {t : U32}
    (ht : ∀ chan, st.enabledIsns.getLsbD chan = true →
      (t.getLsbD chan = true ↔ Triggered layout readings n chan)) :
    Hit layout readings n st ↔ t &&& st.enabledIsns ≠ 0 := by
  rw [BitFlags.ne_zero_iff_bit]
  refine exists_congr fun chan => ?_
  rw [BitVec.getLsbD_and, Bool.and_eq_true, and_comm]
  exact and_congr_left fun hbit => (ht chan hbit).symm

/-- An interrupt leaves the state as it is, or takes a scan. -/
theorem handle_cases {name : LayoutName} (h : Counting (dio200Layouts name) cmd st)
    (readings : Nat → Byte) (room : Bool) :
    ∃ n t handled st',
      dio200HandleReadIntr (dio200Layouts name) cmd readings room st = some (handled, st') ∧
      ((dio200Layouts name).hasIntSce = true →
        FirstQuiet (dio200Layouts name).sdinfo 0 (fun k => (readings k).setWidth 32) n) ∧
      (∀ chan, st.enabledIsns.getLsbD chan = true →
        (t.getLsbD chan = true ↔ Triggered (dio200Layouts name) readings n chan)) ∧
      (¬ Hit (dio200Layouts name) readings n st ∧ st' = st ∨
        Hit (dio200Layouts name) readings n st ∧ st.active = true ∧
          ∃ st₁, Scanned (dio200Layouts name) (scanVal cmd t) st room st₁ ∧
            st' = comediEvent st₁) := by
  obtain ⟨n, t, intSce, hrun, hquiet, hsame, ht⟩ := triggeredIsns_spec h readings
  have hhit := hit_iff ht
  unfold dio200HandleReadIntr
  rw [hrun]
  simp only [Option.bind_eq_bind, Option.bind_some]
  by_cases hzero : t = 0
  · have hnot : ¬ Hit (dio200Layouts name) readings n st := by
      rw [hhit, hzero]
      exact fun hne => hne BitVec.zero_and
    refine ⟨n, t, _, _, rfl, hquiet, ht, .inl ⟨hnot, ?_⟩⟩
    rw [if_neg (show ¬ t ≠ 0 from fun hne => hne hzero), hsame (.inr hzero),
      if_neg fun hne => hne rfl]
  · rw [if_pos hzero, h.restore fun hsce => hsame (.inl hsce)]
    by_cases hscan : st.active = true ∧ t &&& st.enabledIsns ≠ 0
    · have hmore : st.continuous = true ∨ st.stopcount ≠ 0 := by
        by_contra hnot
        push Not at hnot
        have hcount : cmd.stopSrc = trigCount := by
          by_contra hne
          exact hnot.1 (h.mode.mpr hne)
        rw [(h.pending hcount hscan.1 hnot.2).2] at hscan
        exact hscan.2 BitVec.and_zero
      have hscanned : Scanned (dio200Layouts name) (scanVal cmd t) st room _ :=
        scanned h.events hmore
      refine ⟨n, t, _, _, rfl, hquiet, ht, .inr ⟨hhit.mpr hscan.2, hscan.1, _, hscanned, ?_⟩⟩
      rw [if_pos hscan, h.events, if_pos hscanned.events_ne_zero.symm]
    · have hnot : ¬ Hit (dio200Layouts name) readings n st := by
        rintro hyes
        have hne := hhit.mp hyes
        refine hscan ⟨?_, hne⟩
        by_contra hinactive
        rw [h.idle (Bool.eq_false_iff.mpr hinactive)] at hne
        exact hne BitVec.and_zero
      refine ⟨n, t, _, _, rfl, hquiet, ht, .inl ⟨hnot, ?_⟩⟩
      rw [if_neg hscan, if_neg fun hne => hne rfl]

end Interrupt

section Invariant

variable {room : Bool} {val : U16} {name : LayoutName}

theorem goesOn_events : (comediCbBlock ||| comediCbEos) &&& endBits = 0 ∧
    (comediCbBlock ||| comediCbEos) &&& comediCbEoa = 0 := by
  decide

theorem last_events : (comediCbBlock ||| comediCbEos ||| comediCbEoa) &&& comediCbEoa ≠ 0 := by
  decide

theorem eoa_of_ends {e : U32} (h : e &&& comediCbEoa ≠ 0) : e &&& endBits ≠ 0 := by
  intro hzero
  refine h ?_
  rw [show comediCbEoa = endBits &&& comediCbEoa from by decide, ← BitVec.and_assoc, hzero]
  exact BitVec.zero_and

/-- While the command is active nothing has been raised that ends it. -/
theorem Counting.not_ended (h : Counting layout cmd st) (hactive : st.active = true) :
    ¬ ∃ e ∈ st.raised, e &&& comediCbEoa ≠ 0 := by
  rintro ⟨e, he, heoa⟩
  have hstopped := h.ended e he (eoa_of_ends heoa)
  rw [hactive] at hstopped
  cases hstopped

theorem Counting.raise_once (h : Counting layout cmd st) (hactive : st.active = true) (e : U32) :
    ((st.raised ++ [e]).filter fun e => e &&& comediCbEoa ≠ 0).length ≤ 1 := by
  have hnone : (st.raised.filter fun e => e &&& comediCbEoa ≠ 0) = [] := by
    rw [List.filter_eq_nil_iff]
    intro e he heoa
    exact h.not_ended hactive ⟨e, he, of_decide_eq_true heoa⟩
  rw [List.filter_append, hnone, List.nil_append]
  exact List.length_filter_le _ _

theorem Counting.mode_false (h : Counting layout cmd st) (hcount : cmd.stopSrc = trigCount) :
    st.continuous = false :=
  Bool.eq_false_iff.mpr fun hmode => h.mode.mp hmode hcount

theorem Counting.of_scanned (h : Counting layout cmd st) (hactive : st.active = true)
    (henabled : st.enabledIsns ≠ 0) (hscan : Scanned layout val st room st') :
    Counting layout cmd (comediEvent st') := by
  have hpos : cmd.stopSrc = trigCount → st.stopcount.toNat ≠ 0 := fun hcount hzero =>
    henabled (h.pending hcount hactive (BitVec.eq_of_toNat_eq hzero)).2
  cases hscan with
  | goesOn count hmode =>
    have hless : cmd.stopSrc = trigCount →
        count ≠ 0 ∧ st.out.length + 1 + count.toNat = cmd.stopArg.toNat := by
      intro hcount
      have hrem := h.remaining hcount hactive
      have := hpos hcount
      rcases hmode with hcont | ⟨-, rfl, hne⟩
      · rw [h.mode_false hcount] at hcont
        cases hcont
      · exact ⟨hne, by bv_omega⟩
    have hlength : (st.out ++ [val]).length = st.out.length + 1 := by
      rw [List.length_append, List.length_singleton]
    exact {
      register := h.register
      listed := h.listed
      idle := h.idle
      events := rfl
      mode := h.mode
      remaining := fun hcount _ => by
        change (st.out ++ [val]).length + count.toNat = _
        rw [hlength]
        exact (hless hcount).2
      pending := fun hcount _ hzero => absurd hzero (hless hcount).1
      bound := fun hcount => by
        change (st.out ++ [val]).length ≤ _
        have := (hless hcount).2
        omega
      ended := fun e he hend => by
        rcases List.mem_append.mp he with hold | hnew
        · exact h.ended e hold hend
        · rw [List.mem_singleton.mp hnew] at hend
          exact absurd goesOn_events.1 hend
      eoa := fun hcount _ _ => by
        refine iff_of_false ?_ ?_
        · rintro ⟨e, he, heoa⟩
          rcases List.mem_append.mp he with hold | hnew
          · exact h.not_ended hactive ⟨e, hold, heoa⟩
          · rw [List.mem_singleton.mp hnew] at heoa
            exact absurd goesOn_events.2 heoa
        · change ¬ (st.out ++ [val]).length = _
          have := hless hcount
          have : count.toNat ≠ 0 := fun hzero => this.1 (BitVec.eq_of_toNat_eq hzero)
          omega
      once := h.raise_once hactive _ }
  | last intSce hregister hmode hone =>
    have hlength : cmd.stopSrc = trigCount → (st.out ++ [val]).length = cmd.stopArg.toNat := by
      intro hcount
      have hrem := h.remaining hcount hactive
      rw [hone] at hrem
      rw [List.length_append, List.length_singleton]
      exact hrem
    exact {
      register := fun hsce => by
        change intSce.setWidth 32 = 0
        rw [hregister hsce]
        rfl
      listed := .inl rfl
      idle := fun _ => rfl
      events := rfl
      mode := h.mode
      remaining := fun _ => nofun
      pending := fun _ => nofun
      bound := fun hcount => le_of_eq (hlength hcount)
      ended := fun _ _ _ => rfl
      eoa := fun hcount _ _ => iff_of_true
        ⟨_, List.mem_append_right _ (List.mem_singleton_self _), last_events⟩ (hlength hcount)
      once := h.raise_once hactive _ }
  | full intSce hregister count ev herror hoverflow =>
    exact {
      register := fun hsce => by
        change intSce.setWidth 32 = 0
        rw [hregister hsce]
        rfl
      listed := .inl rfl
      idle := fun _ => rfl
      events := rfl
      mode := h.mode
      remaining := fun _ => nofun
      pending := fun _ => nofun
      bound := h.bound
      ended := fun _ _ _ => rfl
      eoa := fun _ _ hnone =>
        absurd (hnone ev (List.mem_append_right _ (List.mem_singleton_self _))) herror
      once := h.raise_once hactive _ }

theorem Counting.stop (h : Counting layout cmd st) : Counting layout cmd (dio200StopIntr layout st) where
  register hsce := by
    unfold dio200StopIntr writeIntSce
    dsimp only
    rw [if_pos hsce]
    rfl
  listed := .inl rfl
  idle _ := rfl
  events := h.events
  mode := h.mode
  remaining _ := nofun
  pending _ := nofun
  bound := h.bound
  ended _ _ _ := rfl
  eoa := h.eoa
  once := h.once

theorem Counting.cancel (h : Counting layout cmd st) :
    Counting layout cmd (dio200SubdevIntrCancel layout st) ∧
      (dio200SubdevIntrCancel layout st).active = false := by
  unfold dio200SubdevIntrCancel
  split
  next hactive => exact ⟨h.stop, rfl⟩
  next hactive => exact ⟨h, Bool.eq_false_iff.mpr hactive⟩

/-- The sources fit the register. -/
theorem isnBits_byte (name : LayoutName) (cmd : Cmd) :
    ((isnBits cmd &&& (dio200Layouts name).sdinfo).setWidth 8).setWidth 32 =
      isnBits cmd &&& (dio200Layouts name).sdinfo := by
  apply BitVec.eq_of_getLsbD_eq
  intro i hi
  rw [BitVec.getLsbD_setWidth, BitVec.getLsbD_setWidth, decide_eq_true hi, Bool.true_and]
  by_cases hlow : i < 8
  · rw [decide_eq_true hlow, Bool.true_and]
  · have hvalid : (dio200Layouts name).sdinfo.getLsbD i = false := by
      rw [Bool.eq_false_iff, ne_eq, sdinfo_bit name hi]
      have := nChan_le (dio200Layouts name)
      omega
    rw [decide_eq_false hlow, Bool.false_and, BitVec.getLsbD_and, hvalid, Bool.and_false]

theorem Counting.start (h : Counting (dio200Layouts name) cmd st) (hactive : st.active = true)
    {event : Bool} (hstart : dio200StartIntr (dio200Layouts name) cmd st = (event, st')) :
    Counting (dio200Layouts name) cmd (if event then comediEvent st' else st') := by
  unfold dio200StartIntr at hstart
  split at hstart
  next hempty =>
    cases hstart
    have hcount : cmd.stopSrc = trigCount := by
      by_contra hne
      exact hempty.1 (h.mode.mpr hne)
    obtain ⟨harg, hnone⟩ := h.pending hcount hactive hempty.2
    rw [if_pos rfl]
    exact {
      register := h.register
      listed := h.listed
      idle := fun _ => hnone
      events := rfl
      mode := h.mode
      remaining := fun _ => nofun
      pending := fun _ => nofun
      bound := h.bound
      ended := fun _ _ _ => rfl
      eoa := fun _ hne => absurd harg hne
      once := h.raise_once hactive _ }
  next hmore =>
    cases hstart
    rw [if_neg Bool.false_ne_true]
    exact {
      register := fun hsce => by
        unfold writeIntSce
        dsimp only
        rw [if_pos hsce]
        exact isnBits_byte name cmd
      listed := .inr rfl
      idle := fun hinactive => by
        change st.active = false at hinactive
        rw [hactive] at hinactive
        cases hinactive
      events := h.events
      mode := h.mode
      remaining := h.remaining
      pending := fun hcount _ hzero =>
        absurd ⟨ne_true_of_eq_false (h.mode_false hcount), hzero⟩ hmore
      bound := h.bound
      ended := h.ended
      eoa := h.eoa
      once := h.once }

end Invariant

section Runs

variable {room : Bool} {name : LayoutName}

theorem Counting.disarm (h : Counting layout cmd st) :
    Counting layout cmd { st with inttrig := false } :=
  { h with }

theorem Counting.inttrig (h : Counting (dio200Layouts name) cmd st) (trignum : U32) :
    Counting (dio200Layouts name) cmd
      (dio200InttrigStartIntr (dio200Layouts name) cmd trignum st).2 := by
  unfold dio200InttrigStartIntr
  split
  · exact h
  · dsimp only
    by_cases hactive : st.active = true
    · rw [if_pos hactive]
      cases hstart : dio200StartIntr (dio200Layouts name) cmd { st with inttrig := false } with
      | mk event st₁ => exact h.disarm.start hactive hstart
    · rw [if_neg hactive]
      exact h.disarm

theorem Counting.interrupt (h : Counting (dio200Layouts name) cmd st)
    (readings : Nat → Byte) (room : Bool) :
    ∃ handled st', dio200HandleReadIntr (dio200Layouts name) cmd readings room st =
        some (handled, st') ∧
      Counting (dio200Layouts name) cmd st' ∧ (st.active = false → st' = st) := by
  obtain ⟨n, t, handled, st', hrun, -, -, hcases⟩ := handle_cases h readings room
  refine ⟨handled, st', hrun, ?_⟩
  rcases hcases with ⟨-, rfl⟩ | ⟨⟨chan, hbit, -⟩, hactive, st₁, hscan, rfl⟩
  · exact ⟨h, fun _ => rfl⟩
  · have henabled : st.enabledIsns ≠ 0 := BitFlags.ne_zero_iff_bit.mpr ⟨chan, hbit⟩
    refine ⟨h.of_scanned hactive henabled hscan, fun hinactive => ?_⟩
    rw [hactive] at hinactive
    cases hinactive

/-- A step keeps the invariant, and what is not active stays so. -/
theorem Counting.step (h : Counting (dio200Layouts name) cmd st) (act : Act) :
    ∃ st', step (dio200Layouts name) cmd st act = some st' ∧
      Counting (dio200Layouts name) cmd st' ∧
      (st.active = false ∨ act = .cancel → st'.active = false) := by
  cases act with
  | inttrig trignum =>
    refine ⟨_, rfl, ?_, ?_⟩
    · split
      · exact h.inttrig trignum
      · exact h
    · rintro (hinactive | hcancel)
      · split
        · unfold dio200InttrigStartIntr
          split
          · exact hinactive
          · dsimp only
            rw [if_neg (ne_true_of_eq_false hinactive)]
            exact hinactive
        · exact hinactive
      · cases hcancel
  | cancel => exact ⟨_, rfl, h.cancel.1, fun _ => h.cancel.2⟩
  | interrupt readings room =>
    obtain ⟨handled, st', hrun, hkeep, hsame⟩ := h.interrupt readings room
    refine ⟨st', by rw [Dio200Intr.step, hrun]; rfl, hkeep, ?_⟩
    rintro (hinactive | hcancel)
    · rw [hsame hinactive]
      exact hinactive
    · cases hcancel

theorem Counting.run (h : Counting (dio200Layouts name) cmd st) (acts : List Act) :
    ∃ st', run (dio200Layouts name) cmd st acts = some st' ∧
      Counting (dio200Layouts name) cmd st' ∧
      (st.active = false ∨ Act.cancel ∈ acts → st'.active = false) := by
  induction acts generalizing st with
  | nil => exact ⟨st, rfl, h, fun hor => hor.resolve_right List.not_mem_nil⟩
  | cons act acts ih =>
    obtain ⟨st₁, hstep, h₁, hstop⟩ := h.step act
    obtain ⟨st', hrun, h', hstop'⟩ := ih h₁
    refine ⟨st', by rw [Dio200Intr.run, hstep]; exact hrun, h', ?_⟩
    rintro (hinactive | hmem)
    · exact hstop' (.inl (hstop (.inl hinactive)))
    · rcases List.mem_cons.mp hmem with heq | hrest
      · exact hstop' (.inl (hstop (.inr heq.symm)))
      · exact hstop' (.inr hrest)

theorem Idle.armed (h : Idle layout st) (cmd : Cmd) (st' : Intr)
    (hst' : st' = { st with
      active := true
      continuous := decide (cmd.stopSrc ≠ trigCount)
      stopcount := if cmd.stopSrc = trigCount then cmd.stopArg else 0 }) :
    Counting layout cmd st' := by
  subst hst'
  exact {
    register := fun hsce => by
      change st.intSce.setWidth 32 = st.enabledIsns
      rw [h.register hsce, h.enabled]
      rfl
    listed := .inl h.enabled
    idle := nofun
    events := h.events
    mode := decide_eq_true_iff
    remaining := fun hcount _ => by
      change st.out.length + (if cmd.stopSrc = trigCount then cmd.stopArg else 0).toNat = _
      rw [h.out, if_pos hcount, List.length_nil, Nat.zero_add]
    pending := fun hcount _ hzero => by
      change (if cmd.stopSrc = trigCount then cmd.stopArg else 0) = 0 at hzero
      rw [if_pos hcount] at hzero
      exact ⟨hzero, h.enabled⟩
    bound := fun _ => by
      change st.out.length ≤ _
      rw [h.out]
      exact Nat.zero_le _
    ended := fun e he => by
      change e ∈ st.raised at he
      rw [h.raised] at he
      cases he
    eoa := fun _ hne _ => by
      change (∃ e ∈ st.raised, _) ↔ st.out.length = _
      rw [h.raised, h.out]
      refine iff_of_false (fun ⟨e, he, _⟩ => List.not_mem_nil he) fun hzero => ?_
      exact hne (BitVec.eq_of_toNat_eq hzero.symm)
    once := by
      change (st.raised.filter _).length ≤ 1
      rw [h.raised]
      exact Nat.zero_le 1 }

theorem Idle.counting (h : Idle (dio200Layouts name) st) (cmd : Cmd) :
    Counting (dio200Layouts name) cmd (dio200SubdevIntrCmd (dio200Layouts name) cmd st) := by
  have harmed := h.armed cmd _ rfl
  unfold dio200SubdevIntrCmd
  have hstop : (if cmd.stopSrc = trigCount then
        { st with active := true, continuous := false, stopcount := cmd.stopArg }
      else { st with active := true, continuous := true, stopcount := 0 }) = { st with
      active := true
      continuous := decide (cmd.stopSrc ≠ trigCount)
      stopcount := if cmd.stopSrc = trigCount then cmd.stopArg else 0 } := by
    split
    next hcount => simp [hcount]
    next hcount => simp [hcount]
  dsimp only at hstop ⊢
  rw [hstop]
  split
  next hint => exact { harmed with }
  next hnow =>
    cases hstart : dio200StartIntr (dio200Layouts name) cmd _ with
    | mk event st₁ => exact harmed.start rfl hstart

end Runs

section Results

variable {room : Bool} {name : LayoutName}

/-- The bits of a sample are those of the sources in the channel list. -/
theorem Counting.sample_bit (h : Counting (dio200Layouts name) cmd st)
    (hadm : Admitted (dio200Layouts name) cmd) (henabled : st.enabledIsns ≠ 0) {t : U32}
    (ht : ∀ chan, st.enabledIsns.getLsbD chan = true →
      (t.getLsbD chan = true ↔ Triggered (dio200Layouts name) readings n chan))
    {i : Nat} (hi : i < 16) :
    (scanVal cmd t).getLsbD i = true ↔ i < cmd.chanlistLen.toNat ∧
      Triggered (dio200Layouts name) readings n (source cmd i) := by
  rw [scanVal_bit hadm hi]
  refine and_congr_right fun hlt => ht _ ?_
  rw [h.listed.resolve_left henabled, BitVec.getLsbD_and, Bool.and_eq_true]
  exact ⟨(isnBits_bit hadm (hadm.chan_lt hlt)).mpr ⟨i, hlt, rfl⟩,
    (sdinfo_bit name (hadm.chan_lt hlt)).mpr (hadm.chans i hlt)⟩

/-- A sample that is written ends the acquisition if it is the last. -/
theorem Counting.sample_events (h : Counting layout cmd st) (hactive : st.active = true)
    (henabled : st.enabledIsns ≠ 0) {val : U16} (hscan : Scanned layout val st true st') :
    ∃ ev, (comediEvent st').out = st.out ++ [val] ∧
      (comediEvent st').raised = st.raised ++ [ev] ∧
      ev &&& (comediCbError ||| comediCbOverflow) = 0 ∧
      (ev &&& comediCbEoa ≠ 0 ↔
        cmd.stopSrc = trigCount ∧ (comediEvent st').out.length = cmd.stopArg.toNat) := by
  have hlength : (st.out ++ [val]).length = st.out.length + 1 := by
    rw [List.length_append, List.length_singleton]
  cases hscan with
  | goesOn count hmode =>
    refine ⟨_, rfl, rfl, (by decide :
      (comediCbBlock ||| comediCbEos) &&& (comediCbError ||| comediCbOverflow) = 0), ?_⟩
    refine iff_of_false (fun heoa => heoa goesOn_events.2) ?_
    rintro ⟨hcount, hlast⟩
    change (st.out ++ [val]).length = _ at hlast
    have hrem := h.remaining hcount hactive
    rcases hmode with hcont | ⟨-, rfl, hne⟩
    · rw [h.mode_false hcount] at hcont
      cases hcont
    · have hone : st.stopcount = 1 := BitVec.eq_of_toNat_eq (by
        rw [hlength] at hlast
        change st.stopcount.toNat = 1
        omega)
      rw [hone] at hne
      exact hne rfl
  | last intSce hregister hmode hone =>
    refine ⟨_, rfl, rfl, (by decide : (comediCbBlock ||| comediCbEos ||| comediCbEoa) &&&
      (comediCbError ||| comediCbOverflow) = 0), iff_of_true last_events ?_⟩
    have hcount : cmd.stopSrc = trigCount := by
      by_contra hne
      rw [h.mode.mpr hne] at hmode
      cases hmode
    have hrem := h.remaining hcount hactive
    rw [hone] at hrem
    exact ⟨hcount, hlength.trans hrem⟩

theorem Counting.counted (h : Counting (dio200Layouts name) cmd st)
    (hadm : Admitted (dio200Layouts name) cmd) (readings : Nat → Byte) (room : Bool) :
    ∃ n handled st', dio200HandleReadIntr (dio200Layouts name) cmd readings room st =
        some (handled, st') ∧
      ((dio200Layouts name).hasIntSce = true →
        FirstQuiet (dio200Layouts name).sdinfo 0 (fun k => (readings k).setWidth 32) n) ∧
      Counted (dio200Layouts name) cmd readings n room st st' := by
  obtain ⟨n, t, handled, st', hrun, hquiet, ht, hcases⟩ := handle_cases h readings room
  refine ⟨n, handled, st', hrun, hquiet, ?_⟩
  rcases hcases with ⟨hnot, hsame⟩ | ⟨hhit, hactive, st₁, hscan, rfl⟩
  · exact ⟨fun _ => hsame, fun hyes => absurd hyes hnot, fun hyes => absurd hyes hnot⟩
  · have henabled : st.enabledIsns ≠ 0 :=
      hhit.elim fun chan hbit => BitFlags.ne_zero_iff_bit.mpr ⟨chan, hbit.1⟩
    refine ⟨fun hnot => absurd hhit hnot, fun _ hroom => ?_, fun _ hroom => ?_⟩
    · subst hroom
      obtain ⟨ev, hout, hraised, herror, heoa⟩ := h.sample_events hactive henabled hscan
      exact ⟨scanVal cmd t, ev, hout, hraised,
        fun i hi => h.sample_bit hadm henabled ht hi, herror, heoa⟩
    · subst hroom
      cases hscan with
      | full intSce hregister count ev herror hoverflow =>
        exact ⟨rfl, rfl, ev, rfl, herror, hoverflow⟩

/-- In every run of a command the subdevice counts the samples and keeps the sources enabled that
its register has, an interrupt with space in the buffer writes the sources that have triggered, and
one without ends the acquisition with an error. -/
theorem events_counted (name : LayoutName) (cmd : Cmd) (hadm : Admitted (dio200Layouts name) cmd)
    (st₀ : Intr) (hidle : Idle (dio200Layouts name) st₀) (acts : List Act) :
    ∃ st, run (dio200Layouts name) cmd (dio200SubdevIntrCmd (dio200Layouts name) cmd st₀) acts =
        some st ∧
      Counting (dio200Layouts name) cmd st ∧ (Act.cancel ∈ acts → st.active = false) ∧
      ∀ readings room, ∃ n handled st',
        dio200HandleReadIntr (dio200Layouts name) cmd readings room st = some (handled, st') ∧
        ((dio200Layouts name).hasIntSce = true →
          FirstQuiet (dio200Layouts name).sdinfo 0 (fun k => (readings k).setWidth 32) n) ∧
        Counted (dio200Layouts name) cmd readings n room st st' := by
  obtain ⟨st, hrun, hcounting, hstop⟩ := (hidle.counting cmd).run acts
  exact ⟨st, hrun, hcounting, fun hmem => hstop (.inr hmem), hcounting.counted hadm⟩

/-- Two samples from the sources 1 and 0, as they come in the channel list. -/
def twoScans : Cmd where
  startSrc := trigInt
  stopSrc := trigCount
  stopArg := 2
  chanlist := .kernel [1, 0]
  chanlistLen := 2

theorem twoScans_admitted : Admitted (dio200Layouts .pc212) twoScans where
  kernel := ⟨_, rfl⟩
  len := by decide
  chans := (by decide : ∀ n < 2, source twoScans n < 6)

theorem events_counted_twoScans : ∃ st,
    run (dio200Layouts .pc212) twoScans (dio200SubdevIntrCmd (dio200Layouts .pc212) twoScans {})
        [.inttrig 0, .interrupt (fun k => if k = 0 then 1 else 0) true, .cancel] = some st ∧
      Counting (dio200Layouts .pc212) twoScans st ∧ st.active = false := by
  obtain ⟨st, hrun, hcounting, hstop, -⟩ := events_counted .pc212 twoScans
    twoScans_admitted {} ⟨rfl, rfl, fun _ => rfl, rfl, rfl, rfl⟩
    [.inttrig 0, .interrupt (fun k => if k = 0 then 1 else 0) true, .cancel]
  exact ⟨st, hrun, hcounting, hstop (by simp)⟩

/-- A buffer that is full takes no sample. -/
theorem full_buffer_loses_scan :
    ¬ ∀ (name : LayoutName) (cmd : Cmd), Admitted (dio200Layouts name) cmd →
      ∀ (st₀ : Intr), Idle (dio200Layouts name) st₀ → ∀ (acts : List Act) (st : Intr),
      run (dio200Layouts name) cmd (dio200SubdevIntrCmd (dio200Layouts name) cmd st₀) acts =
        some st →
      ∀ (readings : Nat → Byte) (room : Bool) (n : Nat) (handled : Bool) (st' : Intr),
        FirstQuiet (dio200Layouts name).sdinfo 0 (fun k => (readings k).setWidth 32) n →
        Hit (dio200Layouts name) readings n st →
        dio200HandleReadIntr (dio200Layouts name) cmd readings room st = some (handled, st') →
        st'.out.length = st.out.length + 1 := by
  intro h
  have hadm : Admitted (dio200Layouts .pc212) { twoScans with startSrc := trigNow } :=
    ⟨⟨_, rfl⟩, by decide, (by decide : ∀ n < 2, source twoScans n < 6)⟩
  have hquiet : FirstQuiet (dio200Layouts .pc212).sdinfo 0
      (fun k => (if k = 0 then (1 : Byte) else 0).setWidth 32) 1 := by
    refine ⟨fun i _ hx => absurd hx ?_, fun m hm => ⟨0, rfl, ?_, rfl, fun k hk => ?_⟩⟩
    · simp
    · obtain rfl := Nat.lt_one_iff.mp hm
      rfl
    · omega
  have hlength := h .pc212 _ hadm {} ⟨rfl, rfl, fun _ => rfl, rfl, rfl, rfl⟩ [] _ rfl
    (fun k => if k = 0 then 1 else 0) false 1 true _ hquiet
    ⟨0, by decide, ⟨0, Nat.one_pos, rfl⟩⟩ rfl
  exact absurd hlength (by decide)

end Results

end Comedi.Dio200Counting
