import Comedi.PcidasAoWord
import Comedi.Pcmuio

namespace Comedi.PcmuioRuns

open ChanlistCheck Pcmuio
open FakeWaveform (chanspec)
open NiTioCmd (trigInt)
open Pci230 (crAref trigExt)
open Pcidas (counts U16)
open PcidasAoWord (fix_kept)
open RtTimer (trigNow trigCount)

variable {board : PcmuioBoard} {st : Dev} {p q : Intr} {a : Asic} {s : Sub} {cmd : Cmd} {k : Nat}

section Subdevices

/-- The interrupt lines of a subdevice are those of its ASIC. -/
structure Whole (p : Intr) : Prop where
  firstChan : p.firstChan = 0
  asicChan : p.asicChan = 0
  numAsicChans : p.numAsicChans = 24

theorem subdevs_one : subdevs 1 = [some ⟨0, 0, 0, 24⟩, none] := by decide

theorem subdevs_two :
    subdevs 2 = [some ⟨0, 0, 0, 24⟩, none, some ⟨1, 0, 0, 24⟩, none] := by decide

/-- The first subdevice of each ASIC has all its interrupt lines. -/
theorem intrOf_spec (hboard : board.numAsics = 1 ∨ board.numAsics = 2)
    (h : intrOf board k = some p) : Whole p ∧ k = 2 * p.asic ∧ p.asic < maxAsics := by
  unfold intrOf at h
  rcases hboard with hboard | hboard
  · rw [hboard, subdevs_one] at h
    rcases k with _ | _ | k
    · obtain rfl := Option.some.inj h
      exact ⟨⟨rfl, rfl, rfl⟩, rfl, by decide⟩
    · exact absurd h nofun
    · exact absurd h nofun
  · rw [hboard, subdevs_two] at h
    rcases k with _ | _ | _ | _ | k
    · obtain rfl := Option.some.inj h
      exact ⟨⟨rfl, rfl, rfl⟩, rfl, by decide⟩
    · exact absurd h nofun
    · obtain rfl := Option.some.inj h
      exact ⟨⟨rfl, rfl, rfl⟩, rfl, by decide⟩
    · exact absurd h nofun
    · exact absurd h nofun

theorem intrOf_lt (h : intrOf board k = some p) : k < (subdevs board.numAsics).length := by
  by_contra hge
  unfold intrOf at h
  rw [List.getElem?_eq_none (Nat.not_lt.mp hge)] at h
  exact absurd h nofun

end Subdevices

section Registers

variable {page v : U8} {port : Nat} {bits pol : U32}

theorem page_of (x : U8) (hpage : page = pagePol ∨ page = pageEnab ∨ page = pageIntId) :
    (x &&& regLockMask ||| page <<< 6) >>> 6 = page := by
  have hlow : (x &&& regLockMask) >>> 6 = 0 := by
    apply BitVec.eq_of_toNat_eq
    rw [BitVec.toNat_ushiftRight, BitVec.toNat_and, Nat.shiftRight_and_distrib]
    exact Nat.and_zero _
  have hshift : (page <<< 6) >>> 6 = page := by
    rcases hpage with rfl | rfl | rfl <;> decide
  rw [BitVec.ushiftRight_or_distrib, hlow, hshift]
  exact BitVec.zero_or

theorem switchPage_page (hpage : page = pagePol ∨ page = pageEnab ∨ page = pageIntId) (a : Asic) :
    (a.switchPage page).pagelock >>> 6 = page := page_of a.pagelock hpage

theorem outb_enab (h : a.pagelock >>> 6 = pageEnab) (v : U8) (port : Nat) :
    a.outb v port = { a with enab := Function.update a.enab port v } := by
  unfold Asic.outb
  rw [if_neg (by rw [h]; decide), if_pos h]

theorem outb_pol (h : a.pagelock >>> 6 = pagePol) (v : U8) (port : Nat) :
    a.outb v port = { a with pol := Function.update a.pol port v } := if_pos h

theorem foldl_outb (h : a.pagelock >>> 6 = pageEnab) (l : List Nat) :
    l.foldl (fun a port => a.outb v port) a =
      { a with enab := l.foldl (fun enab port => Function.update enab port v) a.enab } := by
  induction l generalizing a with
  | nil => rfl
  | cons port l ih =>
    have hpage : ({ a with enab := Function.update a.enab port v } : Asic).pagelock >>> 6 =
      pageEnab := h
    rw [List.foldl_cons, List.foldl_cons, outb_enab h, ih hpage]

theorem ports_whole (h : Whole p) : ports p = [0, 1, 2] := by
  unfold ports
  rw [h.asicChan, h.numAsicChans]
  rfl

/-- All interrupts of the subdevice are disabled, whatever the page was. -/
theorem stopIntr_enab (h : Whole p) (a : Asic) (s : Pcmuio.Sub) :
    ∀ port < 3, (stopIntr p a s).1.enab port = 0 := by
  intro port hport
  unfold stopIntr
  rw [ports_whole h, foldl_outb (switchPage_page (.inr (.inl rfl)) a)]
  dsimp only [List.foldl_cons, List.foldl_nil]
  rcases (by omega : port = 0 ∨ port = 1 ∨ port = 2) with rfl | rfl | rfl <;> simp

/-- The first port is enabled, and the page is that of the polarity afterwards. -/
theorem setPort_enab (h : a.pagelock >>> 6 = pageEnab) :
    let a' := setPort p bits pol a port
    a'.pagelock >>> 6 = pagePol ∧ a'.enab = Function.update a.enab port (portBits p bits port) ∧
      a'.pol = Function.update a.pol port (portBits p pol port) := by
  unfold setPort
  rw [outb_enab h, outb_pol (switchPage_page (.inl rfl) _)]
  exact ⟨switchPage_page (.inl rfl) _, rfl, rfl⟩

/-- What is meant for the enables of another port goes where its polarity is. -/
theorem setPort_pol (h : a.pagelock >>> 6 = pagePol) :
    let a' := setPort p bits pol a port
    a'.pagelock >>> 6 = pagePol ∧ a'.enab = a.enab ∧
      a'.pol = Function.update a.pol port (portBits p pol port) := by
  unfold setPort
  rw [outb_pol h, outb_pol (switchPage_page (.inl rfl) _)]
  refine ⟨switchPage_page (.inl rfl) _, rfl, ?_⟩
  dsimp only [Asic.switchPage]
  rw [Function.update_idem]

/-- Only the first port is enabled by the start, but all polarities are set. -/
theorem start_regs (h : Whole p) (a : Asic) (bits pol : U32) :
    ((ports p).foldl (setPort p bits pol) (a.switchPage pageEnab)).enab =
        Function.update a.enab 0 (portBits p bits 0) ∧
      ∀ port < 3, ((ports p).foldl (setPort p bits pol) (a.switchPage pageEnab)).pol port =
        portBits p pol port := by
  rw [ports_whole h, List.foldl_cons, List.foldl_cons, List.foldl_cons, List.foldl_nil]
  obtain ⟨hpage, henab, hpol⟩ := setPort_enab (switchPage_page (.inr (.inl rfl)) a)
  generalize setPort p bits pol (a.switchPage pageEnab) 0 = first at hpage henab hpol ⊢
  obtain ⟨hpage', henab', hpol'⟩ := setPort_pol hpage
  generalize setPort p bits pol first 1 = second at hpage' henab' hpol' ⊢
  obtain ⟨-, henab'', hpol''⟩ := setPort_pol hpage'
  generalize setPort p bits pol second 2 = third at henab'' hpol'' ⊢
  refine ⟨?_, fun port hport => ?_⟩
  · rw [henab'', henab', henab]
    rfl
  · rw [hpol'', hpol', hpol]
    rcases (by omega : port = 0 ∨ port = 1 ∨ port = 2) with rfl | rfl | rfl <;> simp

end Registers

section Bits

variable {i n : Nat}

theorem bit_iff (hi : i < 32) (k : Nat) : ((1 : U32) <<< k).getLsbD i = true ↔ k = i := by
  have hbit := @BitFlags.one_shiftLeft_bit 32 k i hi
  change ((1#32) <<< k).getLsbD i = true ↔ _
  rw [hbit, decide_eq_true_eq]
  exact eq_comm

theorem chanBits_bit (hi : i < 32) : (chanBits cmd).getLsbD i = true ↔
      ∃ n < cmd.chanlistLen.toNat, (crChan (chanspec cmd n)).toNat = i := by
  have hset : ∀ (v : U32) (n : Nat),
      (v ||| (1 : U32) <<< (crChan (chanspec cmd n)).toNat).getLsbD i = true ↔
        v.getLsbD i = true ∨ (crChan (chanspec cmd n)).toNat = i := by
    intro v n
    rw [BitVec.getLsbD_or, Bool.or_eq_true, bit_iff hi]
  unfold chanBits
  rw [BitFlags.foldl_range_bit hset]
  simp

theorem polBits_bit (hi : i < 32) : (polBits cmd).getLsbD i = true ↔
    ∃ n < cmd.chanlistLen.toNat, (crChan (chanspec cmd n)).toNat = i ∧
      (crAref (chanspec cmd n) ≠ 0 ∨ crRange (chanspec cmd n) ≠ 0) := by
  have hset : ∀ (v : U32) (n : Nat),
      (v ||| (if crAref (chanspec cmd n) ≠ 0 ∨ crRange (chanspec cmd n) ≠ 0 then (1 : U32)
        else 0) <<< (crChan (chanspec cmd n)).toNat).getLsbD i = true ↔
        v.getLsbD i = true ∨ ((crChan (chanspec cmd n)).toNat = i ∧
          (crAref (chanspec cmd n) ≠ 0 ∨ crRange (chanspec cmd n) ≠ 0)) := by
    intro v n
    rw [BitVec.getLsbD_or, Bool.or_eq_true]
    refine or_congr_right ?_
    split
    next hpol => rw [bit_iff hi, and_iff_left hpol]
    next hpol =>
      have hzero : (0 : U32) <<< (crChan (chanspec cmd n)).toNat = 0 := BitVec.zero_shiftLeft _
      rw [hzero]
      exact iff_of_false (by simp) fun h => hpol h.2
  unfold polBits
  rw [BitFlags.foldl_range_bit hset]
  simp

theorem scanWord_bit {trig : U32} (hn : n < 32)
    (h : ∀ i < cmd.chanlistLen.toNat, (crChan (chanspec cmd i)).toNat < 24) :
    (scanWord cmd trig).getLsbD n = true ↔
      n < cmd.chanlistLen.toNat ∧ trig.getLsbD (crChan (chanspec cmd n)).toNat = true := by
  have hset : ∀ (v : U32) (i : Nat),
      (if trig &&& (1 : U32) <<< (crChan (chanspec cmd i)).toNat ≠ 0 then v ||| (1 : U32) <<< i
        else v).getLsbD n = true ↔ v.getLsbD n = true ∨
          (n = i ∧ trig &&& (1 : U32) <<< (crChan (chanspec cmd i)).toNat ≠ 0) := by
    intro v i
    split
    next htrig =>
      rw [BitVec.getLsbD_or, Bool.or_eq_true, bit_iff hn, @eq_comm _ i n,
        and_iff_left htrig]
    next htrig => exact ⟨.inl, fun hor => hor.resolve_right fun hboth => htrig hboth.2⟩
  unfold scanWord
  rw [BitFlags.foldl_range_bit hset]
  have hzero : (0 : U32).getLsbD n = false := BitVec.getLsbD_zero
  rw [hzero]
  constructor
  · rintro (hfalse | ⟨i, hi, rfl, htrig⟩)
    · exact absurd hfalse Bool.false_ne_true
    · exact ⟨hi, (BitFlags.and_one_shiftLeft_ne ((h n hi).trans (by decide))).mp htrig⟩
  · rintro ⟨hlt, hbit⟩
    exact .inr ⟨n, hlt, rfl,
      (BitFlags.and_one_shiftLeft_ne ((h n hlt).trans (by decide))).mpr hbit⟩

theorem portBits_bit (hwhole : Whole p) (bits : U32) {port j : Nat} (hj : j < 8) :
    (portBits p bits port).getLsbD j = bits.getLsbD (8 * port + j) := by
  unfold portBits
  rw [hwhole.firstChan, hwhole.asicChan, BitVec.getLsbD_setWidth, BitVec.getLsbD_ushiftRight]
  rw [decide_eq_true hj, Bool.true_and]
  congr 1
  simp only [chansPerPort]
  omega

theorem asicMask_bit (hwhole : Whole p) (bits : U32) (hi : i < 24) :
    (bits &&& asicMask p).getLsbD i = bits.getLsbD i := by
  have hmask : ∀ i < 24, (0xffffff : U32).getLsbD i = true := by decide
  unfold asicMask
  rw [hwhole.firstChan, hwhole.numAsicChans]
  change (bits &&& (0xffffff : U32)).getLsbD i = _
  rw [BitVec.getLsbD_and, hmask i hi, Bool.and_true]

end Bits

section Accepted

theorem fixArgs_kept (h : (Pcmuio.fixArgs cmd).1 = false) : (Pcmuio.fixArgs cmd).2 = cmd := by
  unfold Pcmuio.fixArgs at h ⊢
  simp only [Bool.or_eq_false_iff] at h
  obtain ⟨⟨⟨⟨hstart, hscan⟩, hconvert⟩, hend⟩, hstop⟩ := h
  have h1 := fix_kept hstart
  rw [h1] at hscan hconvert hend hstop
  have h2 := fix_kept hscan
  rw [h2] at hconvert hend hstop
  have h3 := fix_kept hconvert
  rw [h3] at hend hstop
  have h4 := fix_kept hend
  rw [h4] at hstop
  have h5 := fix_kept hstop
  dsimp only
  rw [h1, h2, h3, h4, h5]

/-- A command that is accepted is left as it is. -/
theorem pcmuioCmdtest_accepted (h : (pcmuioCmdtest cmd).1 = 0) : (pcmuioCmdtest cmd).2 = cmd := by
  by_cases hmasked : (Pcmuio.maskSources cmd).1 = true
  · unfold pcmuioCmdtest at h
    dsimp only at h
    rw [if_pos hmasked] at h
    exact absurd h one_ne_zero
  have hmask : (Pcmuio.maskSources cmd).2 = cmd :=
    RtTimer.cmdtestHelper_ok (Bool.eq_false_iff.mpr hmasked)
  unfold pcmuioCmdtest at h ⊢
  dsimp only at h ⊢
  rw [if_neg hmasked, hmask] at h ⊢
  by_cases hsources : Pcmuio.badSources cmd
  · rw [if_pos hsources] at h
    exact absurd h two_ne_zero
  rw [if_neg hsources] at h ⊢
  by_cases hargs : (Pcmuio.fixArgs cmd).1 = true
  · rw [if_pos hargs] at h
    exact absurd h three_ne_zero
  have hkept := fixArgs_kept (Bool.eq_false_iff.mpr hargs)
  rw [if_neg hargs, hkept]

end Accepted

section Serving

variable {bufsz : Nat} {trig val : U32}

/-- The bytes that the buffer has room for. -/
def room (bufsz : Nat) (s : Pcmuio.Sub) : Nat := bufsz + s.taken - 2 * s.out.length

/-- The two samples of a scan. -/
def samples (val : U32) : List U16 := [val.setWidth 16, (val >>> 16).setWidth 16]

theorem putScan_room (h : 4 ≤ room bufsz s) (val : U32) :
    putScan s bufsz val = (true, { s with out := s.out ++ samples val }) := by
  unfold room at h
  have hsecond : 2 ≤ bufsz + s.taken - 2 * (s.out ++ [val.setWidth 16]).length := by
    rw [List.length_append, List.length_singleton]
    omega
  have hfirst : 2 ≤ bufsz + s.taken - 2 * s.out.length := by omega
  unfold putScan comediBufPut
  rw [if_pos hfirst]
  dsimp only
  rw [if_pos rfl, if_pos hsecond, List.append_assoc]
  rfl

theorem putScan_full (h : ¬ 4 ≤ room bufsz s) (val : U32) :
    ∃ part : List U16, part.length ≤ 1 ∧ putScan s bufsz val =
      (false, { s with out := s.out ++ part, events := s.events ||| comediCbError }) := by
  unfold room at h
  unfold putScan comediBufPut
  by_cases hfirst : 2 ≤ bufsz + s.taken - 2 * s.out.length
  · have hsecond : ¬ 2 ≤ bufsz + s.taken - 2 * (s.out ++ [val.setWidth 16]).length := by
      rw [List.length_append, List.length_singleton]
      omega
    refine ⟨[val.setWidth 16], le_rfl, ?_⟩
    rw [if_pos hfirst]
    dsimp only
    rw [if_pos rfl, if_neg hsecond]
  · refine ⟨[], Nat.zero_le _, ?_⟩
    rw [if_neg hfirst]
    dsimp only
    rw [if_neg Bool.false_ne_true, List.append_nil]

/-- The acquisition goes on, uncounted or with one scan less, or it has come to its end. -/
theorem checkEnd_cases (r : Asic × Pcmuio.Sub) :
    (∃ count, (¬ (r.2.continuous = false ∧ 0 < r.2.stopCount) ∧ count = r.2.stopCount ∨
        r.2.continuous = false ∧ 1 < r.2.stopCount ∧ count = r.2.stopCount - 1) ∧
      checkEnd p r = (r.1, { r.2 with stopCount := count })) ∨
    (r.2.continuous = false ∧ r.2.stopCount = 1 ∧
      checkEnd p r = stopIntr p r.1 { r.2 with
        stopCount := r.2.stopCount - 1
        events := r.2.events ||| comediCbEoa }) := by
  unfold checkEnd
  by_cases hcounts : r.2.continuous = false ∧ 0 < r.2.stopCount
  · rw [if_pos hcounts]
    dsimp only
    by_cases hlast : r.2.stopCount - 1 = 0
    · rw [if_pos hlast]
      exact .inr ⟨hcounts.1, by omega, rfl⟩
    · rw [if_neg hlast]
      exact .inl ⟨_, .inr ⟨hcounts.1, by omega, rfl⟩, rfl⟩
  · rw [if_neg hcounts]
    exact .inl ⟨_, .inl ⟨hcounts, rfl⟩, rfl⟩

theorem serveIntr_kept (h : ¬ (s.active = true ∧ mytrig p trig &&& s.enabledMask ≠ 0)) :
    serveIntr p a s bufsz trig = (a, s) := by
  unfold serveIntr
  rw [if_neg h]
  exact congrArg (Prod.mk a) (if_neg (not_not.mpr rfl))

theorem mytrig_zero : mytrig p 0 = 0 := by
  unfold mytrig
  have hshift : (0 : U32) >>> p.asicChan = 0 := BitVec.zero_ushiftRight
  have hand : ∀ v : U32, 0 &&& v = 0 := fun _ => BitVec.zero_and
  rw [hshift, hand]
  exact BitVec.zero_shiftLeft _

/-- A line that the command is interested in has had an edge. -/
theorem serveIntr_edges (h : s.active = true ∧ mytrig p trig &&& s.enabledMask ≠ 0)
    (hevents : s.events = 0)
    (hnew : (putEdges p a s bufsz (mytrig p trig)).2.events ≠ 0) :
    serveIntr p a s bufsz trig = ((putEdges p a s bufsz (mytrig p trig)).1,
      comediEvent (putEdges p a s bufsz (mytrig p trig)).2) := by
  have hchanged : s.events ≠ (putEdges p a s bufsz (mytrig p trig)).2.events := by
    rw [hevents]
    exact hnew.symm
  unfold serveIntr
  rw [if_pos h]
  exact congrArg (Prod.mk _) (if_pos hchanged)

theorem comediEvent_running (h : s.running = true) : comediEvent s = { s with
    running := s.events &&& (comediCbEoa ||| comediCbError ||| comediCbOverflow) = 0
    reported := s.reported ||| s.events
    events := 0 } := if_neg (by rw [h]; exact Bool.noConfusion)

theorem putEdges_room (h : 4 ≤ room bufsz s) : putEdges p a s bufsz trig =
    checkEnd p (a, { s with
      out := s.out ++ samples (scanWord s.cmd trig)
      events := s.events ||| (comediCbBlock ||| comediCbEos) }) := by
  unfold putEdges
  rw [putScan_room h]
  dsimp only
  rw [if_pos rfl]

theorem putEdges_full (h : ¬ 4 ≤ room bufsz s) : ∃ part : List U16, part.length ≤ 1 ∧
    putEdges p a s bufsz trig = checkEnd p (stopIntr p a { s with
      out := s.out ++ part
      events := s.events ||| comediCbError }) := by
  obtain ⟨part, hpart, hput⟩ := putScan_full h (scanWord s.cmd trig)
  refine ⟨part, hpart, ?_⟩
  unfold putEdges
  rw [hput]
  dsimp only
  rw [if_neg Bool.false_ne_true]

end Serving

section Invariant

/-- A command has been started: its lines in the first port are enabled, and all its polarities
are set. -/
structure Started (p : Intr) (a : Asic) (s : Pcmuio.Sub) : Prop where
  mask : s.enabledMask = chanBits s.cmd &&& asicMask p
  first : a.enab 0 = portBits p (chanBits s.cmd &&& asicMask p) 0
  others : ∀ port < 3, 0 < port → a.enab port = 0
  pol : ∀ port < 3, a.pol port = portBits p (polBits s.cmd) port

/-- The samples of a command that is not over. -/
structure Progress (s : Pcmuio.Sub) : Prop where
  continuous : s.continuous = false ↔ counts s.cmd
  counted : counts s.cmd → 0 ≤ s.cmd.stopArg.toInt →
    s.out.length + 2 * s.stopCount = 2 * s.cmd.stopArg.toInt ∧ 0 ≤ s.stopCount
  endless : counts s.cmd → s.cmd.stopArg.toInt < 0 → s.stopCount = s.cmd.stopArg.toInt
  left : s.inttrig = false → counts s.cmd → s.stopCount ≠ 0
  unreported : s.reported &&& (comediCbEoa ||| comediCbError) = 0

/-- A command has all its samples, or it has found the buffer full. -/
def Over (s : Pcmuio.Sub) : Prop :=
  (s.reported &&& comediCbError = 0 ∧ s.reported &&& comediCbEoa ≠ 0 ∧ counts s.cmd ∧
      s.out.length = 2 * s.cmd.stopArg.toInt) ∨
    (s.reported &&& comediCbError ≠ 0 ∧
      (counts s.cmd → 0 ≤ s.cmd.stopArg.toInt → s.out.length < 2 * s.cmd.stopArg.toInt) ∧
      (counts s.cmd → s.cmd.stopArg.toInt < 0 → s.reported &&& comediCbEoa = 0))

/-- What every operation on a subdevice preserves. -/
structure Inv (p : Intr) (a : Asic) (s : Pcmuio.Sub) : Prop where
  events : s.events = 0
  running : s.running = s.active
  busy : s.active = true → s.busy = true
  armed : s.inttrig = true → s.active = true
  quiet : s.active = false ∨ s.inttrig = true →
    s.enabledMask = 0 ∧ ∀ port < 3, a.enab port = 0
  started : s.active = true → s.inttrig = false → Started p a s
  listed : s.active = true → goodChans s.cmd ∧ s.cmd.chanlistLen.toNat ≤ 24
  progress : s.active = true → Progress s
  finished : s.busy = true → s.active = false → Over s

variable {a' : Asic} {bufsz : Nat} {trig : U32}

theorem Inv.same_regs (h : Inv p a s) (henab : a'.enab = a.enab) (hpol : a'.pol = a.pol) :
    Inv p a' s := by
  refine ⟨h.events, h.running, h.busy, h.armed, ?_, fun hactive htrig => ?_, h.listed,
    h.progress, h.finished⟩
  · rw [henab]
    exact h.quiet
  · obtain ⟨hmask, hfirst, hothers, hpolarity⟩ := h.started hactive htrig
    exact ⟨hmask, henab ▸ hfirst, henab ▸ hothers, hpol ▸ hpolarity⟩

/-- A subdevice that has been stopped. -/
structure Stopped (a : Asic) (s : Pcmuio.Sub) : Prop where
  enab : ∀ port < 3, a.enab port = 0
  mask : s.enabledMask = 0
  active : s.active = false
  inttrig : s.inttrig = false

theorem stopIntr_stopped (hwhole : Whole p) (a : Asic) (s : Pcmuio.Sub) :
    Stopped (stopIntr p a s).1 (stopIntr p a s).2 :=
  ⟨stopIntr_enab hwhole a s, rfl, rfl, rfl⟩

theorem Inv.of_stopped (h : Stopped a s) (hrunning : s.running = false) (hevents : s.events = 0)
    (hover : s.busy = true → Over s) : Inv p a s := by
  have hnot : s.active ≠ true := by
    rw [h.active]
    exact Bool.false_ne_true
  refine ⟨hevents, hrunning.trans h.active.symm, fun hactive => absurd hactive hnot,
    fun htrig => ?_, fun _ => ⟨h.mask, h.enab⟩, fun hactive => absurd hactive hnot,
    fun hactive => absurd hactive hnot, fun hactive => absurd hactive hnot,
    fun hbusy _ => hover hbusy⟩
  rw [h.inttrig] at htrig
  exact absurd htrig Bool.false_ne_true

/-- Edges are only noted for a command that has been started. -/
theorem Inv.started_of_edges (h : Inv p a s)
    (hedges : s.active = true ∧ mytrig p trig &&& s.enabledMask ≠ 0) : s.inttrig = false := by
  by_contra htrig
  have hmask := (h.quiet (.inr (Bool.not_eq_false _ ▸ htrig))).1
  rw [hmask] at hedges
  exact hedges.2 BitVec.and_zero

theorem or_zero_left {x : U32} (h : s.events = 0) : s.events ||| x = x := by
  rw [h]
  exact BitVec.zero_or

theorem reported_and {x m : U32} (h : x &&& (comediCbEoa ||| comediCbError) = 0)
    (hm : (comediCbEoa ||| comediCbError) &&& m = m) : x &&& m = 0 := by
  rw [← hm, ← BitVec.and_assoc, h]
  exact BitVec.zero_and

theorem or_reported {x y m : U32} (h : y &&& m ≠ 0) : (x ||| y) &&& m ≠ 0 := by
  rw [BitVec.and_or_distrib_right]
  exact fun hzero => h (BitVec.or_eq_zero_iff.mp hzero).2

/-- A scan is put, and more of them are wanted. -/
theorem Inv.more (h : Inv p a s) (hactive : s.active = true) (hstarted : s.inttrig = false)
    {scan : List U16} (hscan : scan.length = 2) {count : Int} {ev : U32}
    (hcount : ¬ (s.continuous = false ∧ 0 < s.stopCount) ∧ count = s.stopCount ∨
      s.continuous = false ∧ 1 < s.stopCount ∧ count = s.stopCount - 1)
    (hev : ev &&& (comediCbEoa ||| comediCbError) = 0) :
    Inv p a { s with
      out := s.out ++ scan
      stopCount := count
      running := true
      reported := s.reported ||| ev
      events := 0 } := by
  obtain ⟨hcontinuous, hcounted, hendless, hleft, hunreported⟩ := h.progress hactive
  refine ⟨rfl, hactive.symm, h.busy, h.armed, h.quiet, fun _ hnot => ?_, h.listed,
    fun _ => ⟨hcontinuous, fun hcounts hpos => ?_, fun hcounts hneg => ?_,
      fun _ hcounts => ?_, ?_⟩, fun _ hidle => ?_⟩
  · obtain ⟨hmask, hfirst, hothers, hpol⟩ := h.started hactive hstarted
    exact ⟨hmask, hfirst, hothers, hpol⟩
  · obtain ⟨hsum, hle⟩ := hcounted hcounts hpos
    have hne := hleft hstarted hcounts
    have hcont := hcontinuous.mpr hcounts
    dsimp only
    rw [List.length_append, hscan]
    rcases hcount with ⟨hnot, -⟩ | ⟨-, hlt, rfl⟩
    · exact absurd ⟨hcont, by omega⟩ hnot
    · exact ⟨by push_cast; omega, by omega⟩
  · have hsame := hendless hcounts hneg
    dsimp only
    rcases hcount with ⟨-, rfl⟩ | ⟨-, hlt, -⟩
    · exact hsame
    · change s.cmd.stopArg.toInt < 0 at hneg
      omega
  · have hne := hleft hstarted hcounts
    dsimp only
    rcases hcount with ⟨-, rfl⟩ | ⟨-, hlt, rfl⟩
    · exact hne
    · omega
  · dsimp only
    rw [BitVec.and_or_distrib_right, hunreported, hev]
    rfl
  · change s.active = false at hidle
    rw [hactive] at hidle
    exact absurd hidle Bool.noConfusion

/-- The last scan has been put. -/
theorem Inv.over_complete (h : Inv p a s) (hactive : s.active = true) {scan : List U16}
    (hscan : scan.length = 2) {ev : U32} (hcontinuous : s.continuous = false)
    (hlast : s.stopCount = 1) (heoa : ev &&& comediCbEoa ≠ 0) (herror : ev &&& comediCbError = 0)
    {s' : Pcmuio.Sub} (hcmd : s'.cmd = s.cmd) (hout : s'.out = s.out ++ scan)
    (hreported : s'.reported = s.reported ||| ev) : Over s' := by
  obtain ⟨hcont, hcounted, hendless, -, hunreported⟩ := h.progress hactive
  have hcounts := hcont.mp hcontinuous
  left
  rw [hcmd, hout, hreported, List.length_append, hscan]
  refine ⟨?_, or_reported heoa, hcounts, ?_⟩
  · rw [BitVec.and_or_distrib_right, reported_and hunreported (by decide), herror]
    rfl
  rcases lt_or_ge s.cmd.stopArg.toInt 0 with hneg | hpos
  · have hsame := hendless hcounts hneg
    omega
  · obtain ⟨hsum, -⟩ := hcounted hcounts hpos
    push_cast
    omega

/-- The buffer was full. -/
theorem Inv.over_full (h : Inv p a s) (hactive : s.active = true) (hstarted : s.inttrig = false)
    {part : List U16} (hpart : part.length ≤ 1) {ev : U32} (herror : ev &&& comediCbError ≠ 0)
    (heoa : ev &&& comediCbEoa = 0 ∨ s.stopCount = 1)
    {s' : Pcmuio.Sub} (hcmd : s'.cmd = s.cmd) (hout : s'.out = s.out ++ part)
    (hreported : s'.reported = s.reported ||| ev) : Over s' := by
  obtain ⟨-, hcounted, hendless, hleft, hunreported⟩ := h.progress hactive
  right
  rw [hcmd, hout, hreported, List.length_append]
  refine ⟨or_reported herror, fun hcounts hpos => ?_, fun hcounts hneg => ?_⟩
  · obtain ⟨hsum, hle⟩ := hcounted hcounts hpos
    have hne := hleft hstarted hcounts
    push_cast
    omega
  · rcases heoa with heoa | hlast
    · rw [BitVec.and_or_distrib_right, reported_and hunreported (by decide), heoa]
      rfl
    · have hsame := hendless hcounts hneg
      omega

/-- The events of an interrupt are reported. -/
theorem serve_reported (hedges : s.active = true ∧ mytrig p trig &&& s.enabledMask ≠ 0)
    (hevents : s.events = 0) {r : Asic × Pcmuio.Sub} {ev : U32}
    (hput : putEdges p a s bufsz (mytrig p trig) = r) (hne : ev ≠ 0) (hev : r.2.events = ev)
    (hrunning : r.2.running = true) : serveIntr p a s bufsz trig = (r.1, { r.2 with
      running := ev &&& (comediCbEoa ||| comediCbError ||| comediCbOverflow) = 0
      reported := r.2.reported ||| ev
      events := 0 }) := by
  have hnew : (putEdges p a s bufsz (mytrig p trig)).2.events ≠ 0 := by
    rw [hput, hev]
    exact hne
  rw [serveIntr_edges hedges hevents hnew, hput, comediEvent_running hrunning, hev]

theorem inv_serve_room (hwhole : Whole p) (h : Inv p a s)
    (hedges : s.active = true ∧ mytrig p trig &&& s.enabledMask ≠ 0) (hroom : 4 ≤ room bufsz s) :
    let s' := (serveIntr p a s bufsz trig).2
    Inv p (serveIntr p a s bufsz trig).1 s' ∧
      s'.out = s.out ++ samples (scanWord s.cmd (mytrig p trig)) := by
  have hactive := hedges.1
  have hstarted := h.started_of_edges hedges
  have hrunning := h.running.trans hactive
  have hput := @putEdges_room p a s bufsz (mytrig p trig) hroom
  rw [or_zero_left h.events] at hput
  have hscan : comediCbBlock ||| comediCbEos ≠ 0 := by decide
  have hon : decide ((comediCbBlock ||| comediCbEos) &&&
    (comediCbEoa ||| comediCbError ||| comediCbOverflow) = 0) = true := by decide
  have hquiet : (comediCbBlock ||| comediCbEos) &&& (comediCbEoa ||| comediCbError) = 0 := by decide
  dsimp only
  rcases @checkEnd_cases p (a, { s with
      out := s.out ++ samples (scanWord s.cmd (mytrig p trig))
      events := comediCbBlock ||| comediCbEos }) with
    ⟨count, hcount, hend⟩ | ⟨hcont, hlast, hend⟩
  · rw [hend] at hput
    rw [serve_reported hedges h.events hput hscan rfl hrunning, hon]
    exact ⟨@Inv.more p a s h hactive hstarted _ rfl _ _ hcount hquiet, rfl⟩
  · have heoa : (comediCbBlock ||| comediCbEos ||| comediCbEoa) &&& comediCbEoa ≠ 0 := by decide
    have hok : (comediCbBlock ||| comediCbEos ||| comediCbEoa) &&& comediCbError = 0 := by decide
    have hnew : comediCbBlock ||| comediCbEos ||| comediCbEoa ≠ 0 := by decide
    rw [hend] at hput
    rw [serve_reported hedges h.events hput hnew rfl hrunning]
    refine ⟨.of_stopped ⟨stopIntr_enab hwhole _ s, rfl, rfl, rfl⟩ rfl rfl fun _ => ?_, rfl⟩
    exact h.over_complete hactive rfl hcont hlast heoa hok rfl rfl rfl

theorem inv_serve_full (hwhole : Whole p) (h : Inv p a s)
    (hedges : s.active = true ∧ mytrig p trig &&& s.enabledMask ≠ 0)
    (hroom : ¬ 4 ≤ room bufsz s) :
    let s' := (serveIntr p a s bufsz trig).2
    Inv p (serveIntr p a s bufsz trig).1 s' ∧ s'.active = false ∧ s'.running = false ∧
      s'.reported &&& comediCbError ≠ 0 := by
  have hactive := hedges.1
  have hstarted := h.started_of_edges hedges
  have hrunning := h.running.trans hactive
  obtain ⟨part, hpart, hput⟩ := @putEdges_full p a s bufsz (mytrig p trig) hroom
  rw [or_zero_left h.events] at hput
  have hone : comediCbError &&& comediCbError ≠ 0 := by decide
  have hnoEoa : comediCbError &&& comediCbEoa = 0 := by decide
  have hnew : comediCbError ≠ 0 := by decide
  have hnew' : comediCbError ||| comediCbEoa ≠ 0 := by decide
  have hboth : (comediCbError ||| comediCbEoa) &&& comediCbError ≠ 0 := by decide
  dsimp only
  rcases @checkEnd_cases p (stopIntr p a { s with
      out := s.out ++ part
      events := comediCbError }) with
    ⟨count, -, hend⟩ | ⟨-, hlast, hend⟩
  · rw [hend] at hput
    rw [serve_reported hedges h.events hput hnew rfl hrunning]
    refine ⟨.of_stopped ⟨stopIntr_enab hwhole _ s, rfl, rfl, rfl⟩ rfl rfl fun _ => ?_, rfl, rfl,
      or_reported hone⟩
    exact h.over_full hactive hstarted hpart hone (.inl hnoEoa) rfl rfl rfl
  · rw [hend] at hput
    rw [serve_reported hedges h.events hput hnew' rfl hrunning]
    refine ⟨.of_stopped ⟨stopIntr_enab hwhole _ s, rfl, rfl, rfl⟩ rfl rfl fun _ => ?_, rfl, rfl,
      or_reported hboth⟩
    exact h.over_full hactive hstarted hpart hboth (.inr hlast) rfl rfl rfl

theorem inv_serve (hwhole : Whole p) (h : Inv p a s) :
    Inv p (serveIntr p a s bufsz trig).1 (serveIntr p a s bufsz trig).2 := by
  by_cases hedges : s.active = true ∧ mytrig p trig &&& s.enabledMask ≠ 0
  · by_cases hroom : 4 ≤ room bufsz s
    · exact (inv_serve_room hwhole h hedges hroom).1
    · exact (inv_serve_full hwhole h hedges hroom).1
  · rw [serveIntr_kept hedges]
    exact h

/-- A command is started: it is complete at once where it asks for no scan. -/
theorem inv_start (hwhole : Whole p) (hbusy : s.busy = true) (hrunning : s.running = true)
    (hevents : s.events = 0) (htrig : s.inttrig = false)
    (hquiet : s.enabledMask = 0 ∧ ∀ port < 3, a.enab port = 0)
    (hlisted : goodChans s.cmd ∧ s.cmd.chanlistLen.toNat ≤ 24)
    (hprogress : Progress { s with inttrig := true }) :
    Inv p (told (startIntr p a s)).1 (told (startIntr p a s)).2 := by
  obtain ⟨hcontinuous, hcounted, hendless, -, hunreported⟩ := hprogress
  unfold told startIntr
  by_cases hempty : s.continuous = false ∧ s.stopCount = 0
  · rw [if_pos hempty]
    dsimp only
    have hcounts := hcontinuous.mp hempty.1
    have hpos : 0 ≤ s.cmd.stopArg.toInt := by
      by_contra hneg
      have hsame := hendless hcounts (by simpa using hneg)
      change s.stopCount = s.cmd.stopArg.toInt at hsame
      omega
    obtain ⟨hsum, -⟩ := hcounted hcounts hpos
    change s.out.length + 2 * s.stopCount = 2 * s.cmd.stopArg.toInt at hsum
    have hlive : ({ s with events := comediCbEoa, active := false } : Pcmuio.Sub).running = true :=
      hrunning
    rw [if_pos rfl, or_zero_left hevents, comediEvent_running hlive]
    have hoff : decide (comediCbEoa &&&
      (comediCbEoa ||| comediCbError ||| comediCbOverflow) = 0) = false := by decide
    dsimp only
    rw [hoff]
    refine .of_stopped ⟨hquiet.2, hquiet.1, rfl, htrig⟩ rfl rfl fun _ =>
      .inl ⟨?_, ?_, hcounts, ?_⟩
    · change (s.reported ||| comediCbEoa) &&& comediCbError = 0
      rw [BitVec.and_or_distrib_right, reported_and hunreported (by decide)]
      decide
    · exact or_reported (by decide)
    · change (s.out.length : Int) = 2 * s.cmd.stopArg.toInt
      omega
  · rw [if_neg hempty]
    dsimp only
    rw [if_neg Bool.false_ne_true]
    obtain ⟨henab, hpol⟩ := start_regs hwhole a (chanBits s.cmd &&& asicMask p) (polBits s.cmd)
    refine ⟨hevents, hrunning, fun _ => hbusy, fun _ => rfl, ?_, fun _ _ => ⟨rfl, ?_, ?_, hpol⟩,
      fun _ => hlisted, fun _ => ⟨hcontinuous, hcounted, hendless, fun _ hcounts hzero =>
        hempty ⟨hcontinuous.mpr hcounts, hzero⟩, hunreported⟩, nofun⟩
    · rintro (hidle | harmed)
      · exact absurd hidle Bool.noConfusion
      · change s.inttrig = true at harmed
        rw [htrig] at harmed
        exact absurd harmed Bool.noConfusion
    · rw [henab]
      exact Function.update_self ..
    · intro port hport hpos
      rw [henab, Function.update_of_ne (Nat.pos_iff_ne_zero.mp hpos)]
      exact hquiet.2 port hport

theorem Inv.idle (h : Inv p a s) (hidle : s.busy = false) :
    s.active = false ∧ s.enabledMask = 0 ∧ ∀ port < 3, a.enab port = 0 := by
  have hactive : s.active = false := by
    by_contra hactive
    have hbusy := h.busy (Bool.not_eq_false _ ▸ hactive)
    rw [hidle] at hbusy
    exact absurd hbusy Bool.noConfusion
  exact ⟨hactive, h.quiet (.inl hactive)⟩

theorem inv_inttrig (hwhole : Whole p) (h : Inv p a s) (trignum : U32) :
    Inv p (inttrigStartIntr p a s trignum).1 (inttrigStartIntr p a s trignum).2 := by
  unfold inttrigStartIntr
  by_cases hrefused : s.inttrig = false ∨ trignum ≠ 0
  · rwa [if_pos hrefused]
  · have harmed : s.inttrig = true := by
      by_contra hnot
      exact hrefused (.inl (Bool.not_eq_true _ ▸ hnot))
    have hactive := h.armed harmed
    rw [if_neg hrefused]
    dsimp only
    rw [if_pos hactive]
    obtain ⟨hcontinuous, hcounted, hendless, -, hunreported⟩ := h.progress hactive
    exact inv_start hwhole (h.busy hactive) (h.running.trans hactive) h.events rfl
      (h.quiet (.inr harmed)) (h.listed hactive)
      ⟨hcontinuous, hcounted, hendless, nofun, hunreported⟩

/-- A command finds the subdevice quiet. -/
theorem inv_cmd (hwhole : Whole p) (hquiet : s.enabledMask = 0 ∧ ∀ port < 3, a.enab port = 0)
    (hbusy : s.busy = true) (hrunning : s.running = true) (hevents : s.events = 0)
    (htrig : s.inttrig = false) (hout : s.out = [] ∧ s.reported = 0)
    (hlisted : goodChans s.cmd ∧ s.cmd.chanlistLen.toNat ≤ 24) :
    Inv p (pcmuioCmd p a s).1 (pcmuioCmd p a s).2 := by
  have hprogress : Progress { s with
      active := true
      continuous := ¬ counts s.cmd
      stopCount := if counts s.cmd then s.cmd.stopArg.toInt else 0
      inttrig := true } := by
    refine ⟨?_, fun hcounts hpos => ?_, fun hcounts _ => if_pos hcounts, nofun, ?_⟩
    · change decide (¬ counts s.cmd) = false ↔ counts s.cmd
      rw [decide_eq_false_iff_not, not_not]
    · change counts s.cmd at hcounts
      dsimp only
      rw [if_pos hcounts, hout.1]
      exact ⟨by simp, hpos⟩
    · change s.reported &&& _ = 0
      rw [hout.2]
      exact BitVec.zero_and
  unfold pcmuioCmd
  dsimp only
  split
  · refine ⟨hevents, hrunning, fun _ => hbusy, fun _ => rfl, fun _ => hquiet, nofun,
      fun _ => hlisted, fun _ => hprogress, nofun⟩
  · obtain ⟨hcontinuous, hcounted, hendless, -, hunreported⟩ := hprogress
    exact inv_start hwhole hbusy hrunning hevents htrig hquiet hlisted
      ⟨hcontinuous, hcounted, hendless, nofun, hunreported⟩

theorem inv_nonbusy (h : Stopped a s) : Inv p a (becomeNonbusy s) :=
  .of_stopped ⟨h.enab, h.mask, h.active, rfl⟩ rfl rfl nofun

theorem Inv.not_armed (h : Inv p a s) (hactive : s.active = false) : s.inttrig = false := by
  by_contra harmed
  have htrue := h.armed (Bool.not_eq_false _ ▸ harmed)
  rw [hactive] at htrue
  exact absurd htrue Bool.noConfusion

theorem inv_doCmd (hwhole : Whole p) (h : Inv p a s) (cmd : Cmd) :
    Inv p (doCmd p a s cmd).1 (doCmd p a s cmd).2 := by
  unfold doCmd
  by_cases hrefused : s.busy = true ∨ p.numAsicChans < cmd.chanlistLen.toNat ∨
      cmd.chanlistLen.toNat < 1
  · rwa [if_pos hrefused]
  have hidle : s.busy = false := Bool.eq_false_iff.mpr fun hbusy => hrefused (.inl hbusy)
  obtain ⟨hactive, hmask, henab⟩ := h.idle hidle
  have htrig := h.not_armed hactive
  have hstopped : ∀ cmd, Stopped a { s with cmd := cmd } := fun _ =>
    ⟨henab, hmask, hactive, htrig⟩
  rw [if_neg hrefused]
  by_cases hbad : ¬ goodChans cmd
  · rw [if_pos hbad]
    exact inv_nonbusy (hstopped cmd)
  rw [if_neg hbad]
  dsimp only
  split
  · exact inv_nonbusy (hstopped _)
  next hpassed =>
    have hret : (pcmuioCmdtest cmd).1 = 0 := by
      by_contra hne
      exact hpassed (.inr hne)
    rw [pcmuioCmdtest_accepted hret]
    refine inv_cmd hwhole ⟨hmask, henab⟩ rfl rfl rfl htrig ⟨rfl, rfl⟩ ⟨not_not.mp hbad, ?_⟩
    by_contra hlong
    refine hrefused (.inr (.inl ?_))
    rw [hwhole.numAsicChans]
    exact Nat.not_le.mp hlong

theorem inv_doCancel (hwhole : Whole p) (h : Inv p a s) :
    Inv p (doCancel p a s).1 (doCancel p a s).2 := by
  unfold doCancel
  split
  · dsimp only
    by_cases hactive : s.active = true
    · rw [if_pos (h.running.trans hactive)]
      unfold pcmuioCancel
      rw [if_pos hactive]
      exact inv_nonbusy (stopIntr_stopped hwhole a s)
    · have hidle := Bool.eq_false_iff.mpr hactive
      have hrunning : ¬ s.running = true := by
        rw [h.running]
        exact hactive
      rw [if_neg hrunning]
      obtain ⟨hmask, henab⟩ := h.quiet (.inl hidle)
      exact inv_nonbusy ⟨henab, hmask, hidle, h.not_armed hidle⟩
  · exact h

theorem inv_readBuf (h : Inv p a s) (n : Nat) : Inv p a (readBuf s n) := by
  refine ⟨h.events, h.running, h.busy, h.armed, h.quiet, fun hactive htrig => ?_, h.listed,
    fun hactive => ?_, h.finished⟩
  · obtain ⟨hmask, hfirst, hothers, hpol⟩ := h.started hactive htrig
    exact ⟨hmask, hfirst, hothers, hpol⟩
  · obtain ⟨hcontinuous, hcounted, hendless, hleft, hunreported⟩ := h.progress hactive
    exact ⟨hcontinuous, hcounted, hendless, hleft, hunreported⟩

end Invariant

section Device

variable {j : Nat} {f : Intr → Asic → Pcmuio.Sub → Asic × Pcmuio.Sub}

/-- A subdevice with its ASIC. -/
def Dev.at (st : Dev) (k : Nat) (p : Intr) : Asic × Pcmuio.Sub := (st.asics p.asic, st.subs k)

theorem onSub_self (hk : intrOf board k = some p) (st : Dev) :
    Dev.at (st.onSub board k f) k p = f p (st.asics p.asic) (st.subs k) := by
  unfold Dev.onSub Dev.at
  rw [hk]
  dsimp only
  rw [Function.update_self, Function.update_self]

/-- The registers of an ASIC but for the page. -/
structure SameRegs (a a' : Asic) : Prop where
  enab : a'.enab = a.enab
  pol : a'.pol = a.pol

theorem readEdges_at (board : PcmuioBoard) (k : Nat) (p : Intr) (e : Edges) (asic : Nat)
    (st : Dev) :
    SameRegs (st.asics p.asic) ((readEdges board st e asic).asics p.asic) ∧
      (readEdges board st e asic).subs k = st.subs k ∧
      (p.asic ≠ asic → (readEdges board st e asic).asics p.asic = st.asics p.asic) := by
  unfold readEdges
  split
  · by_cases hasic : p.asic = asic
    · rw [hasic]
      dsimp only
      rw [Function.update_self]
      exact ⟨⟨rfl, rfl⟩, rfl, fun hne => absurd rfl hne⟩
    · dsimp only
      rw [Function.update_of_ne hasic]
      exact ⟨⟨rfl, rfl⟩, rfl, fun _ => rfl⟩
  · exact ⟨⟨rfl, rfl⟩, rfl, fun _ => rfl⟩

variable (hboard : board.numAsics = 1 ∨ board.numAsics = 2)

include hboard

theorem onSub_other (hk : intrOf board k = some p) (hne : j ≠ k) (st : Dev) :
    Dev.at (st.onSub board j f) k p = Dev.at st k p := by
  unfold Dev.onSub Dev.at
  split
  next q hj =>
    have hasic : p.asic ≠ q.asic := by
      intro heq
      have hp := (intrOf_spec hboard hk).2.1
      have hq := (intrOf_spec hboard hj).2.1
      exact hne (by omega)
    dsimp only
    rw [Function.update_of_ne hasic, Function.update_of_ne hne.symm]
  · rfl

/-- Each subdevice of an ASIC is served once. -/
theorem foldl_serve (hk : intrOf board k = some p) (trig : U32) (asic : Nat) (l : List Nat)
    (hl : l.Nodup) (st : Dev) : Dev.at (l.foldl (serveSub board trig asic) st) k p =
      if p.asic = asic ∧ k ∈ l then serveIntr p (st.asics p.asic) (st.subs k) board.bufsz trig
      else Dev.at st k p := by
  induction l generalizing st with
  | nil => exact (if_neg fun h => absurd h.2 List.not_mem_nil).symm
  | cons j l ih =>
    rw [List.foldl_cons, ih (List.nodup_cons.mp hl).2]
    by_cases hjk : j = k
    · have hself : Dev.at (serveSub board trig asic st j) k p =
          if p.asic = asic then serveIntr p (st.asics p.asic) (st.subs k) board.bufsz trig
          else Dev.at st k p := by
        rw [hjk]
        exact onSub_self hk st
      have hnot : ¬ (p.asic = asic ∧ k ∈ l) := fun h => (List.nodup_cons.mp hl).1 (hjk ▸ h.2)
      rw [if_neg hnot, hself, hjk]
      by_cases hasic : p.asic = asic
      · rw [if_pos hasic, if_pos ⟨hasic, List.mem_cons_self⟩]
      · rw [if_neg hasic, if_neg fun h => hasic h.1]
    · have hother : Dev.at (serveSub board trig asic st j) k p = Dev.at st k p :=
        onSub_other hboard hk hjk st
      have hmem : k ∈ j :: l ↔ k ∈ l := by
        rw [List.mem_cons]
        exact or_iff_right fun h => hjk h.symm
      obtain ⟨hasics, hsubs⟩ := Prod.mk.inj hother
      rw [hother, hasics, hsubs]
      simp only [hmem]

theorem serveAsic_other (hk : intrOf board k = some p) {asic irq : Nat} (hne : p.asic ≠ asic)
    (edges : Nat → Edges) (st : Dev) :
    Dev.at (serveAsic board irq edges st asic) k p = Dev.at st k p := by
  obtain ⟨-, hsubs, hasics⟩ := readEdges_at board k p (edges asic) asic st
  have hread : Dev.at (readEdges board st (edges asic) asic) k p = Dev.at st k p :=
    Prod.ext (hasics hne) hsubs
  unfold serveAsic
  split
  · dsimp only
    split
    · exact hread
    · rw [foldl_serve hboard hk _ _ _ List.nodup_range, if_neg fun h => hne h.1]
      exact hread
  · rfl

theorem serveAsic_own (hk : intrOf board k = some p) {irq : Nat} (hirq : irq = board.irqs p.asic)
    (edges : Nat → Edges) (st : Dev) :
    ∃ a, SameRegs (st.asics p.asic) a ∧ Dev.at (serveAsic board irq edges st p.asic) k p =
      serveIntr p a (st.subs k) board.bufsz (triggered (edges p.asic)) := by
  obtain ⟨hregs, hsubs, -⟩ := readEdges_at board k p (edges p.asic) p.asic st
  refine ⟨(readEdges board st (edges p.asic) p.asic).asics p.asic, hregs, ?_⟩
  unfold serveAsic
  rw [if_pos hirq]
  dsimp only
  by_cases hnone : triggered (edges p.asic) = 0
  · rw [if_pos hnone, hnone, serveIntr_kept]
    · exact Prod.ext rfl hsubs
    · rw [mytrig_zero]
      exact fun h => h.2 BitVec.zero_and
  · rw [if_neg hnone, foldl_serve hboard hk _ _ _ List.nodup_range,
      if_pos ⟨rfl, List.mem_range.mpr (intrOf_lt hk)⟩, hsubs]

/-- An interrupt serves a subdevice once, if it is of its ASIC. -/
theorem interrupt_at (hk : intrOf board k = some p) (irq : Nat) (edges : Nat → Edges) (st : Dev) :
    (irq = board.irqs p.asic → ∃ a, SameRegs (st.asics p.asic) a ∧
      Dev.at (interruptPcmuio board st irq edges) k p =
        serveIntr p a (st.subs k) board.bufsz (triggered (edges p.asic))) ∧
      (irq ≠ board.irqs p.asic →
        Dev.at (interruptPcmuio board st irq edges) k p = Dev.at st k p) := by
  have hloop : interruptPcmuio board st irq edges =
    serveAsic board irq edges (serveAsic board irq edges st 0) 1 := rfl
  have hskip : irq ≠ board.irqs p.asic → ∀ st, serveAsic board irq edges st p.asic = st :=
    fun hirq st => if_neg hirq
  have hlt : p.asic < 2 := (intrOf_spec hboard hk).2.2
  rw [hloop]
  rcases (by omega : p.asic = 0 ∨ p.asic = 1) with hasic | hasic
  · have hother := @serveAsic_other board p k hboard hk 1 irq (by omega) edges
    rw [hother]
    rw [← hasic]
    exact ⟨fun hirq => serveAsic_own hboard hk hirq edges st,
      fun hirq => congrArg (Dev.at · k p) (hskip hirq st)⟩
  · have hother := @serveAsic_other board p k hboard hk 0 irq (by omega) edges st
    obtain ⟨hasics, hsubs⟩ := Prod.mk.inj hother
    constructor
    · intro hirq
      obtain ⟨a, hregs, hserve⟩ := serveAsic_own hboard hk hirq edges
        (serveAsic board irq edges st 0)
      rw [hsubs, hasic] at hserve
      rw [hasics, hasic] at hregs
      rw [hasic]
      exact ⟨a, hregs, hserve⟩
    · intro hirq
      have hsame := hskip hirq (serveAsic board irq edges st 0)
      rw [hasic] at hsame
      rw [hsame]
      exact hother

/-- The states of a board, from its attachment on. -/
inductive Reached (board : PcmuioBoard) : Dev → Prop
  | attach : Reached board {}
  | step {st : Dev} (op : Op) : Reached board st → Reached board (step board st op)

def AllInv (board : PcmuioBoard) (st : Dev) : Prop :=
  ∀ k p, intrOf board k = some p → Inv p (st.asics p.asic) (st.subs k)

theorem allInv_onSub (h : AllInv board st)
    {f : Intr → Asic → Pcmuio.Sub → Asic × Pcmuio.Sub}
    (hf : ∀ p a s, Whole p → Inv p a s → Inv p (f p a s).1 (f p a s).2) (j : Nat) :
    AllInv board (st.onSub board j f) := by
  intro k p hk
  by_cases hjk : j = k
  · obtain ⟨hasics, hsubs⟩ := Prod.mk.inj (onSub_self (f := f) hk st)
    rw [hjk, hasics, hsubs]
    exact hf p _ _ (intrOf_spec hboard hk).1 (h k p hk)
  · obtain ⟨hasics, hsubs⟩ := Prod.mk.inj (onSub_other (f := f) hboard hk hjk st)
    rw [hasics, hsubs]
    exact h k p hk

theorem allInv_interrupt (h : AllInv board st) (irq : Nat) (edges : Nat → Edges) :
    AllInv board (interruptPcmuio board st irq edges) := by
  intro k p hk
  obtain ⟨hown, hother⟩ := interrupt_at hboard hk irq edges st
  by_cases hirq : irq = board.irqs p.asic
  · obtain ⟨a, hregs, hserve⟩ := hown hirq
    obtain ⟨hasics, hsubs⟩ := Prod.mk.inj hserve
    rw [hasics, hsubs]
    exact inv_serve (intrOf_spec hboard hk).1 ((h k p hk).same_regs hregs.enab hregs.pol)
  · obtain ⟨hasics, hsubs⟩ := Prod.mk.inj (hother hirq)
    rw [hasics, hsubs]
    exact h k p hk

theorem allInv_step (h : AllInv board st) (op : Op) : AllInv board (step board st op) := by
  cases op with
  | cmd k cmd => exact allInv_onSub hboard h (fun _ _ _ hwhole h => inv_doCmd hwhole h cmd) k
  | inttrig k trignum =>
    exact allInv_onSub hboard h (fun _ _ _ hwhole h => inv_inttrig hwhole h trignum) k
  | cancel k => exact allInv_onSub hboard h (fun _ _ _ hwhole h => inv_doCancel hwhole h) k
  | read k n => exact allInv_onSub hboard h (fun _ _ _ _ h => inv_readBuf h n) k
  | interrupt irq edges => exact allInv_interrupt hboard h irq edges

theorem Reached.inv (h : Reached board st) : AllInv board st := by
  induction h with
  | attach =>
    exact fun _ _ _ => ⟨rfl, rfl, nofun, nofun, fun _ => ⟨rfl, fun _ _ => rfl⟩, nofun, nofun,
      nofun, nofun⟩
  | step op _ ih => exact allInv_step hboard ih op

end Device

section Runs

/-- An interrupt subdevice follows its channel list: the registers of its ASIC, the samples in its
buffer and the events, and what the next interrupt does. Only the first port is enabled, and a
count of 2^31 scans or more never comes to its end. -/
structure Follows (board : PcmuioBoard) (st : Dev) (k : Nat) (p : Intr) : Prop where
  enabled : (st.subs k).active = true → (st.subs k).inttrig = false → ∀ port < 3, ∀ j < 8,
    ((st.asics p.asic).enab port).getLsbD j = true ↔
      port = 0 ∧ ∃ n < (st.subs k).cmd.chanlistLen.toNat,
        (crChan (chanspec (st.subs k).cmd n)).toNat = j
  polarity : (st.subs k).active = true → (st.subs k).inttrig = false → ∀ port < 3, ∀ j < 8,
    ((st.asics p.asic).pol port).getLsbD j = true ↔
      ∃ n < (st.subs k).cmd.chanlistLen.toNat,
        (crChan (chanspec (st.subs k).cmd n)).toNat = 8 * port + j ∧
          (crAref (chanspec (st.subs k).cmd n) ≠ 0 ∨ crRange (chanspec (st.subs k).cmd n) ≠ 0)
  disabled : (st.subs k).active = false ∨ (st.subs k).inttrig = true →
    ∀ port < 3, (st.asics p.asic).enab port = 0
  within : (st.subs k).busy = true → counts (st.subs k).cmd →
    (st.subs k).cmd.stopArg.toNat < 2 ^ 31 →
      (st.subs k).out.length ≤ 2 * (st.subs k).cmd.stopArg.toNat
  complete : (st.subs k).busy = true → (st.subs k).reported &&& comediCbEoa ≠ 0 →
    (st.subs k).reported &&& comediCbError = 0 → (st.subs k).active = false ∧
      counts (st.subs k).cmd ∧ (st.subs k).out.length = 2 * (st.subs k).cmd.stopArg.toNat
  told : (st.subs k).busy = true → (st.subs k).active = false →
    (st.subs k).reported &&& comediCbEoa ≠ 0 ∨ (st.subs k).reported &&& comediCbError ≠ 0
  endless : (st.subs k).busy = true → counts (st.subs k).cmd →
    2 ^ 31 ≤ (st.subs k).cmd.stopArg.toNat → (st.subs k).reported &&& comediCbEoa = 0
  scans : ∀ irq edges, irq = board.irqs p.asic → (st.subs k).active = true →
    let trig := mytrig p (triggered (edges p.asic))
    trig &&& (st.subs k).enabledMask ≠ 0 → 4 ≤ room board.bufsz (st.subs k) →
      ∃ val : U32, ((step board st (.interrupt irq edges)).subs k).out =
          (st.subs k).out ++ samples val ∧
        ∀ n < 32, val.getLsbD n = true ↔ n < (st.subs k).cmd.chanlistLen.toNat ∧
          trig.getLsbD (crChan (chanspec (st.subs k).cmd n)).toNat = true
  full : ∀ irq edges, irq = board.irqs p.asic → (st.subs k).active = true →
    mytrig p (triggered (edges p.asic)) &&& (st.subs k).enabledMask ≠ 0 →
      ¬ 4 ≤ room board.bufsz (st.subs k) →
        let s' := (step board st (.interrupt irq edges)).subs k
        s'.active = false ∧ s'.running = false ∧ s'.reported &&& comediCbError ≠ 0
  quiet : ∀ irq edges, ¬ (irq = board.irqs p.asic ∧ (st.subs k).active = true ∧
    mytrig p (triggered (edges p.asic)) &&& (st.subs k).enabledMask ≠ 0) →
      (step board st (.interrupt irq edges)).subs k = st.subs k

theorem Inv.enabled (hwhole : Whole p) (h : Inv p a s) (hactive : s.active = true)
    (htrig : s.inttrig = false) {port j : Nat} (hport : port < 3) (hj : j < 8) :
    (a.enab port).getLsbD j = true ↔
      port = 0 ∧ ∃ n < s.cmd.chanlistLen.toNat, (crChan (chanspec s.cmd n)).toNat = j := by
  obtain ⟨-, hfirst, hothers, -⟩ := h.started hactive htrig
  rcases Nat.eq_zero_or_pos port with rfl | hpos
  · rw [hfirst, portBits_bit hwhole _ hj, asicMask_bit hwhole _ (by omega),
      chanBits_bit (by omega), Nat.mul_zero, Nat.zero_add]
    exact (and_iff_right rfl).symm
  · rw [hothers port hport hpos]
    exact iff_of_false (by simp) fun hzero => Nat.ne_of_gt hpos hzero.1

theorem Inv.within (h : Inv p a s) (hbusy : s.busy = true) (hcounts : counts s.cmd)
    (hsmall : s.cmd.stopArg.toNat < 2 ^ 31) : s.out.length ≤ 2 * s.cmd.stopArg.toNat := by
  have hint := @BitVec.toInt_eq_toNat_of_lt _ s.cmd.stopArg (by omega)
  by_cases hactive : s.active = true
  · obtain ⟨hsum, hle⟩ := (h.progress hactive).counted hcounts (by omega)
    omega
  · rcases h.finished hbusy (Bool.eq_false_iff.mpr hactive) with
      ⟨-, -, -, hlength⟩ | ⟨-, hlength, -⟩
    · omega
    · have hlt := hlength hcounts (by omega)
      omega

theorem Inv.complete (h : Inv p a s) (hbusy : s.busy = true)
    (heoa : s.reported &&& comediCbEoa ≠ 0) (hok : s.reported &&& comediCbError = 0) :
    s.active = false ∧ counts s.cmd ∧ s.out.length = 2 * s.cmd.stopArg.toNat := by
  by_cases hactive : s.active = true
  · exact absurd (reported_and (h.progress hactive).unreported (by decide)) heoa
  · have hidle := Bool.eq_false_iff.mpr hactive
    rcases h.finished hbusy hidle with ⟨-, -, hcounts, hlength⟩ | ⟨herror, -, -⟩
    · have hsmall : s.cmd.stopArg.toNat < 2 ^ 31 := by
        by_contra hlarge
        have hneg := (@BitVec.toInt_neg_iff _ s.cmd.stopArg).mpr (by omega)
        omega
      have hint := @BitVec.toInt_eq_toNat_of_lt _ s.cmd.stopArg (by omega)
      exact ⟨hidle, hcounts, by omega⟩
    · exact absurd hok herror

theorem Inv.endless (h : Inv p a s) (hbusy : s.busy = true) (hcounts : counts s.cmd)
    (hlarge : 2 ^ 31 ≤ s.cmd.stopArg.toNat) : s.reported &&& comediCbEoa = 0 := by
  have hneg := (@BitVec.toInt_neg_iff _ s.cmd.stopArg).mpr (by omega)
  by_cases hactive : s.active = true
  · exact reported_and (h.progress hactive).unreported (by decide)
  · rcases h.finished hbusy (Bool.eq_false_iff.mpr hactive) with
      ⟨-, -, -, hlength⟩ | ⟨-, -, hnone⟩
    · omega
    · exact hnone hcounts hneg

/-- On both boards, every interrupt subdevice follows its channel list in every state. -/
theorem follows_chanlist (hboard : board.numAsics = 1 ∨ board.numAsics = 2)
    (h : Reached board st) (hk : intrOf board k = some p) : Follows board st k p := by
  have hwhole := (intrOf_spec hboard hk).1
  have hinv := h.inv hboard k p hk
  have hserve : ∀ {irq : Nat} {edges : Nat → Edges}, irq = board.irqs p.asic →
      ∃ a, Inv p a (st.subs k) ∧ (step board st (.interrupt irq edges)).subs k =
        (serveIntr p a (st.subs k) board.bufsz (triggered (edges p.asic))).2 := by
    intro irq edges hirq
    obtain ⟨a, hregs, hat⟩ := (interrupt_at hboard hk irq edges st).1 hirq
    exact ⟨a, hinv.same_regs hregs.enab hregs.pol, congrArg Prod.snd hat⟩
  refine ⟨fun hactive htrig port hport j hj => hinv.enabled hwhole hactive htrig hport hj,
    fun hactive htrig port hport j hj => ?_, fun hidle => (hinv.quiet hidle).2, hinv.within,
    hinv.complete, fun hbusy hidle => ?_, hinv.endless,
    fun irq edges hirq hactive hedges hroom => ?_, fun irq edges hirq hactive hedges hroom => ?_,
    fun irq edges hnone => ?_⟩
  · rw [(hinv.started hactive htrig).pol port hport, portBits_bit hwhole _ hj,
      polBits_bit (by omega)]
  · rcases hinv.finished hbusy hidle with ⟨-, heoa, -⟩ | ⟨herror, -⟩
    · exact .inl heoa
    · exact .inr herror
  · obtain ⟨a, hinv', hserved⟩ := @hserve irq edges hirq
    refine ⟨_, hserved ▸ (inv_serve_room hwhole hinv' ⟨hactive, hedges⟩ hroom).2, fun n hn => ?_⟩
    exact scanWord_bit hn fun i hi => ((hinv.listed hactive).1 i hi).1
  · obtain ⟨a, hinv', hserved⟩ := @hserve irq edges hirq
    rw [hserved]
    exact (inv_serve_full hwhole hinv' ⟨hactive, hedges⟩ hroom).2
  · by_cases hirq : irq = board.irqs p.asic
    · obtain ⟨a, -, hserved⟩ := @hserve irq edges hirq
      rw [hserved, serveIntr_kept fun hedges => hnone ⟨hirq, hedges⟩]
    · exact congrArg Prod.snd ((interrupt_at hboard hk irq edges st).2 hirq)

/-- Two scans of the lines 0 and 9. -/
def twoLines : Cmd :=
  { startSrc := trigNow, scanBeginSrc := trigExt, convertSrc := trigNow, scanEndSrc := trigCount,
    scanEndArg := 2, stopSrc := trigCount, stopArg := 2, chanlist := .kernel [0, 9],
    chanlistLen := 2 }

theorem follows_two_lines :
    let board : PcmuioBoard := ⟨1, fun _ => 5, 4096⟩
    let st := step board (step board {} (.cmd 0 twoLines))
      (.interrupt 5 fun _ => ⟨1, fun _ => 1⟩)
    (st.subs 0).out = [1, 0] ∧ Follows board st 0 ⟨0, 0, 0, 24⟩ := by
  refine ⟨by decide, follows_chanlist (.inl rfl) (.step _ (.step _ .attach)) ?_⟩
  unfold intrOf
  rw [subdevs_one]
  rfl

end Runs

end Comedi.PcmuioRuns
