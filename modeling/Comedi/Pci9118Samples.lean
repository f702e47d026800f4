import Comedi.Padding
import Comedi.SampleSink
import Mathlib.Logic.Function.Basic

namespace Comedi.Pci9118Samples

open Padding SampleSink

abbrev U16 := BitVec 16

def masterAbortInt : U32 := 0x00100000
def targetAbortInt : U32 := 0x00200000
def anyS593xInt : U32 := 0x00800000
def adStatusDth : U32 := 0x010
def intDtrg : U32 := 0x01
def startAiExt : U32 := 0x01
def stopAiExt : U32 := 0x02

/-- What an acquisition by DMA is set up with. -/
structure Config where
  doublebuf : Bool
  useSize : Fin 2 → U32
  addFront : U32
  nChan : U32
  addBack : U32
  nScanlen : U32
  scans : U32
  neverending : Bool
  startstop : U32 := 0
  maskharderr : U32 := 0x10a
  free : Nat
  rawScan : addFront.toNat + nChan.toNat + addBack.toNat < 2 ^ 32 := by decide
  chan_pos : 0 < nChan.toNat := by decide
  scanlen_pos : 0 < nScanlen.toNat := by decide
  scanlen_le : nScanlen.toNat ≤ 2 ^ 31 := by decide
  scans_zero : neverending = true → scans = 0 := by decide

/-- An acquisition: what the driver and the core keep, the transfer that the board has been given,
and the samples that it has made and that were offered to the data buffer since the start. -/
structure Acq where
  config : Config
  aiDo : Bool := true
  neverending : Bool
  startstop : U32
  maskerr : U32 := 0x10e
  actbuf : Fin 2 := 0
  actDmapos : U32 := 0
  actScan : U32 := 0
  curChan : U32 := 0
  transfer : Fin 2 × U32
  enA2p : Bool := true
  sink : Sink U16
  running : Bool := true
  reported : U32 := 0
  raw : List U16 := []
  offered : List U16 := []

/-- The start of an acquisition. -/
def Config.start (c : Config) : Acq :=
  { config := c, neverending := c.neverending, startstop := c.startstop
    transfer := (0, c.useSize 0), sink := { free := c.free } }

section Defragment

variable (c : Config)

def startPos : U32 := c.addFront

def stopPos : U32 := c.addFront + c.nChan

def rawScanlen : U32 := c.addFront + c.nChan + c.addBack

/-- The samples that are kept, the position in the raw scan, and the buffer. -/
structure Moved where
  j : Nat
  dmapos : U32
  buffer : Nat → U16

/-- One sample of `defragment_dma_buffer`, which moves samples within the buffer. -/
def defragmentSample (st : Moved) (i : Nat) : Moved :=
  let kept := if startPos c ≤ st.dmapos ∧ st.dmapos < stopPos c then
      { st with j := st.j + 1, buffer := Function.update st.buffer st.j (st.buffer i) }
    else st
  { kept with dmapos := (kept.dmapos + 1) % rawScanlen c }

/-- `defragment_dma_buffer`. -/
def defragmentDmaBuffer (dmapos : U32) (buffer : Nat → U16) (numSamples : Nat) : Moved :=
  (List.range numSamples).foldl (defragmentSample c) ⟨0, dmapos, buffer⟩

end Defragment

/-- What an interrupt reads, and the buffer of the transfer that is complete. -/
structure Reading where
  intDaq : U32
  intAmcc : U32
  intAdstat : U32 := 0
  buffer : Nat → U16

section Interrupt

variable (x : Acq) (r : Reading)

/-- `comedi_event`. -/
def comediEvent : Acq :=
  if x.running then
    { x with
      running := x.sink.events &&& endBits = 0
      reported := x.reported ||| x.sink.events
      sink := { x.sink with events := 0 } }
  else x

/-- `pci9118_ai_cancel`. -/
def aiCancel : Acq :=
  { x with
    aiDo := false
    actScan := 0
    actDmapos := 0
    curChan := 0
    neverending := false
    actbuf := 0
    enA2p := false }

/-- An error ends the acquisition. -/
def fail : Acq :=
  comediEvent (aiCancel { x with sink := raise x.sink (comediCbError ||| comediCbEoa) })

/-- `pci9118_decode_error_status` gets the lower byte of the status. -/
def errorStatus : U32 := r.intAdstat &&& 0xff

/-- Each error is looked at once. -/
def decodedMask (m : U32) : U32 := x.maskerr &&& ~~~(m &&& 0x10e)

/-- The samples of a transfer. -/
def transferred (size : U32) (buffer : Nat → U16) : List U16 :=
  (List.range (size >>> 1).toNat).map buffer

/-- `move_block_from_dma`. -/
def moveBlockFromDma (buffer : Nat → U16) (numSamples : Nat) : Acq :=
  let moved := defragmentDmaBuffer x.config x.actDmapos buffer numSamples
  let samples := (List.range moved.j).map moved.buffer
  let count : U32 := x.curChan + BitVec.ofNat 32 moved.j
  { x with
    actDmapos := moved.dmapos
    actScan := x.actScan + count / x.config.nScanlen
    curChan := count % x.config.nScanlen
    sink := putArray x.sink samples
    raw := x.raw ++ (List.range numSamples).map buffer
    offered := x.offered ++ samples }

/-- The board is given the other buffer. -/
def switchTransfer : Acq :=
  if x.config.doublebuf then
    { x with transfer := (1 - x.actbuf, x.config.useSize (1 - x.actbuf)) }
  else x

/-- All scans have been sampled. -/
def checkScans : Acq :=
  if x.neverending = false ∧ x.config.scans ≤ x.actScan then
    let stopped := aiCancel x
    { stopped with sink := raise stopped.sink comediCbEoa }
  else x

/-- The buffers are switched, or the board is given the same one again. -/
def restartTransfer : Acq :=
  if x.config.doublebuf then { x with actbuf := 1 - x.actbuf }
  else { x with transfer := (0, x.config.useSize 0) }

/-- `interrupt_pci9118_ai_dma`. -/
def aiDma : Acq :=
  if r.intAmcc &&& masterAbortInt ≠ 0 then fail x
  else if r.intAmcc &&& targetAbortInt ≠ 0 then fail x
  else
    let checked := if r.intAdstat &&& x.maskerr ≠ 0 then
        { x with maskerr := decodedMask x (errorStatus r) } else x
    if r.intAdstat &&& x.maskerr ≠ 0 ∧ errorStatus r &&& x.config.maskharderr ≠ 0 then
      fail checked
    else
      let samples := (x.config.useSize x.actbuf >>> 1).toNat
      let switched := switchTransfer checked
      let moved := if samples ≠ 0 then moveBlockFromDma switched r.buffer samples else switched
      comediEvent (restartTransfer (checkScans moved))

/-- The external trigger starts and stops an acquisition. -/
def externalTrigger : Acq :=
  if x.startstop ≠ 0 ∧ r.intAdstat &&& adStatusDth ≠ 0 ∧ r.intDaq &&& intDtrg ≠ 0 then
    if x.startstop &&& startAiExt ≠ 0 then { x with startstop := x.startstop &&& ~~~startAiExt }
    else if x.startstop &&& stopAiExt ≠ 0 then
      { x with startstop := x.startstop &&& ~~~stopAiExt, neverending := false }
    else x
  else x

/-- The bits of the board's registers that are looked at. -/
def seen : Reading :=
  { r with intDaq := r.intDaq &&& 0xf, intAdstat := r.intAdstat &&& 0x1ff }

/-- `interrupt_pci9118`. -/
def interruptPci9118 : Acq :=
  if (seen r).intDaq = 0 ∧ r.intAmcc &&& anyS593xInt = 0 then x
  else if x.aiDo then aiDma (externalTrigger x (seen r)) (seen r)
  else x

end Interrupt

section Stream

variable {c : Config} {x : Acq} {r : Reading}

/-- The samples of a raw scan. -/
def rawLength (c : Config) : Nat := c.addFront.toNat + c.nChan.toNat + c.addBack.toNat

theorem rawLength_pos (c : Config) : 0 < rawLength c := by
  have := c.chan_pos
  unfold rawLength
  omega

theorem toNat_stopPos (c : Config) : (stopPos c).toNat = c.addFront.toNat + c.nChan.toNat := by
  have := c.rawScan
  unfold stopPos
  rw [BitVec.toNat_add]
  exact Nat.mod_eq_of_lt (by omega)

theorem toNat_rawScanlen (c : Config) : (rawScanlen c).toNat = rawLength c := by
  have := c.rawScan
  unfold rawScanlen rawLength
  rw [BitVec.toNat_add, BitVec.toNat_add, Nat.mod_add_mod]
  exact Nat.mod_eq_of_lt (by omega)

/-- The samples of a stream that belong to the channels of the list. -/
def wanted (c : Config) (pos : Nat) (raw : List U16) : List U16 :=
  unpad c.addFront.toNat c.nChan.toNat (rawLength c) pos raw

theorem inWindow_iff (c : Config) (pos : U32) : startPos c ≤ pos ∧ pos < stopPos c ↔
    c.addFront.toNat ≤ pos.toNat ∧ pos.toNat < c.addFront.toNat + c.nChan.toNat := by
  rw [← toNat_stopPos]
  exact Iff.rfl

theorem toNat_next {pos : U32} (h : pos.toNat < rawLength c) :
    ((pos + 1) % rawScanlen c).toNat = (pos.toNat + 1) % rawLength c := by
  have hlt : rawLength c < 2 ^ 32 := c.rawScan
  have hsum : (pos + 1).toNat = pos.toNat + 1 := by
    rw [BitVec.toNat_add]
    exact Nat.mod_eq_of_lt (by change pos.toNat + 1 < 2 ^ 32; omega)
  rw [BitVec.toNat_umod, toNat_rawScanlen, hsum]

/-- The loop over a buffer keeps the samples of the list in front, and does not touch those that
are still to come. -/
theorem defragment_spec {pos : U32} (hpos : pos.toNat < rawLength c) (buffer : Nat → U16)
    (num : Nat) :
    let moved := defragmentDmaBuffer c pos buffer num
    (List.range moved.j).map moved.buffer =
        wanted c pos.toNat ((List.range num).map buffer) ∧
      moved.dmapos.toNat = (pos.toNat + num) % rawLength c ∧
      moved.j ≤ num ∧ ∀ k, num ≤ k → moved.buffer k = buffer k := by
  induction num with
  | zero => exact ⟨rfl, (Nat.mod_eq_of_lt hpos).symm, le_rfl, fun _ _ => rfl⟩
  | succ num ih =>
    obtain ⟨hkept, hdmapos, hle, hrest⟩ := ih
    have hfold : defragmentDmaBuffer c pos buffer (num + 1) =
        defragmentSample c (defragmentDmaBuffer c pos buffer num) num := by
      unfold defragmentDmaBuffer
      rw [List.range_succ, List.foldl_append, List.foldl_cons, List.foldl_nil]
    have hraw : (List.range (num + 1)).map buffer =
        (List.range num).map buffer ++ [buffer num] := by
      rw [List.range_succ, List.map_append, List.map_singleton]
    dsimp only at hkept hdmapos hle hrest ⊢
    rw [hfold, hraw]
    generalize defragmentDmaBuffer c pos buffer num = moved at hkept hdmapos hle hrest
    have hlt : moved.dmapos.toNat < rawLength c := by
      rw [hdmapos]
      exact Nat.mod_lt _ (rawLength_pos c)
    have hwindow := inWindow_iff c moved.dmapos
    have hnext : ((moved.dmapos + 1) % rawScanlen c).toNat =
        (pos.toNat + (num + 1)) % rawLength c := by
      rw [toNat_next hlt, hdmapos, Nat.mod_add_mod, Nat.add_assoc]
    have hstep : wanted c pos.toNat ((List.range num).map buffer ++ [buffer num]) =
        (List.range moved.j).map moved.buffer ++
          if startPos c ≤ moved.dmapos ∧ moved.dmapos < stopPos c then [buffer num] else [] := by
      unfold wanted at hkept ⊢
      rw [unpad_append hpos, ← hkept, List.length_map, List.length_range, ← hdmapos, unpad_cons]
      simp only [hwindow]
      exact congrArg _ (List.append_nil _)
    unfold defragmentSample
    rw [hstep]
    by_cases hinside : startPos c ≤ moved.dmapos ∧ moved.dmapos < stopPos c
    · rw [if_pos hinside, if_pos hinside]
      refine ⟨?_, hnext, Nat.succ_le_succ hle, fun k hk => ?_⟩
      · dsimp only
        rw [List.range_succ, List.map_append, List.map_singleton, Function.update_self,
          hrest num le_rfl]
        refine congrArg (· ++ _) (List.map_congr_left fun k hk => ?_)
        exact Function.update_of_ne (Nat.ne_of_lt (List.mem_range.mp hk)) ..
      · dsimp only
        rw [Function.update_of_ne (by omega)]
        exact hrest k (by omega)
    · rw [if_neg hinside, if_neg hinside, List.append_nil]
      exact ⟨rfl, hnext, Nat.le_succ_of_le hle, fun k hk => hrest k (by omega)⟩

end Stream

section Runs

variable {c : Config} {x y m : Acq} {r : Reading} {l chunk : List U16}

/-- The positions in the raw scan and in the scan, and the scans that are complete. -/
structure Counted (x : Acq) : Prop where
  dmapos : x.actDmapos.toNat = x.raw.length % rawLength x.config
  curChan : x.curChan.toNat = x.offered.length % x.config.nScanlen.toNat
  actScan : x.actScan.toNat = x.offered.length / x.config.nScanlen.toNat % 2 ^ 32

/-- A buffer of samples has been taken, and nothing else has changed. -/
structure Takes (x m : Acq) (chunk : List U16) : Prop where
  same : m = { x with
    actDmapos := m.actDmapos
    actScan := m.actScan
    curChan := m.curChan
    sink := m.sink
    raw := m.raw
    offered := m.offered }
  raw : m.raw = x.raw ++ chunk
  offered : m.offered = x.offered ++ wanted x.config x.actDmapos.toNat chunk
  sink : m.sink = putArray x.sink (wanted x.config x.actDmapos.toNat chunk)
  counted : Counted m

theorem takes_nothing (h : Counted x) : Takes x x [] :=
  ⟨rfl, (List.append_nil _).symm, (List.append_nil _).symm, (if_pos rfl).symm, h⟩

theorem scan_count {a b n : Nat} (hn : 0 < n) : (a + b) / n = a / n + (a % n + b) / n ∧
    (a + b) % n = (a % n + b) % n := by
  have hsum : a + b = n * (a / n) + (a % n + b) := by
    rw [← Nat.add_assoc, Nat.div_add_mod]
  have hdiv := congrArg (· / n) hsum
  rw [Nat.mul_add_div hn] at hdiv
  exact ⟨hdiv, (Nat.mod_add_mod ..).symm⟩

theorem takes_block (h : Counted x) (buffer : Nat → U16) {num : Nat} (hnum : num < 2 ^ 31) :
    Takes x (moveBlockFromDma x buffer num) ((List.range num).map buffer) := by
  obtain ⟨hdmapos, hcurChan, hactScan⟩ := h
  have hpos : x.actDmapos.toNat < rawLength x.config := by
    rw [hdmapos]
    exact Nat.mod_lt _ (rawLength_pos _)
  obtain ⟨hkept, hnext, hle, -⟩ := defragment_spec hpos buffer num
  have hscan := x.config.scanlen_pos
  have hscanLe := x.config.scanlen_le
  have hcur := Nat.mod_lt x.offered.length hscan
  unfold moveBlockFromDma
  generalize defragmentDmaBuffer x.config x.actDmapos buffer num = moved at hkept hnext hle
  have hj : (BitVec.ofNat 32 moved.j).toNat = moved.j := by
    rw [BitVec.toNat_ofNat]
    exact Nat.mod_eq_of_lt (by omega)
  have hcount : (x.curChan + BitVec.ofNat 32 moved.j).toNat =
      x.offered.length % x.config.nScanlen.toNat + moved.j := by
    rw [BitVec.toNat_add, hj, hcurChan]
    exact Nat.mod_eq_of_lt (by omega)
  have hlength : (x.offered ++ (List.range moved.j).map moved.buffer).length =
      x.offered.length + moved.j := by
    rw [List.length_append, List.length_map, List.length_range]
  obtain ⟨hdiv, hmod⟩ := @scan_count x.offered.length moved.j _ hscan
  refine ⟨rfl, rfl, ?_, ?_, ⟨?_, ?_, ?_⟩⟩
  · rw [← hkept]
  · rw [← hkept]
  · dsimp only
    rw [hnext, hdmapos, List.length_append, List.length_map, List.length_range, Nat.mod_add_mod]
  · dsimp only
    rw [BitVec.toNat_umod, hcount, hlength, hmod]
  · dsimp only
    rw [BitVec.toNat_add, BitVec.toNat_udiv, hcount, hactScan, hlength, hdiv, Nat.mod_add_mod]

/-- What every interrupt preserves. -/
structure Inv (x : Acq) : Prop where
  offered : x.offered = wanted x.config 0 x.raw
  counted : x.aiDo = true → Counted x
  armed : x.aiDo = true → x.transfer = (x.actbuf, x.config.useSize x.actbuf) ∧
    x.enA2p = true ∧ (x.config.doublebuf = false → x.actbuf = 0)
  delivered : x.running = true →
    x.sink.out = x.offered ∧ x.sink.events = 0 ∧ x.reported &&& endBits = 0
  stopped : x.aiDo = false → x.enA2p = false ∧ x.running = false
  finite : x.aiDo = true → x.config.neverending = false → x.neverending = false
  below : x.aiDo = true → x.config.neverending = false → 0 < x.config.scans.toNat →
    x.config.scans.toNat ≤ 2 ^ 31 →
      x.offered.length / x.config.nScanlen.toNat < x.config.scans.toNat

theorem inv_start (c : Config) : Inv c.start := by
  refine ⟨rfl, fun _ => ⟨?_, ?_, ?_⟩, fun _ => ⟨rfl, rfl, fun _ => rfl⟩, fun _ => ⟨rfl, rfl, ?_⟩,
    nofun, fun _ h => h, fun _ _ hpos _ => ?_⟩
  · exact (Nat.zero_mod _).symm
  · exact (Nat.zero_mod _).symm
  · change 0 = 0 / c.nScanlen.toNat % 2 ^ 32
    rw [Nat.zero_div]
    rfl
  · exact BitVec.zero_and
  · change 0 / c.nScanlen.toNat < _
    rwa [Nat.zero_div]

theorem putArray_events {s : Sink U16} (h : s.events = 0) (l : List U16) :
    (putArray s l).events &&& comediCbEoa = 0 ∧
      ((putArray s l).events &&& endBits = 0 → (putArray s l).out = s.out ++ l) := by
  have hover : ((0 : U32) ||| comediCbOverflow) &&& comediCbEoa = 0 ∧
      ((0 : U32) ||| comediCbOverflow) &&& endBits ≠ 0 := by decide
  have hblock : ((0 : U32) ||| comediCbBlock) &&& comediCbEoa = 0 := by decide
  unfold putArray
  split
  next hnil =>
    rw [h, hnil, List.append_nil]
    exact ⟨BitVec.zero_and, fun _ => rfl⟩
  rw [h]
  split
  · exact ⟨hover.1, fun hend => absurd hend hover.2⟩
  · exact ⟨hblock, fun _ => rfl⟩

/-- Only what the trigger and the error status change is different. -/
structure Keeps (x y : Acq) : Prop where
  same : y = { x with
    startstop := y.startstop, neverending := y.neverending, maskerr := y.maskerr }
  finite : x.neverending = false → y.neverending = false

theorem keeps_trigger (x : Acq) (r : Reading) : Keeps x (externalTrigger x r) := by
  unfold externalTrigger
  split
  · split
    · exact ⟨rfl, id⟩
    · split
      · exact ⟨rfl, fun _ => rfl⟩
      · exact ⟨rfl, id⟩
  · exact ⟨rfl, id⟩

theorem Keeps.mask (h : Keeps x y) (mask : U32) : Keeps x { y with maskerr := mask } :=
  ⟨by rw [h.same], h.finite⟩

/-- The interrupt is the board's, and an acquisition is going on. -/
def Served (x : Acq) (r : Reading) : Prop :=
  x.aiDo = true ∧ ¬ ((seen r).intDaq = 0 ∧ r.intAmcc &&& anyS593xInt = 0)

/-- The DMA was aborted, or an error is reported that is a hard one. -/
def Fails (x : Acq) (r : Reading) : Prop :=
  r.intAmcc &&& masterAbortInt ≠ 0 ∨ r.intAmcc &&& targetAbortInt ≠ 0 ∨
    r.intAdstat &&& x.maskerr ≠ 0 ∧ errorStatus r &&& x.config.maskharderr ≠ 0

/-- The external trigger ends the acquisition. -/
def Stops (x : Acq) (r : Reading) : Prop :=
  x.startstop &&& startAiExt = 0 ∧ x.startstop &&& stopAiExt ≠ 0 ∧
    r.intAdstat &&& adStatusDth ≠ 0 ∧ r.intDaq &&& intDtrg ≠ 0

theorem trigger_stops (x : Acq) (r : Reading) :
    (externalTrigger x r).neverending = false ↔ x.neverending = false ∨ Stops x r := by
  unfold externalTrigger Stops
  by_cases htrigger : r.intAdstat &&& adStatusDth ≠ 0 ∧ r.intDaq &&& intDtrg ≠ 0
  · by_cases hstart : x.startstop &&& startAiExt = 0
    · by_cases hstop : x.startstop &&& stopAiExt = 0
      · simp [hstart, hstop]
      · have hne : x.startstop ≠ 0 := fun hzero => hstop (by rw [hzero]; exact BitVec.zero_and)
        rw [if_pos ⟨hne, htrigger⟩, if_neg (not_not.mpr hstart), if_pos hstop]
        exact ⟨fun _ => .inr ⟨hstart, hstop, htrigger⟩, fun _ => rfl⟩
    · rw [or_iff_left (fun h => hstart h.1), if_pos hstart]
      split
      · rfl
      · rfl
  · rw [or_iff_left (fun h => htrigger h.2.2), if_neg (fun h => htrigger h.2)]

theorem trigger_fails (x : Acq) (r st : Reading) :
    Fails (externalTrigger x st) r ↔ Fails x r := by
  unfold externalTrigger
  split
  · split
    · rfl
    · split
      · rfl
      · rfl
  · rfl

/-- What is done after a transfer was taken. -/
def afterTransfer (x : Acq) : Acq := comediEvent (restartTransfer (checkScans x))

/-- The samples of the transfer that is complete. -/
def received (x : Acq) (r : Reading) : List U16 :=
  transferred (x.config.useSize x.actbuf) r.buffer

theorem takes_transfer (h : Counted x) (buffer : Nat → U16) (size : U32) :
    Takes x (if (size >>> 1).toNat ≠ 0 then moveBlockFromDma x buffer (size >>> 1).toNat else x)
      (transferred size buffer) := by
  have hsize : (size >>> 1).toNat < 2 ^ 31 := by
    rw [BitVec.toNat_ushiftRight, Nat.shiftRight_eq_div_pow]
    have := size.isLt
    omega
  unfold transferred
  split
  · exact takes_block h buffer hsize
  · next hzero =>
    rw [not_not.mp hzero]
    exact takes_nothing h

theorem counted_switch (h : Counted x) : Counted (switchTransfer x) := by
  unfold switchTransfer
  split
  · exact ⟨h.dmapos, h.curChan, h.actScan⟩
  · exact h

theorem aiDma_cases (h : Counted x) (r : Reading) :
    (Fails x r ∧ ∃ y, Keeps x y ∧ aiDma x r = fail y) ∨
    (¬ Fails x r ∧ ∃ mask m,
      Takes (switchTransfer { x with maskerr := mask }) m (received x r) ∧
      aiDma x r = afterTransfer m) := by
  unfold aiDma Fails
  by_cases hmaster : r.intAmcc &&& masterAbortInt ≠ 0
  · exact .inl ⟨.inl hmaster, x, ⟨rfl, id⟩, if_pos hmaster⟩
  rw [if_neg hmaster]
  by_cases htarget : r.intAmcc &&& targetAbortInt ≠ 0
  · exact .inl ⟨.inr (.inl htarget), x, ⟨rfl, id⟩, if_pos htarget⟩
  rw [if_neg htarget]
  by_cases hhard : r.intAdstat &&& x.maskerr ≠ 0 ∧ errorStatus r &&& x.config.maskharderr ≠ 0
  · refine .inl ⟨.inr (.inr hhard), _, ⟨?_, ?_⟩, if_pos hhard⟩
    · rw [if_pos hhard.1]
    · rw [if_pos hhard.1]
      exact id
  · rw [if_neg hhard]
    refine .inr ⟨?_, ?_⟩
    · rintro (hm | ht | hh)
      · exact hmaster hm
      · exact htarget ht
      · exact hhard hh
    · by_cases hmask : r.intAdstat &&& x.maskerr ≠ 0
      · rw [if_pos hmask]
        have hmasked : Counted { x with maskerr := decodedMask x (errorStatus r) } :=
          ⟨h.dmapos, h.curChan, h.actScan⟩
        exact ⟨_, _, takes_transfer (counted_switch hmasked) _ _, rfl⟩
      · rw [if_neg hmask]
        exact ⟨x.maskerr, _, takes_transfer (counted_switch h) _ _, rfl⟩

/-- What an interrupt does. -/
theorem interrupt_cases (h : Counted x) (hserved : Served x r) :
    (Fails x (seen r) ∧ ∃ y, Keeps x y ∧ interruptPci9118 x r = fail y) ∨
    (¬ Fails x (seen r) ∧ ∃ y m, Keeps x y ∧ Takes (switchTransfer y) m (received x r) ∧
      (y.neverending = false ↔ x.neverending = false ∨ Stops x (seen r)) ∧
      interruptPci9118 x r = afterTransfer m) := by
  have htrigger := keeps_trigger x (seen r)
  have hstops := trigger_stops x (seen r)
  have hfails := trigger_fails x (seen r) (seen r)
  unfold interruptPci9118
  rw [if_neg hserved.2, if_pos hserved.1, ← hfails, ← hstops]
  generalize externalTrigger x (seen r) = y at htrigger hstops
  have hcounted : Counted y := by
    rw [htrigger.same]
    exact ⟨h.dmapos, h.curChan, h.actScan⟩
  rcases aiDma_cases hcounted (seen r) with ⟨hfail, z, hz, heq⟩ | ⟨hfail, mask, m, htakes, heq⟩
  · exact .inl ⟨hfail, z, ⟨by rw [hz.same, htrigger.same], hz.finite ∘ htrigger.finite⟩, heq⟩
  · have hreceived : received y (seen r) = received x r := by
      rw [htrigger.same]
      rfl
    rw [hreceived] at htakes
    exact .inr ⟨hfail, _, m, htrigger.mask mask, htakes, Iff.rfl, heq⟩

theorem event_eq (x : Acq) : comediEvent x = { x with
    running := x.running && (x.sink.events &&& endBits = 0)
    reported := (comediEvent x).reported
    sink := { x.sink with events := (comediEvent x).sink.events } } := by
  unfold comediEvent
  split
  next h => rw [h, Bool.true_and]
  next h =>
    have hoff : x.running = false := Bool.eq_false_iff.mpr h
    rw [hoff, Bool.false_and, ← hoff]

theorem event_running (h : x.running = true) : (comediEvent x).sink.events = 0 ∧
    (comediEvent x).reported = x.reported ||| x.sink.events := by
  unfold comediEvent
  rw [if_pos h]
  exact ⟨rfl, rfl⟩

/-- An event that ends the acquisition after it was cancelled. -/
theorem inv_over (hoffered : x.offered = wanted x.config 0 x.raw) (haiDo : x.aiDo = false)
    (henA2p : x.enA2p = false) (hevents : x.sink.events &&& endBits ≠ 0) :
    Inv (comediEvent x) := by
  have hrunning : (comediEvent x).running = false := by
    rw [event_eq, Bool.and_eq_false_iff]
    exact .inr (decide_eq_false hevents)
  have hover : (comediEvent x).aiDo = false := by
    rw [event_eq]
    exact haiDo
  have hidle : (comediEvent x).aiDo = true → False := fun h => by
    rw [hover] at h
    exact absurd h Bool.false_ne_true
  refine ⟨?_, fun h => (hidle h).elim, fun h => (hidle h).elim, fun h => ?_,
    fun _ => ⟨?_, hrunning⟩, fun h => (hidle h).elim, fun h => (hidle h).elim⟩
  · rw [event_eq]
    exact hoffered
  · rw [hrunning] at h
    exact absurd h Bool.false_ne_true
  · rw [event_eq]
    exact henA2p

theorem raised_ends (e : U32) {bits : U32} (h : bits &&& endBits ≠ 0) :
    (e ||| bits) &&& endBits ≠ 0 := by
  intro hzero
  rw [BitVec.and_or_distrib_right] at hzero
  exact h (BitVec.or_eq_zero_iff.mp hzero).2

theorem fail_stopped (h : Inv x) (hkeeps : Keeps x y) : Inv (fail y) ∧ (fail y).raw = x.raw ∧
    (fail y).aiDo = false ∧ (x.running = true →
      (fail y).reported = x.reported ||| (comediCbError ||| comediCbEoa)) := by
  unfold fail
  rw [hkeeps.same]
  refine ⟨inv_over h.offered rfl rfl (raised_ends _ (by decide)), ?_, ?_, fun hrunning => ?_⟩
  · rw [event_eq]
    rfl
  · rw [event_eq]
    rfl
  · refine (congrArg Acq.reported (if_pos hrunning)).trans ?_
    change x.reported ||| (x.sink.events ||| (comediCbError ||| comediCbEoa)) = _
    rw [(h.delivered hrunning).2.1]
    exact congrArg (x.reported ||| ·) BitVec.zero_or

/-- The samples of a transfer have been taken, and the board has the next transfer if there are two
buffers. -/
structure Taken (x m : Acq) (chunk : List U16) : Prop where
  config : m.config = x.config
  aiDo : m.aiDo = x.aiDo
  actbuf : m.actbuf = x.actbuf
  enA2p : m.enA2p = x.enA2p
  running : m.running = x.running
  reported : m.reported = x.reported
  finite : x.neverending = false → m.neverending = false
  transfer : m.config.doublebuf = true →
    m.transfer = (1 - m.actbuf, m.config.useSize (1 - m.actbuf))
  raw : m.raw = x.raw ++ chunk
  offered : m.offered = x.offered ++ wanted x.config x.actDmapos.toNat chunk
  sink : m.sink = putArray x.sink (wanted x.config x.actDmapos.toNat chunk)
  counted : Counted m

theorem switch_eq (x : Acq) :
    switchTransfer x = { x with transfer := (switchTransfer x).transfer } := by
  unfold switchTransfer
  split
  · rfl
  · rfl

theorem switched (h : x.config.doublebuf = true) :
    (switchTransfer x).transfer = (1 - x.actbuf, x.config.useSize (1 - x.actbuf)) := by
  unfold switchTransfer
  rw [if_pos h]

theorem taken (hkeeps : Keeps x y) (htakes : Takes (switchTransfer y) m chunk) :
    Taken x m chunk := by
  obtain ⟨hsame, hraw, hoffered, hsink, hcounted⟩ := htakes
  have hswitched := @switched y
  have hfinite := hkeeps.finite
  rw [switch_eq] at hsame hraw hoffered hsink
  generalize (switchTransfer y).transfer = transfer at *
  have hy := hkeeps.same
  have hconfig : m.config = x.config := by rw [hsame, hy]
  have hactbuf : m.actbuf = x.actbuf := by rw [hsame, hy]
  refine ⟨hconfig, by rw [hsame, hy], hactbuf, by rw [hsame, hy], by rw [hsame, hy],
    by rw [hsame, hy], fun h => ?_, fun h => ?_, ?_, ?_, ?_, hcounted⟩
  · rw [hsame]
    exact hfinite h
  · have hyconfig : y.config = m.config := by rw [hsame]
    have hyactbuf : y.actbuf = m.actbuf := by rw [hsame]
    rw [hyconfig, hyactbuf] at hswitched
    rw [← hswitched h, hsame]
  · rw [hraw, hy]
  · rw [hoffered, hy]
  · rw [hsink, hy]

/-- The board is given a transfer, and then it is the next one. -/
theorem restart_eq (x : Acq) : restartTransfer x = { x with
    actbuf := (restartTransfer x).actbuf, transfer := (restartTransfer x).transfer } := by
  unfold restartTransfer
  split
  · rfl
  · rfl

theorem restart_armed (hdouble : x.config.doublebuf = true →
      x.transfer = (1 - x.actbuf, x.config.useSize (1 - x.actbuf)))
    (hsingle : x.config.doublebuf = false → x.actbuf = 0) :
    (restartTransfer x).transfer =
        ((restartTransfer x).actbuf, x.config.useSize (restartTransfer x).actbuf) ∧
      (x.config.doublebuf = false → (restartTransfer x).actbuf = 0) := by
  unfold restartTransfer
  split
  next h => exact ⟨hdouble h, fun hsingle => absurd (h.symm.trans hsingle) (by decide)⟩
  next h =>
    have hbuf := hsingle (Bool.eq_false_iff.mpr h)
    refine ⟨?_, fun _ => hbuf⟩
    dsimp only
    rw [hbuf]

theorem Taken.stream (h : Taken x m chunk) (hcounted : Counted x)
    (hoffered : x.offered = wanted x.config 0 x.raw) : m.offered = wanted m.config 0 m.raw := by
  rw [h.offered, h.raw, h.config, hcounted.dmapos]
  unfold wanted at hoffered ⊢
  rw [unpad_append (rawLength_pos _), ← hoffered, Nat.zero_add]

/-- Less than the scans that are to be made, so that the count has not gone round. -/
theorem Taken.below (h : Taken x m chunk) (hsize : chunk.length < 2 ^ 31)
    (hbelow : x.offered.length / x.config.nScanlen.toNat < 2 ^ 31) :
    m.actScan.toNat = m.offered.length / m.config.nScanlen.toNat := by
  have hscan := x.config.scanlen_pos
  have hlength : (wanted x.config x.actDmapos.toNat chunk).length ≤ chunk.length :=
    unpad_sublist.length_le
  rw [Nat.div_lt_iff_lt_mul hscan] at hbelow
  rw [h.counted.actScan, h.config, h.offered, List.length_append]
  refine Nat.mod_eq_of_lt ?_
  rw [Nat.div_lt_iff_lt_mul hscan]
  omega

/-- The events of an acquisition that goes on. -/
theorem delivered_event (hrunning : (comediEvent x).running = true)
    (hout : x.running = true → x.sink.events &&& endBits = 0 → x.sink.out = x.offered)
    (hreported : x.running = true → x.reported &&& endBits = 0) :
    (comediEvent x).sink.out = (comediEvent x).offered ∧ (comediEvent x).sink.events = 0 ∧
      (comediEvent x).reported &&& endBits = 0 := by
  have hboth : (x.running && (x.sink.events &&& endBits = 0)) = true := by
    rw [event_eq] at hrunning
    exact hrunning
  rw [Bool.and_eq_true_iff, decide_eq_true_eq] at hboth
  obtain ⟨hevents, hafter⟩ := event_running hboth.1
  refine ⟨?_, hevents, ?_⟩
  · rw [event_eq]
    exact hout hboth.1 hboth.2
  · rw [hafter, BitVec.and_or_distrib_right, hreported hboth.1, hboth.2]
    exact BitVec.or_zero

theorem Taken.out (h : Taken x m chunk) (hx : Inv x) (hrunning : m.running = true)
    (hevents : m.sink.events &&& endBits = 0) : m.sink.out = m.offered := by
  obtain ⟨hout, hzero, -⟩ := hx.delivered (h.running.symm.trans hrunning)
  rw [h.sink] at hevents ⊢
  rw [(putArray_events hzero _).2 hevents, hout, h.offered]

/-- The acquisition goes on. -/
theorem inv_goes (h : Inv x) (haiDo : x.aiDo = true) (htaken : Taken x m chunk)
    (hscans : ¬ (m.neverending = false ∧ m.config.scans ≤ m.actScan))
    (hsize : chunk.length < 2 ^ 31) : Inv (comediEvent (restartTransfer m)) := by
  have hmaiDo := htaken.aiDo.trans haiDo
  have harmed := h.armed haiDo
  have hstream := htaken.stream (h.counted haiDo) h.offered
  obtain ⟨htransfer, hsingle⟩ := restart_armed htaken.transfer fun hdouble => by
    rw [htaken.actbuf]
    exact harmed.2.2 (by rw [← htaken.config, hdouble])
  have hsame := restart_eq m
  generalize restartTransfer m = z at hsame htransfer hsingle
  have hdelivered : (comediEvent z).running = true → (comediEvent z).sink.out =
      (comediEvent z).offered ∧ (comediEvent z).sink.events = 0 ∧
        (comediEvent z).reported &&& endBits = 0 := by
    refine fun hrunning => delivered_event hrunning ?_ ?_
    · rw [hsame]
      exact htaken.out h
    · rw [hsame]
      intro hmrunning
      rw [htaken.reported]
      exact (h.delivered (htaken.running.symm.trans hmrunning)).2.2
  have hconfig : (comediEvent z).config = x.config := by
    rw [event_eq, hsame]
    exact htaken.config
  have hneverending : (comediEvent z).neverending = m.neverending := by
    rw [event_eq, hsame]
  have hfinite : (comediEvent z).config.neverending = false → m.neverending = false := by
    rw [hconfig]
    exact fun hf => htaken.finite (h.finite haiDo hf)
  have hlength : (comediEvent z).offered = m.offered := by
    rw [event_eq, hsame]
  refine ⟨?_, fun _ => ?_, fun _ => ?_, hdelivered, fun hover => ?_, fun _ hf => ?_,
    fun _ hf hpos hscansLe => ?_⟩
  · rw [event_eq, hsame]
    exact hstream
  · rw [event_eq, hsame]
    exact ⟨htaken.counted.dmapos, htaken.counted.curChan, htaken.counted.actScan⟩
  · rw [event_eq, hsame]
    exact ⟨htransfer, htaken.enA2p.trans harmed.2.1, hsingle⟩
  · rw [event_eq, hsame] at hover
    exact absurd (hmaiDo.symm.trans hover) (by decide)
  · rw [hneverending]
    exact hfinite hf
  · have hscans := fun hle => hscans ⟨hfinite hf, hle⟩
    rw [hconfig] at hf hpos hscansLe ⊢
    rw [hlength]
    have hbelow := h.below haiDo hf hpos hscansLe
    have hcount := htaken.below hsize (by omega)
    rw [htaken.config] at hcount hscans
    rw [← hcount]
    exact Nat.lt_of_not_le hscans

theorem received_length (x : Acq) (r : Reading) : (received x r).length < 2 ^ 31 := by
  unfold received transferred
  rw [List.length_map, List.length_range, BitVec.toNat_ushiftRight, Nat.shiftRight_eq_div_pow]
  have := (x.config.useSize x.actbuf).isLt
  omega

/-- All scans have been made: the acquisition is cancelled, and ends. -/
theorem inv_ends (h : Inv x) (haiDo : x.aiDo = true) (htaken : Taken x m chunk)
    (hscans : m.neverending = false ∧ m.config.scans ≤ m.actScan) :
    Inv (afterTransfer m) ∧ (afterTransfer m).aiDo = false := by
  unfold afterTransfer checkScans
  rw [if_pos hscans, restart_eq]
  refine ⟨inv_over (htaken.stream (h.counted haiDo) h.offered) rfl rfl
    (raised_ends _ (by decide)), ?_⟩
  rw [event_eq]
  rfl

theorem inv_transfer (h : Inv x) (haiDo : x.aiDo = true) (htaken : Taken x m chunk)
    (hsize : chunk.length < 2 ^ 31) : Inv (afterTransfer m) := by
  by_cases hscans : m.neverending = false ∧ m.config.scans ≤ m.actScan
  · exact (inv_ends h haiDo htaken hscans).1
  · unfold afterTransfer checkScans
    rw [if_neg hscans]
    exact inv_goes h haiDo htaken hscans hsize

theorem not_served (hserved : ¬ Served x r) : interruptPci9118 x r = x := by
  unfold interruptPci9118
  split
  · rfl
  next hboard =>
    rw [if_neg fun haiDo => hserved ⟨haiDo, hboard⟩]

theorem inv_interrupt (h : Inv x) (r : Reading) : Inv (interruptPci9118 x r) := by
  by_cases hserved : Served x r
  · rcases interrupt_cases (h.counted hserved.1) hserved with
      ⟨-, y, hkeeps, heq⟩ | ⟨-, y, m, hkeeps, htakes, -, heq⟩
    · rw [heq]
      exact (fail_stopped h hkeeps).1
    · rw [heq]
      exact inv_transfer h hserved.1 (taken hkeeps htakes) (received_length x r)
  · rw [not_served hserved]
    exact h

/-- The acquisitions that can be met, after any interrupts. -/
inductive Reached : Acq → Prop
  | start (c : Config) : Reached c.start
  | interrupt {x : Acq} (r : Reading) (h : Reached x) : Reached (interruptPci9118 x r)

theorem Reached.inv (h : Reached x) : Inv x := by
  induction h with
  | start c => exact inv_start c
  | interrupt r _ ih => exact inv_interrupt ih r

/-- What an interrupt of the board does while the acquisition goes on. -/
structure Serves (x y : Acq) (r : Reading) : Prop where
  fails : Fails x (seen r) → y.raw = x.raw ∧ y.aiDo = false ∧ (x.running = true →
    y.reported = x.reported ||| (comediCbError ||| comediCbEoa))
  raw : ¬ Fails x (seen r) → y.raw = x.raw ++ received x r
  ends : ¬ Fails x (seen r) → (y.aiDo = false ↔ (x.neverending = false ∨ Stops x (seen r)) ∧
    x.config.scans.toNat ≤ y.offered.length / x.config.nScanlen.toNat % 2 ^ 32)
  reported : ¬ Fails x (seen r) → x.running = true →
    (y.reported &&& comediCbEoa ≠ 0 ↔ y.aiDo = false)

theorem checkScans_raw (x : Acq) : (afterTransfer x).raw = x.raw ∧
    (afterTransfer x).offered = x.offered ∧
    ((afterTransfer x).aiDo = false ↔
      x.aiDo = false ∨ x.neverending = false ∧ x.config.scans ≤ x.actScan) := by
  unfold afterTransfer
  rw [event_eq, restart_eq]
  unfold checkScans
  split
  next h => exact ⟨rfl, rfl, fun _ => .inr h, fun _ => rfl⟩
  next h => exact ⟨rfl, rfl, fun haiDo => .inl haiDo, fun hor => hor.resolve_right h⟩

theorem afterTransfer_reported (hrunning : x.running = true) :
    (afterTransfer x).reported = x.reported ||| (x.sink.events |||
      if x.neverending = false ∧ x.config.scans ≤ x.actScan then comediCbEoa else 0) := by
  have hsame := restart_eq (checkScans x)
  unfold afterTransfer
  generalize restartTransfer (checkScans x) = z at hsame
  unfold checkScans at hsame
  split at hsame
  next hscans =>
    rw [if_pos hscans, (event_running (by rw [hsame]; exact hrunning)).2, hsame]
    rfl
  next hscans =>
    rw [if_neg hscans, (event_running (by rw [hsame]; exact hrunning)).2, hsame]
    exact congrArg (x.reported ||| ·) BitVec.or_zero.symm

theorem eoa_reported {e f : U32} {p : Prop} [Decidable p] (he : e &&& endBits = 0)
    (hf : f &&& comediCbEoa = 0) :
    (e ||| (f ||| if p then comediCbEoa else 0)) &&& comediCbEoa ≠ 0 ↔ p := by
  have heoa : e &&& comediCbEoa = 0 := by
    rw [show comediCbEoa = endBits &&& comediCbEoa by decide, ← BitVec.and_assoc, he]
    exact BitVec.zero_and
  rw [BitVec.and_or_distrib_right, BitVec.and_or_distrib_right, heoa, hf]
  split
  next h => exact ⟨fun _ => h, fun _ => by decide⟩
  next h => exact ⟨fun hne => absurd (by decide) hne, fun hp => absurd hp h⟩

theorem serves (h : Inv x) (hserved : Served x r) : Serves x (interruptPci9118 x r) r := by
  rcases interrupt_cases (h.counted hserved.1) hserved with
    ⟨hfails, y, hkeeps, heq⟩ | ⟨hfails, y, m, hkeeps, htakes, hstops, heq⟩
  · rw [heq]
    exact ⟨fun _ => (fail_stopped h hkeeps).2, fun hn => absurd hfails hn,
      fun hn => absurd hfails hn, fun hn => absurd hfails hn⟩
  · have htaken := taken hkeeps htakes
    have hneverending : m.neverending = y.neverending := by
      rw [htakes.same, switch_eq]
    obtain ⟨hraw, hoffered, hends⟩ := checkScans_raw m
    rw [heq]
    refine ⟨fun hf => absurd hf hfails, fun _ => hraw.trans htaken.raw, fun _ => ?_, fun _ => ?_⟩
    · rw [hends, htaken.aiDo, hserved.1, hneverending, hstops, hoffered, ← htaken.config,
        ← htaken.counted.actScan]
      simp only [Bool.true_eq_false, false_or]
      exact Iff.rfl
    · intro hrunning
      obtain ⟨-, hzero, hreported⟩ := h.delivered hrunning
      rw [afterTransfer_reported (htaken.running.trans hrunning), htaken.reported, htaken.sink,
        eoa_reported hreported (putArray_events hzero _).1, hends, htaken.aiDo, hserved.1]
      simp only [Bool.true_eq_false, false_or]

/-- What is true of an acquisition, however the interrupts have come. -/
structure Acquires (x : Acq) : Prop where
  length : x.offered.length =
    kept x.config.addFront.toNat x.config.nChan.toNat (rawLength x.config) x.raw.length
  samples : ∀ k < x.offered.length, x.offered[k]? =
    x.raw[place x.config.addFront.toNat x.config.nChan.toNat (rawLength x.config) k]?
  delivered : x.running = true → x.sink.out = x.offered ∧ x.reported &&& endBits = 0
  armed : x.aiDo = true → x.transfer = (x.actbuf, x.config.useSize x.actbuf) ∧ x.enA2p = true
  below : x.aiDo = true → x.config.neverending = false → 0 < x.config.scans.toNat →
    x.config.scans.toNat ≤ 2 ^ 31 →
      x.offered.length / x.config.nScanlen.toNat < x.config.scans.toNat
  stopped : x.aiDo = false → x.enA2p = false ∧ x.running = false
  idle : ∀ r, ¬ Served x r → interruptPci9118 x r = x
  serves : ∀ r, Served x r → Serves x (interruptPci9118 x r) r

/-- The samples of the channels of the list reach the data buffer, each once and in order, and the
acquisition ends with the scan that was asked for. -/
theorem acquires (h : Reached x) : Acquires x := by
  have hinv := h.inv
  have hperiod := rawLength_pos x.config
  have hfits : x.config.addFront.toNat + x.config.nChan.toNat ≤ rawLength x.config :=
    Nat.le_add_right ..
  refine ⟨?_, fun k hk => ?_, fun hrunning => ?_, fun haiDo => ?_, hinv.below, hinv.stopped,
    fun _ => not_served, fun _ => serves hinv⟩
  · rw [hinv.offered]
    exact unpad_length hperiod hfits
  · rw [hinv.offered] at hk ⊢
    exact (unpad_getElem hperiod hfits hk).2
  · obtain ⟨hout, -, hreported⟩ := hinv.delivered hrunning
    exact ⟨hout, hreported⟩
  · exact ⟨(hinv.armed haiDo).1, (hinv.armed haiDo).2.1⟩

/-- Two channels, and a sample in front of each scan and one after it, in two buffers. -/
def twoChannels : Config :=
  { doublebuf := true, useSize := fun _ => 12, addFront := 1, nChan := 2, addBack := 1
    nScanlen := 2, scans := 3, neverending := false, free := 100 }

def transferDone (buffer : Nat → U16) : Reading :=
  { intDaq := 0, intAmcc := anyS593xInt, buffer := buffer }

theorem acquires_two_channels :
    let x := interruptPci9118 (interruptPci9118 twoChannels.start
      (transferDone fun k => BitVec.ofNat 16 k)) (transferDone fun k => BitVec.ofNat 16 (6 + k))
    x.sink.out = [1, 2, 5, 6, 9, 10] ∧ x.reported &&& comediCbEoa ≠ 0 ∧ Acquires x := by
  refine ⟨by decide, by decide, acquires ?_⟩
  exact .interrupt _ (.interrupt _ (.start _))

end Runs

end Comedi.Pci9118Samples
