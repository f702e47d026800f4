import Comedi.FakeWaveform
import Comedi.ComediTestAmends

namespace Comedi.FakeWaveformRuns

open RtTimer (trigNow trigTimer trigCount)
open ChanlistCheck ComediTest ComediTestAmends SampleSink FakeWaveform

/-- The waveform of a channel at a time that is not reduced. -/
def waveformAt (drv : WaveformPrivate) (channel rangeIndex : U32) (time : Nat) : U16 :=
  fakeWaveform drv channel rangeIndex (BitVec.ofNat 64 (time % drv.usecPeriod.toNat))

/-- Scan `k` of an acquisition as it was started. -/
def dueScan (st₀ : Waveform) (k : Nat) : List U16 :=
  (List.range st₀.cmd.chanlistLen.toNat).map fun j =>
    waveformAt st₀.drv (crChan (chanspec st₀.cmd j)) (crRange (chanspec st₀.cmd j))
      (st₀.drv.usecCurrent.toNat + k * st₀.drv.scanPeriod.toNat + j * st₀.drv.convertPeriod.toNat)

/-- The scans that begin and end within the time. -/
def elapsedScans (st₀ : Waveform) (time : Nat) : Nat := time / st₀.drv.scanPeriod.toNat

/-- The last scan of the acquisition is over. -/
def Done (st₀ : Waveform) (time : Nat) : Prop :=
  st₀.cmd.stopSrc = trigCount ∧ st₀.cmd.stopArg.toNat ≤ elapsedScans st₀ time

instance (st₀ : Waveform) (time : Nat) : Decidable (Done st₀ time) :=
  inferInstanceAs (Decidable (_ ∧ _))

/-- The number of scans, limited to `stop_arg` for `TRIG_COUNT`. -/
def dueScans (st₀ : Waveform) (time : Nat) : Nat :=
  if st₀.cmd.stopSrc = trigCount then min (elapsedScans st₀ time) st₀.cmd.stopArg.toNat
  else elapsedScans st₀ time

def dueSamples (st₀ : Waveform) (time : Nat) : List U16 :=
  (List.range' 0 (dueScans st₀ time)).flatMap (dueScan st₀)

def micros (tv : Timeval) : Int := 1000000 * tv.sec + tv.usec

/-- The interrupts split the time from `last` on. -/
def Splits : Timeval → Nat → List Tick → Prop
  | _, time, [] => time = 0
  | last, time, tick :: ticks => ∃ elapsed left, time = elapsed + left ∧
      micros tick.now = micros last + elapsed ∧ Splits tick.now left ticks

/-- The time since the last scan, when the interrupt comes. -/
def sinceScan (st : Waveform) (tick : Tick) : Nat :=
  st.drv.usecRemainder.toNat + (micros tick.now - micros st.drv.last).toNat

/-- How many scans the interrupt finds. -/
def found (st : Waveform) (tick : Tick) : Nat := sinceScan st tick / st.drv.scanPeriod.toNat

/-- How many of them the acquisition still wants. -/
def wanted (st : Waveform) (left : Nat) : Nat :=
  if st.cmd.stopSrc = trigCount then min left (st.cmd.stopArg.toNat - st.drv.aiCount.toNat)
  else left

/-- Only channels that always give the same sample. -/
def Flat (cmd : Cmd) : Prop := ∀ j < cmd.chanlistLen.toNat,
  crChan (chanspec cmd j) ≠ sawtoothChan ∧ crChan (chanspec cmd j) ≠ squareChan

/-- The numbers of the interrupt fit into 32 bits, the buffer has room, and the remainder that is
carried to the interrupt does not shift a scan. -/
structure OnTime (st : Waveform) (tick : Tick) : Prop where
  scans : found st tick < 2 ^ 32
  offset : (wanted st (found st tick) - 1) * st.drv.scanPeriod.toNat < 2 ^ 32
  room : wanted st (found st tick) * st.cmd.chanlistLen.toNat ≤ tick.free
  unshifted : found st tick = 0 ∨ st.drv.usecRemainder.toNat % st.drv.usecPeriod.toNat = 0 ∨
    Flat st.cmd

/-- All interrupts of the run are on time. -/
def AllOnTime : Waveform → List Tick → Prop
  | _, [] => True
  | st, tick :: ticks =>
    (st.drv.timerPending → OnTime st tick) ∧ AllOnTime (step st tick) ticks

variable {st st₀ : Waveform} {tick : Tick} {time : Nat}

theorem fakeWaveform_congr {drv drv' : WaveformPrivate} {channel rangeIndex : U32} {t t' : U64}
    (hamplitude : drv.uvoltAmplitude = drv'.uvoltAmplitude)
    (hperiod : drv.usecPeriod = drv'.usecPeriod)
    (htime : t % drv.usecPeriod = t' % drv.usecPeriod) :
    fakeWaveform drv channel rangeIndex t = fakeWaveform drv' channel rangeIndex t' := by
  unfold fakeWaveform fakeSawtooth fakeSquarewave binaryAmplitude
  rw [← hamplitude, ← hperiod, htime]

/-- A waveform repeats with its period. -/
theorem fakeWaveform_eq_waveformAt {drv drv₀ : WaveformPrivate} {channel rangeIndex : U32}
    (hamplitude : drv.uvoltAmplitude = drv₀.uvoltAmplitude)
    (hperiod : drv.usecPeriod = drv₀.usecPeriod) {t : U64}
    (htime : t.toNat % drv₀.usecPeriod.toNat = time % drv₀.usecPeriod.toNat) :
    fakeWaveform drv channel rangeIndex t = waveformAt drv₀ channel rangeIndex time := by
  refine fakeWaveform_congr hamplitude hperiod ?_
  rw [hperiod]
  apply BitVec.eq_of_toNat_eq
  rw [BitVec.toNat_umod, BitVec.toNat_umod, BitVec.toNat_ofNat, ← htime]
  have hle : t.toNat % drv₀.usecPeriod.toNat < 2 ^ 64 :=
    Nat.lt_of_le_of_lt (Nat.mod_le ..) t.isLt
  rw [Nat.mod_eq_of_lt hle, Nat.mod_mod]

theorem flat_waveform {drv drv' : WaveformPrivate} {channel rangeIndex : U32} {t t' : U64}
    (hsaw : channel ≠ sawtoothChan) (hsquare : channel ≠ squareChan) :
    fakeWaveform drv channel rangeIndex t = fakeWaveform drv' channel rangeIndex t' := by
  unfold fakeWaveform
  rw [if_neg hsaw, if_neg hsquare, if_neg hsaw, if_neg hsquare]

theorem eoa_of_endBits {e e' : U32} (h : e &&& endBits = e' &&& endBits) :
    e &&& comediCbEoa = e' &&& comediCbEoa := by
  have hbits : endBits &&& comediCbEoa = comediCbEoa := by decide
  rw [← hbits, ← BitVec.and_assoc, h, BitVec.and_assoc]

theorem eoa_raised (e : U32) : (e ||| comediCbEoa) &&& comediCbEoa ≠ 0 := by
  rw [BitVec.and_or_distrib_right, BitVec.and_self]
  intro h
  have hle := congrArg (·.getLsbD 1) h
  simp [comediCbEoa] at hle

theorem scanSamples_length (st : Waveform) (i : U32) :
    (scanSamples st i).length = st.cmd.chanlistLen.toNat := by
  unfold scanSamples
  rw [List.length_map, List.length_range]

/-- What the loop over `left` scans from the `i`-th on does to the device. -/
structure Writes (st : Waveform) (left i : Nat) (st' : Waveform) : Prop where
  drv : ∃ aiCount, st'.drv = { st.drv with aiCount := aiCount }
  cmd : st'.cmd = st.cmd
  out : st'.sink.out = st.sink.out ++
    (List.range' i (wanted st left)).flatMap fun k => scanSamples st (BitVec.ofNat 32 k)
  eoa : st'.sink.events &&& comediCbEoa ≠ 0 ↔ st.cmd.stopSrc = trigCount ∧
    st.cmd.stopArg.toNat ≤ st.drv.aiCount.toNat + left
  count : st.cmd.stopSrc = trigCount →
    st'.drv.aiCount.toNat = st.drv.aiCount.toNat + wanted st left

theorem wanted_zero (st : Waveform) : wanted st 0 = 0 := by
  unfold wanted
  split
  · exact Nat.zero_min _
  · rfl

theorem stopArg_le_iff {stopArg : U32} {aiCount : U64} (h : aiCount.toNat < stopArg.toNat) :
    (aiCount + 1).toNat = aiCount.toNat + 1 ∧
      (stopArg.setWidth 64 ≤ aiCount + 1 ↔ stopArg.toNat ≤ aiCount.toNat + 1) := by
  have hstop := stopArg.isLt
  have hone : (1 : U64).toNat = 1 := rfl
  have hadd : (aiCount + 1).toNat = aiCount.toNat + 1 := by
    rw [BitVec.toNat_add, hone]
    omega
  refine ⟨hadd, ?_⟩
  rw [BitVec.le_def, hadd, BitVec.toNat_setWidth, Nat.mod_eq_of_lt (by omega)]

/-- The device after a scan that is not the last one. -/
def scanned (st : Waveform) (i : Nat) : Waveform :=
  { st with
    drv := { st.drv with aiCount := st.drv.aiCount + 1 }
    sink := putAll st.sink (scanSamples st (BitVec.ofNat 32 i)) }

/-- The acquisition still wants a scan, and without overflow it counts one more. -/
def CountsOn (st : Waveform) : Prop := st.cmd.stopSrc = trigCount →
  (st.drv.aiCount + 1).toNat = st.drv.aiCount.toNat + 1 ∧
    st.drv.aiCount.toNat + 1 < st.cmd.stopArg.toNat

theorem wanted_scanned (h : CountsOn st) (left i : Nat) :
    wanted st (left + 1) = wanted (scanned st i) left + 1 := by
  unfold wanted
  change (if st.cmd.stopSrc = trigCount then _ else _) =
    (if st.cmd.stopSrc = trigCount then
      min left (st.cmd.stopArg.toNat - (st.drv.aiCount + 1).toNat) else left) + 1
  by_cases hsrc : st.cmd.stopSrc = trigCount
  · rw [if_pos hsrc, if_pos hsrc, (h hsrc).1]
    have := (h hsrc).2
    omega
  · rw [if_neg hsrc, if_neg hsrc]

theorem Writes.cons {left i : Nat} {st' : Waveform} (hcount : CountsOn st)
    (hadd : Adds (scanSamples st (BitVec.ofNat 32 i)) st.sink (scanned st i).sink)
    (h : Writes (scanned st i) left (i + 1) st') : Writes st (left + 1) i st' := by
  obtain ⟨aiCount, hdrv⟩ := h.drv
  refine ⟨⟨aiCount, hdrv⟩, h.cmd, ?_, ?_, fun hsrc => ?_⟩
  · rw [wanted_scanned hcount left i, List.range'_succ, List.flatMap_cons, ← List.append_assoc,
      ← hadd.out]
    exact h.out
  · refine h.eoa.trans (and_congr_right fun hsrc => ?_)
    change st.cmd.stopArg.toNat ≤ (st.drv.aiCount + 1).toNat + left ↔ _
    rw [(hcount hsrc).1]
    omega
  · have hsum := h.count hsrc
    change _ = (st.drv.aiCount + 1).toNat + wanted (scanned st i) left at hsum
    refine hsum.trans ?_
    rw [(hcount hsrc).1, wanted_scanned hcount left i]
    omega

theorem writeScans_spec {left i : Nat}
    (hcount : st.cmd.stopSrc = trigCount → st.drv.aiCount.toNat < st.cmd.stopArg.toNat)
    (hroom : wanted st left * st.cmd.chanlistLen.toNat ≤ st.sink.free)
    (heoa : st.sink.events &&& comediCbEoa = 0) :
    Writes st left i (writeScans st left (BitVec.ofNat 32 i)) := by
  induction left generalizing st i with
  | zero =>
    refine ⟨⟨st.drv.aiCount, rfl⟩, rfl, ?_, ?_, fun _ => ?_⟩
    · rw [wanted_zero]
      exact (List.append_nil _).symm
    · refine iff_of_false (fun hne => hne heoa) fun ⟨hsrc, hle⟩ => ?_
      have := hcount hsrc
      omega
    · rw [wanted_zero]
      rfl
  | succ left ih =>
    have hpos : 1 ≤ wanted st (left + 1) := by
      unfold wanted
      split
      next hsrc =>
        have := hcount hsrc
        omega
      · omega
    have hlen := scanSamples_length st (BitVec.ofNat 32 i)
    have hfree : st.cmd.chanlistLen.toNat ≤ st.sink.free := by
      have := Nat.mul_le_mul_right st.cmd.chanlistLen.toNat hpos
      omega
    have hadd := putAll_adds (s := st.sink) (l := scanSamples st (BitVec.ofNat 32 i)) (by omega)
    rw [writeScans]
    dsimp only
    split
    next hlast =>
      obtain ⟨hsum, hle⟩ := stopArg_le_iff (hcount hlast.1)
      have hstop := hle.mp hlast.2
      have hone : wanted st (left + 1) = 1 := by
        have := hcount hlast.1
        unfold wanted
        rw [if_pos hlast.1]
        omega
      refine ⟨⟨_, rfl⟩, rfl, ?_, ?_, fun _ => ?_⟩
      · rw [hone]
        change (putAll st.sink _).out = _
        rw [hadd.out]
        simp
      · exact iff_of_true (eoa_raised _) ⟨hlast.1, by omega⟩
      · rw [hone]
        exact hsum
    next hlast =>
      have hon : CountsOn st := by
        intro hsrc
        obtain ⟨hsum, hle⟩ := stopArg_le_iff (hcount hsrc)
        exact ⟨hsum, Nat.not_le.mp fun h => hlast ⟨hsrc, hle.mpr h⟩⟩
      have hroom' : wanted (scanned st i) left * st.cmd.chanlistLen.toNat ≤
          (scanned st i).sink.free := by
        have hfree' : (scanned st i).sink.free + (scanSamples st (BitVec.ofNat 32 i)).length =
          st.sink.free := hadd.free
        rw [wanted_scanned hon left i, Nat.succ_mul] at hroom
        omega
      have hnext := @ih (scanned st i) (i + 1)
        (fun hsrc => (hon hsrc).1 ▸ (hon hsrc).2) hroom' ((eoa_of_endBits hadd.events).trans heoa)
      rw [BitVec.ofNat_add] at hnext
      exact hnext.cons hon hadd

/-- The device when an acquisition has just been started. -/
structure Started (st₀ : Waveform) : Prop where
  period_pos : 0 < st₀.drv.usecPeriod.toNat
  period_lt : st₀.drv.usecPeriod.toNat < 2 ^ 31
  scanPeriod_pos : 0 < st₀.drv.scanPeriod.toNat
  scanPeriod_lt : st₀.drv.scanPeriod.toNat < 2 ^ 31
  stopArg_pos : st₀.cmd.stopSrc = trigCount → 0 < st₀.cmd.stopArg.toNat
  converts : (st₀.cmd.chanlistLen.toNat - 1) * st₀.drv.convertPeriod.toNat < 2 ^ 32
  current_lt : st₀.drv.usecCurrent.toNat < st₀.drv.usecPeriod.toNat
  remainder : st₀.drv.usecRemainder = 0
  aiCount : st₀.drv.aiCount = 0
  running : st₀.drv.timerRunning = true
  pending : st₀.drv.timerPending = true
  out : st₀.sink.out = []
  events : st₀.sink.events = 0

/-- The device at a time after the start, when the last interrupt came. -/
structure Inv (st₀ : Waveform) (time : Nat) (now : Timeval) (st : Waveform) : Prop where
  cmd : st.cmd = st₀.cmd
  amplitude : st.drv.uvoltAmplitude = st₀.drv.uvoltAmplitude
  period : st.drv.usecPeriod = st₀.drv.usecPeriod
  scanPeriod : st.drv.scanPeriod = st₀.drv.scanPeriod
  convertPeriod : st.drv.convertPeriod = st₀.drv.convertPeriod
  running : st.drv.timerRunning = true
  out : st.sink.out = dueSamples st₀ time
  eoa : st.sink.events &&& comediCbEoa ≠ 0 ↔ Done st₀ time
  pending : st.drv.timerPending = true ↔ ¬ Done st₀ time
  last : ¬ Done st₀ time → micros st.drv.last = micros now
  remainder : ¬ Done st₀ time → st.drv.usecRemainder.toNat = time % st₀.drv.scanPeriod.toNat
  current : ¬ Done st₀ time → st.drv.usecCurrent.toNat =
    (st₀.drv.usecCurrent.toNat + time) % st₀.drv.usecPeriod.toNat
  aiCount : ¬ Done st₀ time → st₀.cmd.stopSrc = trigCount →
    st.drv.aiCount.toNat = elapsedScans st₀ time

theorem not_done_zero (h : Started st₀) : ¬ Done st₀ 0 := by
  rintro ⟨hsrc, hle⟩
  have := h.stopArg_pos hsrc
  rw [elapsedScans, Nat.zero_div] at hle
  omega

theorem Started.inv (h : Started st₀) : Inv st₀ 0 st₀.drv.last st₀ := by
  have hdone := not_done_zero h
  have hscans : elapsedScans st₀ 0 = 0 := Nat.zero_div _
  have hdue : dueScans st₀ 0 = 0 := by
    unfold dueScans
    rw [hscans, Nat.zero_min, ite_self]
  refine ⟨rfl, rfl, rfl, rfl, rfl, h.running, ?_, ?_, ?_, fun _ => rfl, fun _ => ?_, fun _ => ?_,
    fun _ _ => ?_⟩
  · rw [h.out, dueSamples, hdue]
    rfl
  · refine iff_of_false (fun hne => hne ?_) hdone
    rw [h.events]
    exact BitVec.zero_and
  · exact iff_of_true h.pending hdone
  · rw [h.remainder, Nat.zero_mod]
    rfl
  · rw [Nat.add_zero, Nat.mod_eq_of_lt h.current_lt]
  · rw [h.aiCount, hscans]
    rfl

theorem Done.add (h : Done st₀ time) (elapsed : Nat) : Done st₀ (time + elapsed) :=
  ⟨h.1, h.2.trans (Nat.div_le_div_right (Nat.le_add_right ..))⟩

theorem dueSamples_done (h : Done st₀ time) (elapsed : Nat) :
    dueSamples st₀ (time + elapsed) = dueSamples st₀ time := by
  have hlimit : ∀ {t}, Done st₀ t → dueScans st₀ t = st₀.cmd.stopArg.toNat := by
    intro t h
    unfold dueScans
    rw [if_pos h.1, Nat.min_eq_right h.2]
  unfold dueSamples
  rw [hlimit h, hlimit (h.add elapsed)]

/-- After the last scan the timer is off. -/
theorem Inv.idle {now : Timeval} (h : Inv st₀ time now st) (hdone : Done st₀ time)
    (elapsed : Nat) (now' : Timeval) : Inv st₀ (time + elapsed) now' st where
  cmd := h.cmd
  amplitude := h.amplitude
  period := h.period
  scanPeriod := h.scanPeriod
  convertPeriod := h.convertPeriod
  running := h.running
  out := h.out.trans (dueSamples_done hdone elapsed).symm
  eoa := iff_of_true (h.eoa.mpr hdone) (hdone.add elapsed)
  pending := iff_of_false (fun hpending => h.pending.mp hpending hdone)
    (fun hnot => hnot (hdone.add elapsed))
  last hnot := absurd (hdone.add elapsed) hnot
  remainder hnot := absurd (hdone.add elapsed) hnot
  current hnot := absurd (hdone.add elapsed) hnot
  aiCount hnot := absurd (hdone.add elapsed) hnot

/-- The time that the device has is that of the scan and the remainder. -/
theorem time_mod (start period scanPeriod time i offset : Nat) :
    ((start + time) % period + i * scanPeriod + offset) % period =
      (start + (time / scanPeriod + i) * scanPeriod + offset + time % scanPeriod) % period := by
  have hsplit := Nat.div_add_mod time scanPeriod
  rw [Nat.add_assoc, Nat.mod_add_mod, Nat.add_mul, Nat.mul_comm (time / scanPeriod)]
  congr 1
  omega

theorem sampleTime_toNat {drv : WaveformPrivate} {i j : Nat}
    (hcurrent : drv.usecCurrent.toNat < 2 ^ 31) (hi : i * drv.scanPeriod.toNat < 2 ^ 32)
    (hj : j * drv.convertPeriod.toNat < 2 ^ 32) (hi32 : i < 2 ^ 32) (hj32 : j < 2 ^ 32) :
    (sampleTime drv (BitVec.ofNat 32 i) (BitVec.ofNat 32 j)).toNat =
      drv.usecCurrent.toNat + i * drv.scanPeriod.toNat + j * drv.convertPeriod.toNat := by
  unfold sampleTime
  rw [BitVec.toNat_add, BitVec.toNat_add, BitVec.toNat_setWidth, BitVec.toNat_setWidth,
    BitVec.toNat_mul, BitVec.toNat_mul, BitVec.toNat_ofNat, BitVec.toNat_ofNat,
    Nat.mod_eq_of_lt hi32, Nat.mod_eq_of_lt hj32, Nat.mod_eq_of_lt hi, Nat.mod_eq_of_lt hj]
  omega

theorem Inv.sampleTime_mod {now : Timeval} (h : Inv st₀ time now st) (hs : Started st₀)
    (hdone : ¬ Done st₀ time) {i j : Nat} (hi32 : i < 2 ^ 32)
    (hi : i * st₀.drv.scanPeriod.toNat < 2 ^ 32) (hj : j < st₀.cmd.chanlistLen.toNat) :
    (sampleTime st.drv (BitVec.ofNat 32 i) (BitVec.ofNat 32 j)).toNat %
        st₀.drv.usecPeriod.toNat =
      (st₀.drv.usecCurrent.toNat + (elapsedScans st₀ time + i) * st₀.drv.scanPeriod.toNat +
        j * st₀.drv.convertPeriod.toNat + st.drv.usecRemainder.toNat) %
          st₀.drv.usecPeriod.toNat := by
  have hlen := st₀.cmd.chanlistLen.isLt
  have hperiod := hs.period_lt
  have hcurrent : st.drv.usecCurrent.toNat < st₀.drv.usecPeriod.toNat := by
    rw [h.current hdone]
    exact Nat.mod_lt _ hs.period_pos
  have hconvert : j * st₀.drv.convertPeriod.toNat < 2 ^ 32 :=
    Nat.lt_of_le_of_lt (Nat.mul_le_mul_right _ (by omega)) hs.converts
  rw [sampleTime_toNat (by omega) (by rwa [h.scanPeriod]) (by rwa [h.convertPeriod]) hi32
    (by omega), h.scanPeriod, h.convertPeriod, h.current hdone, h.remainder hdone]
  exact time_mod ..

/-- A sample is taken at the time of its scan, up to whole periods of the waveform, exactly if the
remainder that was carried to the interrupt is whole periods. -/
theorem Inv.sampleTime_due_iff {now : Timeval} (h : Inv st₀ time now st) (hs : Started st₀)
    (hdone : ¬ Done st₀ time) {i j : Nat} (hi32 : i < 2 ^ 32)
    (hi : i * st₀.drv.scanPeriod.toNat < 2 ^ 32) (hj : j < st₀.cmd.chanlistLen.toNat) :
    (sampleTime st.drv (BitVec.ofNat 32 i) (BitVec.ofNat 32 j)).toNat %
          st₀.drv.usecPeriod.toNat =
        (st₀.drv.usecCurrent.toNat + (elapsedScans st₀ time + i) * st₀.drv.scanPeriod.toNat +
          j * st₀.drv.convertPeriod.toNat) % st₀.drv.usecPeriod.toNat ↔
      st.drv.usecRemainder.toNat % st₀.drv.usecPeriod.toNat = 0 := by
  rw [h.sampleTime_mod hs hdone hi32 hi hj]
  exact Nat.add_modEq_left_iff.trans Nat.modEq_zero_iff_dvd.symm

theorem Inv.scan_due {now : Timeval} (h : Inv st₀ time now st) (hs : Started st₀)
    (hdone : ¬ Done st₀ time) {i : Nat} (hi32 : i < 2 ^ 32)
    (hi : i * st₀.drv.scanPeriod.toNat < 2 ^ 32)
    (hunshifted : st.drv.usecRemainder.toNat % st.drv.usecPeriod.toNat = 0 ∨ Flat st.cmd) :
    scanSamples st (BitVec.ofNat 32 i) = dueScan st₀ (elapsedScans st₀ time + i) := by
  unfold scanSamples dueScan
  rw [h.cmd]
  refine List.map_congr_left fun j hj => ?_
  have hj := List.mem_range.mp hj
  rcases hunshifted with hrem | hflat
  · refine fakeWaveform_eq_waveformAt h.amplitude h.period ?_
    exact (h.sampleTime_due_iff hs hdone hi32 hi hj).mpr (h.period ▸ hrem)
  · have hj' := hflat j (h.cmd ▸ hj)
    rw [h.cmd] at hj'
    exact flat_waveform hj'.1 hj'.2

/-- The time is carried over from one interrupt to the next without a loss. -/
theorem elapsedScans_add (st₀ : Waveform) (time elapsed : Nat) :
    elapsedScans st₀ (time + elapsed) = elapsedScans st₀ time +
      (time % st₀.drv.scanPeriod.toNat + elapsed) / st₀.drv.scanPeriod.toNat := by
  unfold elapsedScans
  rcases Nat.eq_zero_or_pos st₀.drv.scanPeriod.toNat with hzero | hpos
  · rw [hzero, Nat.div_zero, Nat.div_zero, Nat.div_zero]
  · have hsplit : time + elapsed = time % st₀.drv.scanPeriod.toNat + elapsed +
        st₀.drv.scanPeriod.toNat * (time / st₀.drv.scanPeriod.toNat) := by
      have := Nat.mod_add_div time st₀.drv.scanPeriod.toNat
      omega
    rw [hsplit, Nat.add_mul_div_left _ _ hpos, Nat.add_comm]

theorem elapsedTime_toNat {last now : Timeval} {elapsed : Nat}
    (h : micros now = micros last + elapsed) (hlt : elapsed < 2 ^ 64) :
    (elapsedTime last now).toNat = elapsed := by
  unfold micros at h
  have hdiff : 1000000 * (now.sec - last.sec) + now.usec - last.usec = (elapsed : Int) := by
    omega
  unfold elapsedTime
  rw [hdiff, BitVec.ofInt_natCast, BitVec.toNat_ofNat, Nat.mod_eq_of_lt hlt]

/-- `num_scans` of an interrupt. -/
def numScans (st : Waveform) (tick : Tick) : U32 :=
  ((st.drv.usecRemainder + elapsedTime st.drv.last tick.now) /
    st.drv.scanPeriod.setWidth 64).setWidth 32

/-- What an interrupt of an acquisition that is not over finds. -/
structure Finds (st₀ st : Waveform) (time elapsed : Nat) (tick : Tick) : Prop where
  scans : elapsedScans st₀ (time + elapsed) = elapsedScans st₀ time + found st tick
  numScans : (numScans st tick).toNat = found st tick
  remainder : ((st.drv.usecRemainder + elapsedTime st.drv.last tick.now) %
    st.drv.scanPeriod.setWidth 64).toNat = (time + elapsed) % st₀.drv.scanPeriod.toNat
  current : ((st.drv.usecCurrent + elapsedTime st.drv.last tick.now) % st.drv.usecPeriod).toNat =
    (st₀.drv.usecCurrent.toNat + (time + elapsed)) % st₀.drv.usecPeriod.toNat

theorem Inv.finds {now : Timeval} {elapsed : Nat} (h : Inv st₀ time now st) (hs : Started st₀)
    (hdone : ¬ Done st₀ time) (hnow : micros tick.now = micros now + elapsed)
    (hfound : found st tick < 2 ^ 32) : Finds st₀ st time elapsed tick := by
  have hlast : micros tick.now = micros st.drv.last + elapsed := by rw [h.last hdone, hnow]
  have hsince : sinceScan st tick = time % st₀.drv.scanPeriod.toNat + elapsed := by
    unfold sinceScan
    rw [h.remainder hdone, hlast]
    omega
  have hpos := hs.scanPeriod_pos
  have hlt := hs.scanPeriod_lt
  have hsmall : time % st₀.drv.scanPeriod.toNat + elapsed < 2 ^ 63 := by
    unfold found at hfound
    rw [hsince, h.scanPeriod, Nat.div_lt_iff_lt_mul hpos] at hfound
    have hle : 2 ^ 32 * st₀.drv.scanPeriod.toNat ≤ 2 ^ 32 * 2 ^ 31 :=
      Nat.mul_le_mul_left _ (Nat.le_of_lt hlt)
    omega
  have helapsed := elapsedTime_toNat hlast (by omega)
  have hsum : (st.drv.usecRemainder + elapsedTime st.drv.last tick.now).toNat =
      time % st₀.drv.scanPeriod.toNat + elapsed := by
    rw [BitVec.toNat_add, helapsed, h.remainder hdone, Nat.mod_eq_of_lt (by omega)]
  have hwidth : (st₀.drv.scanPeriod.setWidth 64).toNat = st₀.drv.scanPeriod.toNat := by
    rw [BitVec.toNat_setWidth, Nat.mod_eq_of_lt (by omega)]
  refine ⟨?_, ?_, ?_, ?_⟩
  · rw [elapsedScans_add]
    unfold found
    rw [hsince, h.scanPeriod]
  · unfold found at hfound ⊢
    rw [hsince, h.scanPeriod] at hfound ⊢
    unfold numScans
    rw [BitVec.toNat_setWidth, BitVec.toNat_udiv, hsum, h.scanPeriod, hwidth,
      Nat.mod_eq_of_lt hfound]
  · rw [BitVec.toNat_umod, hsum, h.scanPeriod, hwidth, Nat.mod_add_mod]
  · have hperiod := hs.period_lt
    have hcurrent : st.drv.usecCurrent.toNat < st₀.drv.usecPeriod.toNat := by
      rw [h.current hdone]
      exact Nat.mod_lt _ hs.period_pos
    have hlt64 : st.drv.usecCurrent.toNat + elapsed < 2 ^ 64 := by omega
    rw [BitVec.toNat_umod, BitVec.toNat_add, helapsed, Nat.mod_eq_of_lt hlt64, h.period,
      h.current hdone, Nat.mod_add_mod, Nat.add_assoc]

/-- The device in the interrupt before its loop. -/
def entered (st : Waveform) (tick : Tick) : Waveform :=
  { st with
    drv := { st.drv with
      last := tick.now
      usecRemainder := (st.drv.usecRemainder + elapsedTime st.drv.last tick.now) %
        st.drv.scanPeriod.setWidth 64 }
    sink := { st.sink with free := tick.free, events := 0 } }

theorem dueSamples_add (st₀ : Waveform) (hdone : ¬ Done st₀ time) {elapsed due limit : Nat}
    (hfound : elapsedScans st₀ (time + elapsed) = elapsedScans st₀ time + due)
    (hlimit : limit = if st₀.cmd.stopSrc = trigCount then
      min due (st₀.cmd.stopArg.toNat - elapsedScans st₀ time) else due) :
    dueSamples st₀ (time + elapsed) = dueSamples st₀ time ++
      (List.range' 0 limit).flatMap fun i => dueScan st₀ (elapsedScans st₀ time + i) := by
  have hscans : dueScans st₀ time = elapsedScans st₀ time := by
    unfold dueScans
    split
    next hsrc =>
      have : ¬ st₀.cmd.stopArg.toNat ≤ elapsedScans st₀ time := fun hle => hdone ⟨hsrc, hle⟩
      omega
    · rfl
  have hsum : dueScans st₀ (time + elapsed) = elapsedScans st₀ time + limit := by
    rw [hlimit]
    unfold dueScans
    rw [hfound]
    split
    next hsrc =>
      have : ¬ st₀.cmd.stopArg.toNat ≤ elapsedScans st₀ time := fun hle => hdone ⟨hsrc, hle⟩
      omega
    · rfl
  unfold dueSamples
  rw [hsum, hscans, ← List.range'_append_1, List.flatMap_append]
  congr 1
  rw [Nat.zero_add]
  have hmap := List.map_add_range' (a := elapsedScans st₀ time) 0 limit 1
  rw [Nat.add_zero] at hmap
  rw [← hmap, List.flatMap_map]

theorem interrupt_eq (st : Waveform) (tick : Tick) : waveformAiInterrupt st tick =
    let st' := writeScans (entered st tick) (numScans st tick).toNat 0
    { st' with drv := { st'.drv with
        usecCurrent := (st'.drv.usecCurrent + elapsedTime st.drv.last tick.now) %
          st'.drv.usecPeriod
        timerPending := st'.sink.events &&& comediCbEoa = 0 ∧ st'.drv.timerRunning } } := rfl

theorem wanted_le (st : Waveform) (left : Nat) : wanted st left ≤ left := by
  unfold wanted
  split <;> omega

theorem Inv.due_of_wanted {now : Timeval} (h : Inv st₀ time now st) (hs : Started st₀)
    (hdone : ¬ Done st₀ time) (hon : OnTime st tick) {k : Nat}
    (hk : k < wanted st (found st tick)) :
    scanSamples (entered st tick) (BitVec.ofNat 32 k) =
      dueScan st₀ (elapsedScans st₀ time + k) := by
  have hfound := wanted_le st (found st tick)
  have hscans := hon.scans
  have hoffset : k * st₀.drv.scanPeriod.toNat < 2 ^ 32 := by
    rw [← h.scanPeriod]
    exact Nat.lt_of_le_of_lt (Nat.mul_le_mul_right _ (by omega)) hon.offset
  refine Eq.trans ?_ (h.scan_due hs hdone (by omega) hoffset ?_)
  · rfl
  · exact hon.unshifted.resolve_left (by omega)

/-- An interrupt that is on time writes the scans that are due. -/
theorem Inv.interrupt {now : Timeval} {elapsed : Nat} (h : Inv st₀ time now st)
    (hs : Started st₀) (hdone : ¬ Done st₀ time)
    (hnow : micros tick.now = micros now + elapsed) (hon : OnTime st tick) :
    Inv st₀ (time + elapsed) tick.now (waveformAiInterrupt st tick) := by
  have hf := h.finds hs hdone hnow hon.scans
  have hcount : st.cmd.stopSrc = trigCount → st.drv.aiCount.toNat < st.cmd.stopArg.toNat := by
    intro hsrc
    rw [h.cmd] at hsrc ⊢
    rw [h.aiCount hdone hsrc]
    exact Nat.not_le.mp fun hle => hdone ⟨hsrc, hle⟩
  have hw : Writes (entered st tick) (found st tick) 0
      (writeScans (entered st tick) (numScans st tick).toNat 0) := by
    rw [hf.numScans]
    exact writeScans_spec hcount hon.room BitVec.zero_and
  obtain ⟨aiCount, hdrv⟩ := hw.drv
  have hend : Done st₀ (time + elapsed) ↔ st.cmd.stopSrc = trigCount ∧
      st.cmd.stopArg.toNat ≤ st.drv.aiCount.toNat + found st tick := by
    unfold Done
    rw [h.cmd, hf.scans]
    exact and_congr_right fun hsrc => by rw [h.aiCount hdone hsrc]
  have heoa := hw.eoa.trans hend.symm
  have hwanted : wanted st (found st tick) = if st₀.cmd.stopSrc = trigCount then
      min (found st tick) (st₀.cmd.stopArg.toNat - elapsedScans st₀ time)
      else found st tick := by
    unfold wanted
    rw [h.cmd]
    split
    next hsrc => rw [h.aiCount hdone hsrc]
    · rfl
  have hout : (writeScans (entered st tick) (numScans st tick).toNat 0).sink.out =
      dueSamples st₀ (time + elapsed) := by
    refine hw.out.trans ?_
    rw [dueSamples_add st₀ hdone hf.scans hwanted]
    refine congr_arg₂ _ h.out (List.flatMap_congr fun k hk => ?_)
    have hk : k < wanted st (found st tick) := by
      have := List.mem_range'_1.mp hk
      change 0 ≤ k ∧ k < 0 + wanted st (found st tick) at this
      omega
    exact h.due_of_wanted hs hdone hon hk
  have hrunning : (writeScans (entered st tick) (numScans st tick).toNat 0).drv.timerRunning =
      true := by
    rw [hdrv]
    exact h.running
  rw [interrupt_eq]
  refine ⟨hw.cmd.trans h.cmd, ?_, ?_, ?_, ?_, hrunning, hout, heoa, ?_, fun _ => ?_, fun _ => ?_,
    fun _ => ?_, fun hnot hsrc => ?_⟩
  · change (writeScans (entered st tick) (numScans st tick).toNat 0).drv.uvoltAmplitude = _
    rw [hdrv]
    exact h.amplitude
  · change (writeScans (entered st tick) (numScans st tick).toNat 0).drv.usecPeriod = _
    rw [hdrv]
    exact h.period
  · change (writeScans (entered st tick) (numScans st tick).toNat 0).drv.scanPeriod = _
    rw [hdrv]
    exact h.scanPeriod
  · change (writeScans (entered st tick) (numScans st tick).toNat 0).drv.convertPeriod = _
    rw [hdrv]
    exact h.convertPeriod
  · dsimp only
    rw [decide_eq_true_iff, hrunning]
    exact (and_iff_left rfl).trans (not_iff_comm.mp heoa).symm
  · change micros (writeScans (entered st tick) (numScans st tick).toNat 0).drv.last = _
    rw [hdrv]
    rfl
  · change (writeScans (entered st tick) (numScans st tick).toNat 0).drv.usecRemainder.toNat = _
    rw [hdrv]
    exact hf.remainder
  · dsimp only
    rw [hdrv]
    exact hf.current
  · have hsrc' : st.cmd.stopSrc = trigCount := h.cmd ▸ hsrc
    have hsum : (writeScans (entered st tick) (numScans st tick).toNat 0).drv.aiCount.toNat =
      st.drv.aiCount.toNat + wanted st (found st tick) := hw.count hsrc'
    have hlt : ¬ st₀.cmd.stopArg.toNat ≤ elapsedScans st₀ (time + elapsed) :=
      fun hle => hnot ⟨hsrc, hle⟩
    refine hsum.trans ?_
    rw [hwanted, if_pos hsrc, h.aiCount hdone hsrc]
    rw [hf.scans] at hlt ⊢
    omega

theorem Inv.step {now : Timeval} {elapsed : Nat} (h : Inv st₀ time now st) (hs : Started st₀)
    (hnow : micros tick.now = micros now + elapsed)
    (hon : st.drv.timerPending → OnTime st tick) :
    Inv st₀ (time + elapsed) tick.now (step st tick) := by
  unfold FakeWaveform.step
  split
  next hpending => exact h.interrupt hs (h.pending.mp hpending) hnow (hon hpending)
  next hpending =>
    have hdone : Done st₀ time := Classical.not_not.mp fun hnot => hpending (h.pending.mpr hnot)
    exact h.idle hdone elapsed tick.now

theorem Inv.run {now : Timeval} {ticks : List Tick} {left : Nat} (h : Inv st₀ time now st)
    (hs : Started st₀) (hsplits : Splits now left ticks) (hon : AllOnTime st ticks) :
    ∃ now', Inv st₀ (time + left) now' (run st ticks) := by
  induction ticks generalizing st time now left with
  | nil =>
    cases hsplits
    exact ⟨now, h⟩
  | cons tick ticks ih =>
    obtain ⟨elapsed, left, rfl, hnow, hsplits⟩ := hsplits
    rw [← Nat.add_assoc]
    exact ih (h.step hs hnow hon.1) hsplits hon.2

/-- The private data has the amplitude and the period of an attached device. -/
def Attached (drv : WaveformPrivate) : Prop := ∃ amplitude period,
  drv.uvoltAmplitude = (waveformAttach amplitude period).uvoltAmplitude ∧
    drv.usecPeriod = (waveformAttach amplitude period).usecPeriod

variable {drv : WaveformPrivate} {cmd : Cmd} {now : Timeval}

theorem Attached.period (h : Attached drv) :
    0 < drv.usecPeriod.toNat ∧ drv.usecPeriod.toNat < 2 ^ 31 := by
  obtain ⟨amplitude, period, -, hperiod⟩ := h
  rw [hperiod]
  unfold waveformAttach
  dsimp only
  have hword : ∀ x : U32, 0 < x.toInt → (x.signExtend 64).toNat = x.toNat ∧ 0 < x.toNat ∧
      x.toNat < 2 ^ 31 := by
    intro x hx
    have hmsb : x.msb = false := by
      rw [BitVec.msb_eq_toInt, decide_eq_false_iff_not]
      omega
    rw [BitVec.toInt_eq_toNat_of_msb hmsb] at hx
    rw [BitVec.msb_eq_decide, decide_eq_false_iff_not] at hmsb
    rw [BitVec.signExtend_eq_setWidth_of_msb_false (by rw [BitVec.msb_eq_decide]; simpa using hmsb),
      BitVec.toNat_setWidth, Nat.mod_eq_of_lt (by omega)]
    omega
  split
  · obtain ⟨heq, hbounds⟩ := hword 100000 (by decide)
    rwa [heq]
  next hpos =>
    obtain ⟨heq, hbounds⟩ := hword period (by omega)
    rwa [heq]

theorem waveformAiCmd_ok (h : (waveformAiCmd drv cmd now).1 = 0) : (waveformAiCmd drv cmd now).2 =
    { drv with
      timerRunning := true
      aiCount := 0
      scanPeriod := cmd.scanBeginArg / nanoPerMicro
      convertPeriod := if cmd.convertSrc = trigNow then 0 else cmd.convertArg / nanoPerMicro
      last := now
      usecCurrent := BitVec.ofInt 64 now.usec % drv.usecPeriod
      usecRemainder := 0
      timerPending := true } := by
  unfold waveformAiCmd at h ⊢
  split at h
  · cases h
  next hrt =>
  rw [if_neg hrt]
  dsimp only at h ⊢
  split at h
  · cases h
  next hsrc => rw [if_neg hsrc]

/-- An accepted command starts an acquisition with periods that are not zero. -/
theorem started (hattached : Attached drv) (haccepted : (waveformAiCmdtest cmd).1 = 0)
    (hcmd : (waveformAiCmd drv cmd now).1 = 0)
    (hconverts : (cmd.chanlistLen.toNat - 1) * (start drv cmd now).drv.convertPeriod.toNat <
      2 ^ 32) : Started (start drv cmd now) := by
  obtain ⟨hsupported, hneeds⟩ := supported_of_accepted haccepted
  obtain ⟨hpos, hlt⟩ := hattached.period
  have hscanBegin : 1000 ≤ cmd.scanBeginArg.toNat := by
    refine Nat.not_lt.mp fun hlow => hneeds (.inr (.inr (.inl ?_)))
    exact BitVec.lt_def.mpr hlow
  have hscanPeriod : (cmd.scanBeginArg / nanoPerMicro).toNat = cmd.scanBeginArg.toNat / 1000 :=
    BitVec.toNat_udiv
  have hstart := waveformAiCmd_ok hcmd
  have hword := cmd.scanBeginArg.isLt
  unfold start at hconverts ⊢
  rw [hstart] at hconverts ⊢
  refine ⟨hpos, hlt, ?_, ?_, fun hsrc => ?_, hconverts, ?_, rfl, rfl, rfl, rfl, rfl, rfl⟩
  · dsimp only
    omega
  · dsimp only
    omega
  · refine Nat.pos_of_ne_zero fun hzero => hneeds ?_
    exact .inr (.inr (.inr (.inr (.inr (.inr (.inl ⟨hsrc, BitVec.eq_of_toNat_eq hzero⟩))))))
  · dsimp only
    rw [BitVec.toNat_umod]
    exact Nat.mod_lt _ hpos

/-- The channel lists that the core accepts for the subdevice are short enough. -/
theorem converts_of_length (hcmd : (waveformAiCmd drv cmd now).1 = 0)
    (hlen : cmd.chanlistLen.toNat ≤ 16) :
    (cmd.chanlistLen.toNat - 1) * (start drv cmd now).drv.convertPeriod.toNat < 2 ^ 32 := by
  have hperiod : (start drv cmd now).drv.convertPeriod.toNat ≤ 4294967 := by
    unfold start
    rw [waveformAiCmd_ok hcmd]
    dsimp only
    split
    · decide
    · have hdiv : (cmd.convertArg / nanoPerMicro).toNat = cmd.convertArg.toNat / 1000 :=
        BitVec.toNat_udiv
      have := cmd.convertArg.isLt
      omega
  have hle := Nat.mul_le_mul (show cmd.chanlistLen.toNat - 1 ≤ 15 by omega) hperiod
  omega

/-- However the time is split into interrupts, as long as they are on time, the device writes the
scans that are due, each with the waveforms at its own time, and ends the acquisition with the
last one. -/
theorem samples_of_splits (hattached : Attached drv) (haccepted : (waveformAiCmdtest cmd).1 = 0)
    (hcmd : (waveformAiCmd drv cmd now).1 = 0)
    (hconverts : (cmd.chanlistLen.toNat - 1) * (start drv cmd now).drv.convertPeriod.toNat <
      2 ^ 32)
    {ticks ticks' : List Tick} (hsplits : Splits now time ticks)
    (hsplits' : Splits now time ticks') (hon : AllOnTime (start drv cmd now) ticks)
    (hon' : AllOnTime (start drv cmd now) ticks') :
    (run (start drv cmd now) ticks).sink.out = dueSamples (start drv cmd now) time ∧
      (run (start drv cmd now) ticks').sink.out = (run (start drv cmd now) ticks).sink.out ∧
      ((run (start drv cmd now) ticks).sink.events &&& comediCbEoa ≠ 0 ↔
        Done (start drv cmd now) time) := by
  have hs := started hattached haccepted hcmd hconverts
  have hlast : (start drv cmd now).drv.last = now := by
    unfold start
    rw [waveformAiCmd_ok hcmd]
  have hinv := hs.inv
  rw [hlast] at hinv
  obtain ⟨_, h⟩ := hinv.run hs hsplits hon
  obtain ⟨_, h'⟩ := hinv.run hs hsplits' hon'
  rw [Nat.zero_add] at h h'
  exact ⟨h.out, h'.out.trans h.out.symm, h.eoa⟩

def sawtooth : Cmd where
  startSrc := trigNow
  scanBeginSrc := trigTimer
  scanBeginArg := 1000000
  convertSrc := trigNow
  scanEndSrc := trigCount
  scanEndArg := 1
  stopSrc := trigCount
  stopArg := 2
  chanlist := .kernel [0]
  chanlistLen := 1

def attached : WaveformPrivate := waveformAttach 0 0

theorem samples_of_splits_sawtooth :
    (run (start attached sawtooth ⟨0, 0⟩) [⟨⟨0, 2000⟩, 8⟩]).sink.out =
      dueSamples (start attached sawtooth ⟨0, 0⟩) 2000 ∧
    (run (start attached sawtooth ⟨0, 0⟩) [⟨⟨0, 1000⟩, 8⟩, ⟨⟨0, 2000⟩, 8⟩]).sink.out =
      (run (start attached sawtooth ⟨0, 0⟩) [⟨⟨0, 2000⟩, 8⟩]).sink.out := by
  have hone : AllOnTime (start attached sawtooth ⟨0, 0⟩) [⟨⟨0, 2000⟩, 8⟩] :=
    ⟨fun _ => ⟨by decide, by decide, by decide, .inr (.inl (by decide))⟩, trivial⟩
  have htwo : AllOnTime (start attached sawtooth ⟨0, 0⟩) [⟨⟨0, 1000⟩, 8⟩, ⟨⟨0, 2000⟩, 8⟩] :=
    ⟨fun _ => ⟨by decide, by decide, by decide, .inr (.inl (by decide))⟩,
      fun _ => ⟨by decide, by decide, by decide, .inr (.inl (by decide))⟩, trivial⟩
  have hsplits : Splits ⟨0, 0⟩ 2000 [⟨⟨0, 2000⟩, 8⟩] := ⟨2000, 0, rfl, rfl, rfl⟩
  have hsplits' : Splits ⟨0, 0⟩ 2000 [⟨⟨0, 1000⟩, 8⟩, ⟨⟨0, 2000⟩, 8⟩] :=
    ⟨1000, 1000, rfl, rfl, 1000, 0, rfl, rfl, rfl⟩
  have h := samples_of_splits ⟨0, 0, rfl, rfl⟩ (by decide) (by decide) (by decide)
    hsplits hsplits' hone htwo
  exact ⟨h.1, h.2.1⟩

/-- Half a millisecond that is left over shifts the next sample by as much. -/
theorem jitter_shifts : Splits ⟨0, 0⟩ 2500 [⟨⟨0, 2500⟩, 8⟩] ∧
    Splits ⟨0, 0⟩ 2500 [⟨⟨0, 1500⟩, 8⟩, ⟨⟨0, 2500⟩, 8⟩] ∧
    (waveformAiCmdtest sawtooth).1 = 0 ∧ (waveformAiCmd attached sawtooth ⟨0, 0⟩).1 = 0 ∧
    dueSamples (start attached sawtooth ⟨0, 0⟩) 2500 = [29491, 29556] ∧
    (run (start attached sawtooth ⟨0, 0⟩) [⟨⟨0, 2500⟩, 8⟩]).sink.out = [29491, 29556] ∧
    (run (start attached sawtooth ⟨0, 0⟩) [⟨⟨0, 1500⟩, 8⟩, ⟨⟨0, 2500⟩, 8⟩]).sink.out =
      [29491, 29589] := by
  refine ⟨⟨2500, 0, rfl, rfl, rfl⟩, ⟨1500, 1000, rfl, rfl, 1000, 0, rfl, rfl, rfl⟩, ?_⟩
  decide +kernel

end Comedi.FakeWaveformRuns
