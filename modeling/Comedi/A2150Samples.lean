import Comedi.A2150Lists
import Comedi.BitFlags

namespace Comedi.A2150Samples

open A2150 A2150Lists BitFlags SampleSink
open RtTimer (trigNone trigCount)

/-- The interrupt at the terminal count of a transfer: the status, the samples that the transfer
put into memory, and the space that the buffer has. -/
structure Terminal where
  status : U16
  samples : List U16
  free : Nat

/-- The transfer overwrites the front of the memory, what is behind stays. -/
def receive (x : Acq) (samples : List U16) : Acq :=
  { x with dmaBuffer := fun i => samples.getD i (x.dmaBuffer i) }

variable (cmd : Cmd)

def step (x : Acq) (t : Terminal) : Acq :=
  a2150Interrupt cmd (receive x t.samples) t.status 0 t.free

def run (x : Acq) (ts : List Terminal) : Acq := ts.foldl (step cmd) x

/-- The 8237 is enabled and has done the whole transfer. -/
structure Ends (x : Acq) (t : Terminal) : Prop where
  enabled : x.enabled = true
  programmed : x.programmed.toNat = 2 * t.samples.length
  intr : t.status &&& intrBit ≠ 0
  dmaTc : t.status &&& dmaTcBit ≠ 0

def AllEnd : Acq → List Terminal → Prop
  | _, [] => True
  | x, t :: ts => Ends x t ∧ AllEnd (step cmd x t) ts

def received (ts : List Terminal) : List U16 := ts.flatMap (·.samples)

/-- The buffer has space for the samples of each interrupt, when `n` are wanted. -/
def Roomy : Nat → List Terminal → Prop
  | _, [] => True
  | n, t :: ts => min n t.samples.length ≤ t.free ∧ Roomy (n - t.samples.length) ts

/-- The state after the interrupts `ts` of a command that wants `wanted` samples, `size` of them
in a full transfer. -/
structure Delivered (wanted size : Nat) (before : Acq) (ts : List Terminal) (x : Acq) : Prop where
  count : x.p.count.toNat = wanted - (received ts).length
  enabled : x.enabled = true ↔ (received ts).length < wanted
  programmed : ts ≠ [] → (received ts).length < wanted →
    x.programmed.toNat = 2 * min (wanted - (received ts).length) size
  out : Roomy wanted ts →
    x.sink.out = before.sink.out ++ ((received ts).take wanted).map toUnsigned
  eoa : ∀ t ∈ ts.getLast?, (x.sink.events &&& comediCbEoa ≠ 0 ↔
    wanted ≤ (received ts).length ∨ t.status &&& ovflBit ≠ 0)
  progress : min wanted (ts.length * size) ≤ (received ts).length

/-- What is left of the counts before an interrupt, where the transfer has `k` samples. -/
structure Inv (left size k : Nat) (x : Acq) : Prop where
  count : x.p.count.toNat = left
  transferSize : x.p.dmaTransferSize.toNat = 2 * size
  least : min left size ≤ k
  most : k ≤ size

variable {cmd} {x : Acq} {t : Terminal} {ts : List Terminal} {left size k n i : Nat}
  {s : Sink U16} {l : List U16}

/-- The points of a transfer, from point `i` on. -/
def points (x : Acq) (i n : Nat) : List U16 :=
  (List.range n).map fun k => toUnsigned (x.dmaBuffer (i + k))

theorem points_succ (x : Acq) (i n : Nat) :
    points x i (n + 1) = toUnsigned (x.dmaBuffer i) :: points x (i + 1) n := by
  unfold points
  rw [List.range_succ_eq_map, List.map_cons, List.map_map]
  congr 1
  apply List.map_congr_left
  intro k _
  exact congrArg (fun j => toUnsigned (x.dmaBuffer j)) (Nat.add_right_comm i k 1)

/-- The loop over the points takes as many as it is given, and ends the acquisition with the
last one that is wanted. -/
structure Written (n i : Nat) (x r : Acq) : Prop where
  count : r.p.count.toNat = x.p.count.toNat - n
  transferSize : r.p.dmaTransferSize = x.p.dmaTransferSize
  programmed : r.programmed = x.programmed
  disabled : x.enabled = false → r.enabled = false
  sink : r.sink = if n = x.p.count.toNat then raise (putAll x.sink (points x i n)) comediCbEoa
    else putAll x.sink (points x i n)

theorem pred_toNat {c : U32} (h : 0 < c.toNat) : (c - 1).toNat = c.toNat - 1 := by
  have hle : (1 : U32) ≤ c := h
  rw [BitVec.toNat_sub_of_le hle]
  rfl

theorem writePoints_written (hc : counts cmd) (hpos : 0 < x.p.count.toNat)
    (hn : n ≤ x.p.count.toNat) : Written n i x (writePoints cmd n i x) := by
  induction n generalizing x i with
  | zero => exact ⟨rfl, rfl, rfl, id, (if_neg (Nat.ne_of_lt hpos)).symm⟩
  | succ n ih =>
    have hpred := pred_toNat hpos
    unfold writePoints
    dsimp only
    rw [if_pos hc]
    split
    · next hzero =>
      have hone : x.p.count.toNat = 1 := by
        have hz : (x.p.count - 1).toNat = 0 := congrArg BitVec.toNat hzero
        omega
      obtain rfl : n = 0 := by omega
      refine ⟨?_, rfl, rfl, fun _ => rfl, ?_⟩
      · change (x.p.count - 1).toNat = _
        rw [hpred]
      · rw [if_pos (by omega), points_succ]
        rfl
    · next hmore =>
      have hmore' : 0 < (x.p.count - 1).toNat := Nat.pos_of_ne_zero fun hz =>
        hmore (BitVec.eq_of_toNat_eq hz)
      have hrest := @ih { x with
        sink := put x.sink (toUnsigned (x.dmaBuffer i))
        p := { x.p with count := x.p.count - 1 } } (i + 1) hmore' (by
          dsimp only
          omega)
      refine ⟨?_, hrest.transferSize, hrest.programmed, hrest.disabled, ?_⟩
      · rw [hrest.count]
        dsimp only
        omega
      · rw [hrest.sink, points_succ]
        dsimp only
        have hiff : (n = (x.p.count - 1).toNat) = (n + 1 = x.p.count.toNat) := by
          apply propext
          omega
        simp only [hiff]
        rfl

theorem points_receive {samples : List U16} (hn : n ≤ samples.length) :
    points (receive x samples) 0 n = (samples.take n).map toUnsigned := by
  unfold points receive
  apply List.ext_getElem
  · rw [List.length_map, List.length_range, List.length_map, List.length_take,
      Nat.min_eq_left hn]
  · intro i h₁ h₂
    rw [List.length_map, List.length_range] at h₁
    rw [List.getElem_map, List.getElem_range, List.getElem_map, List.getElem_take, Nat.zero_add]
    dsimp only
    rw [List.getD_eq_getElem?_getD, List.getElem?_eq_getElem (by omega), Option.getD_some]

theorem Inv.maxPoints (h : Inv left size k x) : (maxPoints x.p).toNat = size := by
  unfold A2150.maxPoints
  rw [BitVec.toNat_udiv, h.transferSize]
  exact Nat.mul_div_cancel_left size (by decide)

theorem Inv.numPoints (h : Inv left size k x) (hc : counts cmd) :
    (numPoints cmd x.p 0).toNat = min left size := by
  have hmax := h.maxPoints
  have hcount := h.count
  unfold A2150.numPoints
  dsimp only
  rw [show A2150.maxPoints x.p - 0 = A2150.maxPoints x.p from BitVec.sub_zero _]
  by_cases hlt : x.p.count < A2150.maxPoints x.p
  · rw [if_pos ⟨hlt, hc⟩, hcount]
    have hlt' : x.p.count.toNat < (A2150.maxPoints x.p).toNat := hlt
    omega
  · rw [if_neg (fun hand => hlt hand.1), hmax]
    have hle : (A2150.maxPoints x.p).toNat ≤ x.p.count.toNat := Nat.not_lt.mp hlt
    omega

theorem Inv.leftover (h : Inv left size k x) (hc : counts cmd) :
    (leftover cmd x.p 0).toNat = min (left - size) size := by
  have hmax := h.maxPoints
  have hcount := h.count
  have hsrc : cmd.stopSrc ≠ trigNone := by
    rw [show cmd.stopSrc = trigCount from hc]
    decide
  unfold A2150.leftover
  dsimp only
  rw [if_neg hsrc, if_neg (not_not.mpr rfl)]
  by_cases hlt : A2150.maxPoints x.p < x.p.count
  · have hlt' : (A2150.maxPoints x.p).toNat < x.p.count.toNat := hlt
    have hsub : (x.p.count - A2150.maxPoints x.p).toNat = left - size := by
      rw [BitVec.toNat_sub_of_le (BitVec.le_of_lt hlt), hcount, hmax]
    rw [if_pos hlt]
    by_cases hlong : A2150.maxPoints x.p < x.p.count - A2150.maxPoints x.p
    · have hlong' : (A2150.maxPoints x.p).toNat < (x.p.count - A2150.maxPoints x.p).toNat := hlong
      rw [if_pos hlong, hmax]
      omega
    · have hshort : (x.p.count - A2150.maxPoints x.p).toNat ≤ (A2150.maxPoints x.p).toNat :=
        Nat.not_lt.mp hlong
      rw [if_neg hlong, hsub]
      omega
  · have hle : x.p.count.toNat ≤ (A2150.maxPoints x.p).toNat := Nat.not_lt.mp hlt
    rw [if_neg hlt]
    change 0 = _
    omega

theorem put_eoa (s : Sink α) (sample : α) :
    (put s sample).events &&& comediCbEoa = s.events &&& comediCbEoa := by
  unfold put
  split <;> exact and_or_of_disjoint (by decide)

theorem putAll_eoa (s : Sink α) (l : List α) :
    (putAll s l).events &&& comediCbEoa = s.events &&& comediCbEoa := by
  induction l generalizing s with
  | nil => rfl
  | cons sample l ih => exact (ih (put s sample)).trans (put_eoa s sample)

theorem raise_eoa_ne {bits : U32} (h : bits &&& comediCbEoa = comediCbEoa) :
    (raise s bits).events &&& comediCbEoa ≠ 0 := by
  unfold raise
  rw [BitVec.and_or_distrib_right, h]
  intro hz
  exact absurd (BitVec.or_eq_zero_iff.mp hz).2 (by decide)

/-- What the interrupt at the end of a transfer of `k` samples does, `left` samples being wanted
before. -/
structure Served (left size : Nat) (free : Nat) (samples : List U16) (x r : Acq) : Prop where
  count : r.p.count.toNat = left - samples.length
  transferSize : r.p.dmaTransferSize = x.p.dmaTransferSize
  enabled : r.enabled = true ↔ samples.length < left
  programmed : samples.length < left →
    r.programmed.toNat = 2 * min (left - samples.length) size
  out : min left samples.length ≤ free →
    r.sink.out = x.sink.out ++ (samples.take left).map toUnsigned
  eoa : r.sink.events &&& comediCbEoa ≠ 0 ↔
    left ≤ samples.length ∨ x.sink.events &&& comediCbEoa ≠ 0

theorem serveDma_served {samples : List U16} (h : Inv left size samples.length x)
    (hc : counts cmd) (hleft : 0 < left) (hpos : 0 < size) :
    Served left size x.sink.free samples x (serveDma cmd (receive x samples) 0) := by
  have hx : Inv left size samples.length (receive x samples) :=
    ⟨h.count, h.transferSize, h.least, h.most⟩
  have hn := hx.numPoints hc
  have hl := hx.leftover hc
  have hcount : (receive x samples).p.count.toNat = left := h.count
  have hleast := h.least
  have hmost := h.most
  have hpoints : points (receive x samples) 0 (min left size) =
      (samples.take left).map toUnsigned := by
    rw [points_receive h.least]
    congr 1
    rcases Nat.le_total left size with hle | hle
    · rw [Nat.min_eq_left hle]
    · rw [Nat.min_eq_right hle, List.take_of_length_le hmost,
        List.take_of_length_le (hmost.trans hle)]
  have hw : Written (min left size) 0 { receive x samples with enabled := false }
      (writePoints cmd (min left size) 0 { receive x samples with enabled := false }) :=
    writePoints_written hc (by rw [hcount]; exact hleft)
      (by rw [hcount]; exact Nat.min_le_left left size)
  have hzero : (0 : U32) / sampleSize = 0 := by decide
  unfold serveDma
  dsimp only
  rw [hzero, hn]
  generalize hr : writePoints cmd (min left size) 0 { receive x samples with enabled := false } = r
    at hw ⊢
  have hrcount := hw.count
  have hsink := hw.sink
  have hdisabled := hw.disabled rfl
  dsimp only at hrcount hsink
  rw [hcount] at hrcount hsink
  change r.sink = if _ then raise (putAll x.sink (points (receive x samples) 0 _)) comediCbEoa
    else putAll x.sink (points (receive x samples) 0 _) at hsink
  rw [hpoints] at hsink
  have hsize : size < 2 ^ 31 := by
    have := x.p.dmaTransferSize.isLt
    have := h.transferSize
    omega
  constructor
  · split <;> (dsimp only [Private.outw]; omega)
  · split <;> exact hw.transferSize
  · split
    · next hne =>
      have : (leftover cmd (receive x samples).p 0).toNat ≠ 0 := fun hz =>
        hne (BitVec.eq_of_toNat_eq hz)
      exact iff_of_true rfl (by omega)
    · next heq =>
      rw [not_not.mp heq] at hl
      change 0 = _ at hl
      change r.enabled = true ↔ _
      rw [hdisabled]
      exact iff_of_false Bool.false_ne_true (by omega)
  · intro hlt
    split
    · dsimp only
      rw [BitVec.toNat_mul, hl, Nat.mod_eq_of_lt (by change _ * 2 < _; omega)]
      change _ * 2 = _
      omega
    · next heq =>
      rw [not_not.mp heq] at hl
      change 0 = _ at hl
      omega
  · intro hroom
    have hadds := @putAll_adds _ x.sink ((samples.take left).map toUnsigned) (by
      rw [List.length_map, List.length_take]
      exact hroom)
    have hout : r.sink.out = x.sink.out ++ (samples.take left).map toUnsigned := by
      rw [hsink, ← hadds.out]
      split <;> rfl
    split <;> exact hout
  · have heoa : r.sink.events &&& comediCbEoa ≠ 0 ↔
        left ≤ samples.length ∨ x.sink.events &&& comediCbEoa ≠ 0 := by
      rw [hsink]
      split
      · next he => exact iff_of_true (raise_eoa_ne (by decide)) (.inl (by omega))
      · next he =>
        rw [putAll_eoa]
        exact ⟨.inr, fun hor => hor.resolve_left (by omega)⟩
    have hblock : ∀ e : U32, (e ||| comediCbBlock) &&& comediCbEoa = e &&& comediCbEoa :=
      fun e => and_or_of_disjoint (by decide)
    split
    · change (r.sink.events ||| comediCbBlock) &&& comediCbEoa ≠ 0 ↔ _
      rw [hblock]
      exact heoa
    · change (r.sink.events ||| comediCbBlock) &&& comediCbEoa ≠ 0 ↔ _
      rw [hblock]
      exact heoa

/-- The 8237 before an interrupt, when `left` samples are wanted. -/
structure Armed (left size : Nat) (x : Acq) : Prop where
  count : x.p.count.toNat = left
  transferSize : x.p.dmaTransferSize.toNat = 2 * size
  enabled : x.enabled = true ↔ 0 < left
  programmed : 0 < left → ∃ k, min left size ≤ k ∧ k ≤ size ∧ x.programmed.toNat = 2 * k

theorem Armed.inv (h : Armed left size x) (he : Ends x t) :
    0 < left ∧ Inv left size t.samples.length x := by
  have hleft := h.enabled.mp he.enabled
  obtain ⟨k, hleast, hmost, hprog⟩ := h.programmed hleft
  have hk : k = t.samples.length := by
    have := he.programmed
    omega
  subst hk
  exact ⟨hleft, h.count, h.transferSize, hleast, hmost⟩

/-- What one interrupt does. -/
structure Stepped (left size : Nat) (t : Terminal) (x r : Acq) : Prop where
  armed : Armed (left - t.samples.length) size r
  programmed : t.samples.length < left →
    r.programmed.toNat = 2 * min (left - t.samples.length) size
  out : min left t.samples.length ≤ t.free →
    r.sink.out = x.sink.out ++ (t.samples.take left).map toUnsigned
  eoa : r.sink.events &&& comediCbEoa ≠ 0 ↔
    left ≤ t.samples.length ∨ t.status &&& ovflBit ≠ 0
  least : min left size ≤ t.samples.length

theorem step_stepped (hc : counts cmd) (hpos : 0 < size) (h : Armed left size x) (he : Ends x t) :
    Stepped left size t x (step cmd x t) := by
  obtain ⟨hleft, hinv⟩ := h.inv he
  have stepped : ∀ {y r : Acq}, Served left size t.free t.samples y r →
      y.p.dmaTransferSize = x.p.dmaTransferSize → y.sink.out = x.sink.out →
      (y.sink.events &&& comediCbEoa ≠ 0 ↔ t.status &&& ovflBit ≠ 0) →
      Stepped left size t x r := by
    intro y r hs hsize hout heoa
    refine ⟨⟨hs.count, ?_, ?_, fun hlt => ?_⟩, hs.programmed, hout ▸ hs.out, ?_, hinv.least⟩
    · rw [hs.transferSize, hsize, hinv.transferSize]
    · rw [hs.enabled]
      omega
    · exact ⟨_, Nat.le_refl _, Nat.min_le_right _ _, hs.programmed (by omega)⟩
    · rw [hs.eoa, heoa]
  unfold step a2150Interrupt
  dsimp only
  rw [if_neg he.intr, if_neg he.dmaTc]
  split
  · next hovfl =>
    let y := abort { x with sink := { x.sink with free := t.free, events := 0 } }
    have hy : Inv left size t.samples.length y := ⟨hinv.count, hinv.transferSize, hinv.least,
      hinv.most⟩
    refine stepped (@serveDma_served cmd y left size t.samples hy hc hleft hpos) rfl rfl ?_
    exact iff_of_true (raise_eoa_ne (by decide)) hovfl
  · next hovfl =>
    let y : Acq := { x with sink := { x.sink with free := t.free, events := 0 } }
    have hy : Inv left size t.samples.length y := ⟨hinv.count, hinv.transferSize, hinv.least,
      hinv.most⟩
    refine stepped (@serveDma_served cmd y left size t.samples hy hc hleft hpos) rfl rfl ?_
    exact iff_of_false (not_not.mpr BitVec.zero_and) hovfl

theorem run_delivered (hc : counts cmd) (hpos : 0 < size) (h : Armed left size x)
    (he : AllEnd cmd x ts) : Delivered left size x ts (run cmd x ts) := by
  induction ts generalizing x left with
  | nil =>
    refine ⟨h.count, h.enabled, fun hne => absurd rfl hne, fun _ => ?_, nofun, ?_⟩
    · change x.sink.out = x.sink.out ++ ((([] : List U16).take left).map toUnsigned)
      rw [List.take_nil, List.map_nil, List.append_nil]
    · rw [List.length_nil, Nat.zero_mul]
      exact Nat.min_le_right _ _
  | cons t ts ih =>
    have hs := step_stepped hc hpos h he.1
    have hrest := ih hs.armed he.2
    have hlen : (received (t :: ts)).length = t.samples.length + (received ts).length := by
      unfold received
      rw [List.flatMap_cons, List.length_append]
    change Delivered left size x (t :: ts) (run cmd (step cmd x t) ts)
    constructor
    · rw [hrest.count, hlen]
      omega
    · rw [hrest.enabled, hlen]
      omega
    · intro _ hlt
      rw [hlen] at hlt ⊢
      cases ts with
      | nil =>
        have hprog := hs.programmed (by omega)
        rwa [show left - t.samples.length = left - (t.samples.length + (received []).length)
          from rfl] at hprog
      | cons u us =>
        rw [hrest.programmed (List.cons_ne_nil u us) (by omega)]
        omega
    · rintro ⟨hroom, hrooms⟩
      rw [hrest.out hrooms, hs.out hroom, List.append_assoc, ← List.map_append]
      unfold received
      rw [List.flatMap_cons, List.take_append]
    · intro u hu
      rw [hlen]
      cases ts with
      | nil =>
        obtain rfl := Option.some.inj hu
        exact hs.eoa
      | cons v vs =>
        have hu' : u ∈ (v :: vs).getLast? := by rwa [List.getLast?_cons_cons] at hu
        exact (hrest.eoa u hu').trans (or_congr (by omega) Iff.rfl)
    · have hleast := hs.least
      have hprogress := hrest.progress
      rw [hlen, List.length_cons, Nat.succ_mul]
      omega

/-- A command that was started, with another size for its transfers. -/
def sized (x : Acq) (size : Nat) : Acq :=
  { x with
    p := { x.p with dmaTransferSize := BitVec.ofNat 32 (2 * size) }
    programmed := BitVec.ofNat 32 (2 * size) }

variable {board : A2150Board} {behind : Behind} {cmd' cmd'' : Cmd} {p : Private} {x' : Acq}

theorem startDma_acq (x : Acq) (cmd : Cmd) (old : U32) :
    (startDma x cmd old).p.count = cmd.stopArg * cmd.chanlistLen ∧
      (startDma x cmd old).enabled = true ∧
      (startDma x cmd old).p.dmaTransferSize = transferSize cmd ∧
      (startDma x cmd old).programmed = transferSize cmd := by
  unfold startDma
  dsimp only
  split <;> exact ⟨rfl, rfl, rfl, rfl⟩

theorem aiCmd_started (h : a2150AiCmd board behind x cmd = some (0, cmd', x')) :
    cmd'.stopSrc = cmd.stopSrc ∧ x'.p.count = cmd.stopArg * cmd.chanlistLen ∧
      x'.enabled = true ∧ x'.p.dmaTransferSize = transferSize cmd' ∧
      x'.programmed = transferSize cmd' := by
  unfold a2150AiCmd at h
  split at h
  · exact absurd (congrArg (·.1) (Option.some.inj h)) (show (-1 : Int) ≠ 0 by decide)
  split at h
  · exact absurd (congrArg (·.1) (Option.some.inj h)) (show (-1 : Int) ≠ 0 by decide)
  simp only [Option.bind_eq_bind, Option.bind_eq_some_iff] at h
  obtain ⟨first, -, h⟩ := h
  split at h
  · exact absurd (congrArg (·.1) (Option.some.inj h)) (show (-1 : Int) ≠ 0 by decide)
  obtain ⟨third, -, h⟩ := Option.bind_eq_some_iff.mp h
  have hpair := congrArg (·.2) (Option.some.inj h)
  have hcmd := congrArg (·.1) hpair
  have hacq := congrArg (·.2) hpair
  dsimp only at hcmd hacq
  subst hcmd hacq
  exact ⟨rfl, startDma_acq ..⟩

theorem armed_sized (hcount : x.p.count.toNat = left) (hleft : 0 < left) (hen : x.enabled = true)
    (hsize : 2 * size < 2 ^ 32) : Armed left size (sized x size) where
  count := hcount
  transferSize := BitVec.toNat_ofNat .. |>.trans (Nat.mod_eq_of_lt hsize)
  enabled := iff_of_true hen hleft
  programmed := fun _ => ⟨size, Nat.min_le_right _ _, Nat.le_refl _,
    BitVec.toNat_ofNat .. |>.trans (Nat.mod_eq_of_lt hsize)⟩

theorem transferSize_whole (cmd : Cmd) :
    ∃ size, 0 < size ∧ 2 * size < 2 ^ 32 ∧ transferSize cmd = BitVec.ofNat 32 (2 * size) := by
  unfold transferSize
  dsimp only
  generalize sampleSize * cmd.chanlistLen * oneThirdSecond / cmd.scanBeginArg = size
  generalize hclamp : (if dmaBufferSize < size then dmaBufferSize else size) = size₁
  have hmost : size₁.toNat ≤ 0xff00 := by
    subst hclamp
    split
    · exact Nat.le_refl _
    · next h => exact Nat.not_lt.mp h
  generalize hraise : (if size₁ < sampleSize then sampleSize else size₁) = size₂
  have hbounds : 2 ≤ size₂.toNat ∧ size₂.toNat ≤ 0xff00 := by
    subst hraise
    split
    · exact ⟨Nat.le_refl _, by decide⟩
    · next h => exact ⟨Nat.not_lt.mp h, hmost⟩
  have hmod : (size₂ % sampleSize).toNat = size₂.toNat % 2 := BitVec.toNat_umod
  have hle : size₂ % sampleSize ≤ size₂ := by
    rw [BitVec.le_def, hmod]
    exact Nat.mod_le _ _
  have hlt : 2 * (size₂.toNat / 2) < 2 ^ 32 := by omega
  refine ⟨size₂.toNat / 2, by omega, hlt, BitVec.eq_of_toNat_eq ?_⟩
  rw [BitVec.toNat_sub_of_le hle, hmod, BitVec.toNat_ofNat, Nat.mod_eq_of_lt hlt]
  omega

/-- The size that `a2150_ai_cmd` chooses is one of those. -/
theorem started_sized (h : a2150AiCmd board behind x cmd = some (0, cmd', x')) :
    ∃ size, 0 < size ∧ 2 * size < 2 ^ 32 ∧ sized x' size = x' := by
  obtain ⟨-, -, -, htransfer, hprog⟩ := aiCmd_started h
  obtain ⟨size, hpos, hlt, hwhole⟩ := transferSize_whole cmd'
  refine ⟨size, hpos, hlt, ?_⟩
  unfold sized
  rw [← hwhole]
  nth_rewrite 1 [← htransfer]
  rw [← hprog]

/-- In every run of terminal counts of an accepted command, with transfers of any size, exactly
the samples that are wanted are put, if there is space for them; the acquisition ends with the
last one, or where the FIFO has overflowed; and the 8237 is programmed with what is left, but
not with more than a full transfer. -/
theorem transfers_delivered (htest : a2150AiCmdtest board behind x.p cmd = some (0, cmd', p))
    (hstart : a2150AiCmd board behind { x with p := p } cmd' = some (0, cmd'', x'))
    (hc : counts cmd') (hwanted : cmd'.stopArg.toNat * cmd'.chanlistLen.toNat < 2 ^ 32)
    (hpos : 0 < size) (hsize : 2 * size < 2 ^ 32) (hends : AllEnd cmd'' (sized x' size) ts) :
    Delivered (cmd'.stopArg.toNat * cmd'.chanlistLen.toNat) size (sized x' size) ts
      (run cmd'' (sized x' size) ts) := by
  obtain ⟨rfl, hlen, hstop⟩ := cmdtest_accepts htest
  obtain ⟨hsrc, hcount, hen, -⟩ := aiCmd_started hstart
  have hc' : counts cmd'' := hsrc.trans hc
  have hne : cmd'.stopArg.toNat ≠ 0 := fun hz => hstop hc (BitVec.eq_of_toNat_eq hz)
  have hne' : cmd'.chanlistLen.toNat ≠ 0 := fun hz => hlen (BitVec.eq_of_toNat_eq hz)
  have hleft : 0 < cmd'.stopArg.toNat * cmd'.chanlistLen.toNat :=
    Nat.mul_pos (Nat.pos_of_ne_zero hne) (Nat.pos_of_ne_zero hne')
  refine run_delivered hc' hpos (armed_sized ?_ hleft hen hsize) hends
  rw [hcount, BitVec.toNat_mul, Nat.mod_eq_of_lt hwanted]

def attached : Acq := ⟨{ irq := 3, dma := 1 }, 0, false, fun _ => 0, {}⟩

/-- Three samples of one channel. -/
def threeSamples : Cmd := { scanOf [0] with stopArg := 3 }

def started : Acq :=
  ((a2150AiCmd a2150c (fun _ => some 0) attached threeSamples).map (·.2.2)).getD attached

/-- Transfers of two samples, while the buffer has space for `free`. -/
def twoTransfers (free : Nat) : List Terminal := [⟨0xc0, [1, 2], free⟩, ⟨0xc0, [3], free⟩]

theorem transfers_delivered_three :
    Delivered 3 2 (sized started 2) (twoTransfers 2)
      (run threeSamples (sized started 2) (twoTransfers 2)) :=
  @transfers_delivered threeSamples attached (twoTransfers 2) 2 a2150c (fun _ => some 0)
    threeSamples threeSamples attached.p started (by decide +kernel) rfl rfl
    (by decide) (by decide) (by decide) ⟨⟨rfl, rfl, by decide, by decide⟩,
      ⟨⟨by decide +kernel, by decide +kernel, by decide, by decide⟩, trivial⟩⟩

/-- The command is accepted and every transfer ends, but none of the samples is in the buffer,
which has no space. -/
theorem full_buffer_loses :
    a2150AiCmdtest a2150c (fun _ => some 0) attached.p threeSamples =
        some (0, threeSamples, attached.p) ∧
      AllEnd threeSamples (sized started 2) (twoTransfers 0) ∧
      (run threeSamples (sized started 2) (twoTransfers 0)).sink.out = [] ∧
      (received (twoTransfers 0)).take 3 = [1, 2, 3] := by
  refine ⟨by decide +kernel, ?_, by decide +kernel, rfl⟩
  exact ⟨⟨rfl, rfl, by decide, by decide⟩,
    ⟨⟨by decide +kernel, by decide +kernel, by decide, by decide⟩, trivial⟩⟩

end Comedi.A2150Samples
