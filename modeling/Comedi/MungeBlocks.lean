import Comedi.RingCounters

namespace Comedi.MungeBlocks

open AsyncBuffer RingMarks SerialCounter RingCounters

/-- The state after one turn of the munge loop that takes `b` bytes. -/
def mungeBlock (munge : MungeFn) (numSampleBytes : U32) (a : Async) (b : Nat) : Async :=
  let a' := callMunge a munge a.mungePtr (.ofNat 32 b) a.mungeChan
  { a' with
    mungeChan := (a.mungeChan + .ofNat 32 b / numSampleBytes) % a.cmd.chanlistLen
    mungeCount := a.mungeCount + .ofNat 32 b
    mungePtr := (a.mungePtr + .ofNat 32 b) % a.preallocBufsz }

/-- `n` bytes from offset `p` of a ring of `cap` bytes, split where the ring ends. -/
def blocks (cap p n : Nat) : List Nat :=
  if n = 0 then [] else if p + n ≤ cap then [n] else [cap - p, n - (cap - p)]

theorem blocks_cases (cap p n : Nat) :
    (n = 0 ∧ blocks cap p n = []) ∨
    (0 < n ∧ p + n ≤ cap ∧ blocks cap p n = [n]) ∨
    (cap < p + n ∧ blocks cap p n = [cap - p, n - (cap - p)]) := by
  unfold blocks
  split
  · exact .inl ⟨‹_›, rfl⟩
  · split
    · exact .inr (.inl ⟨by omega, by omega, rfl⟩)
    · exact .inr (.inr ⟨by omega, rfl⟩)

def wholeBytes (s : Subdevice) (n : Nat) : Nat := n - n % (bytesPerSample s).toNat

theorem wholeBytes_le (s : Subdevice) (n : Nat) : wholeBytes s n ≤ n := Nat.sub_le _ _

theorem dvd_wholeBytes (s : Subdevice) (n : Nat) : (bytesPerSample s).toNat ∣ wholeBytes s n :=
  Nat.dvd_sub_mod n

/-- What `comedi_buf_munge` does to the buffer when nothing stands in its way. -/
def advanceMunge (s : Subdevice) (a : Async) (n : Nat) : Async :=
  match s.munge with
  | none => { a with mungeCount := a.mungeCount + .ofNat 32 n }
  | some munge =>
    if a.cmd.flags &&& cmdfRawdata ≠ 0 then { a with mungeCount := a.mungeCount + .ofNat 32 n }
    else (blocks a.preallocBufsz.toNat a.mungePtr.toNat (wholeBytes s n)).foldl
      (mungeBlock munge (bytesPerSample s)) a

/-- A block goes through `s->munge` only when there is one and `CMDF_RAWDATA` is clear. -/
def Munges (s : Subdevice) (a : Async) : Prop :=
  s.munge.isSome ∧ a.cmd.flags &&& cmdfRawdata = 0

/-- How many of `n` bytes become readable: all, or the complete samples of what is munged. -/
def readyBytes (s : Subdevice) (a : Async) (n : Nat) : Nat :=
  match s.munge with
  | none => n
  | some _ => if a.cmd.flags &&& cmdfRawdata ≠ 0 then n else wholeBytes s n

theorem readyBytes_le (s : Subdevice) (a : Async) (n : Nat) : readyBytes s a n ≤ n := by
  unfold readyBytes
  split
  · exact le_rfl
  · split
    · exact le_rfl
    · exact wholeBytes_le s n

theorem readyBytes_of_not_munges {s : Subdevice} {a : Async} (h : ¬ Munges s a) (n : Nat) :
    readyBytes s a n = n := by
  unfold readyBytes
  split
  · rfl
  · next hm => exact if_pos fun hr => h ⟨by simp [hm], hr⟩

theorem readyBytes_of_munges {s : Subdevice} {a : Async} (h : Munges s a) (n : Nat) :
    readyBytes s a n = wholeBytes s n := by
  unfold readyBytes
  split
  · next hm => simp [Munges, hm] at h
  · exact if_neg (not_not.mpr h.2)

/-- The parts of the buffer state that munging moves. -/
theorem advanceMunge_proj {α : Type} (f : Async → α)
    (hf : ∀ a buf chan count ptr calls, f { a with
      preallocBuf := buf, mungeChan := chan, mungeCount := count, mungePtr := ptr,
      mungeCalls := calls } = f a)
    (s : Subdevice) (a : Async) (n : Nat) : f (advanceMunge s a n) = f a := by
  have hfold : ∀ munge (bs : List Nat) (a : Async),
      f (bs.foldl (mungeBlock munge (bytesPerSample s)) a) = f a := by
    intro munge bs
    induction bs with
    | nil => exact fun _ => rfl
    | cons b bs ih => exact fun a => (ih _).trans (hf a _ _ _ _ _)
  unfold advanceMunge
  split
  · exact hf a a.preallocBuf a.mungeChan _ a.mungePtr a.mungeCalls
  · split
    · exact hf a a.preallocBuf a.mungeChan _ a.mungePtr a.mungeCalls
    · exact hfold _ _ a

/-- What a call of `comedi_buf_munge` needs: inside a ring, and a channel list to count by. -/
structure MungeOk (s : Subdevice) (a : Async) : Prop where
  ptr_lt : a.mungePtr < a.preallocBufsz
  bufsz_lt : a.preallocBufsz.toNat < 2 ^ 31
  chanlistLen : Munges s a → a.cmd.chanlistLen ≠ 0

section Loop

variable (munge : MungeFn) (nsb numBytes : U32)

theorem mungeLoop_done (fuel : Nat) (a : Async) :
    mungeLoop munge nsb numBytes (fuel + 1) a numBytes = .ok (numBytes, a) := by
  simp [mungeLoop]

/-- One turn of the loop, with `rest` bytes to go. -/
theorem mungeLoop_turn (fuel : Nat) {a : Async} {count : U32} {rest b : Nat}
    (hrest : numBytes - count = .ofNat 32 rest) (hpos : 0 < rest)
    (hle : count.toNat + rest = numBytes.toNat)
    (hptr : a.mungePtr < a.preallocBufsz) (hcap : a.preallocBufsz.toNat < 2 ^ 31)
    (hfit : rest ≤ a.preallocBufsz.toNat) (hlen : a.cmd.chanlistLen ≠ 0)
    (hb : b = min rest (a.preallocBufsz.toNat - a.mungePtr.toNat)) :
    mungeLoop munge nsb numBytes (fuel + 1) a count =
      mungeLoop munge nsb numBytes fuel (mungeBlock munge nsb a b) (count + .ofNat 32 b) := by
  have hp : a.mungePtr.toNat < a.preallocBufsz.toNat := hptr
  have hz : a.preallocBufsz ≠ 0 := by
    rintro h
    simp [h] at hp
  have hrn : (BitVec.ofNat 32 rest).toNat = rest := toNat_ofNat_of_lt (by omega)
  have hlt : count < numBytes := by rw [BitVec.lt_def]; omega
  have hnn : ¬ (BitVec.ofNat 32 rest).toInt < 0 := by
    rw [BitVec.toInt_eq_toNat_cond, hrn]
    split <;> omega
  have hclip : (if 0 < (a.mungePtr + BitVec.ofNat 32 rest - a.preallocBufsz).toInt
      then a.preallocBufsz - a.mungePtr else BitVec.ofNat 32 rest) = BitVec.ofNat 32 b := by
    have hg := grant_eq_min (w := 32) (x := a.mungePtr.toNat)
      hp.le (by omega) (n := BitVec.ofNat 32 rest) (by omega)
    simpa only [grant, BitVec.ofNat_toNat, BitVec.setWidth_eq, hrn, ← hb] using hg
  rw [mungeLoop, if_pos hlt, hrest, if_neg hnn]
  simp only [hclip, umod, callMunge, if_neg hlen, if_neg hz]
  rfl

end Loop

theorem whole_toNat (s : Subdevice) (n : U32) :
    (n - n % bytesPerSample s).toNat = wholeBytes s n.toNat := by
  have hm : (n % bytesPerSample s).toNat = n.toNat % (bytesPerSample s).toNat := BitVec.toNat_umod
  have hle : n % bytesPerSample s ≤ n := by
    rw [BitVec.le_def, hm]
    exact Nat.mod_le _ _
  rw [BitVec.toNat_sub_of_le hle, hm, wholeBytes]

theorem fold_mungeCount (munge : MungeFn) (nsb : U32) (bs : List Nat) (a : Async) :
    (bs.foldl (mungeBlock munge nsb) a).mungeCount = a.mungeCount + .ofNat 32 bs.sum := by
  induction bs generalizing a with
  | nil => simp
  | cons b bs ih =>
    rw [List.foldl_cons, ih, List.sum_cons, BitVec.ofNat_add, ← add_assoc]
    rfl

theorem blocks_sum {cap p : Nat} (hp : p < cap) (n : Nat) : (blocks cap p n).sum = n := by
  rcases blocks_cases cap p n with ⟨rfl, hb⟩ | ⟨_, _, hb⟩ | ⟨_, hb⟩
  · rw [hb, List.sum_nil]
  · rw [hb, List.sum_singleton]
  · rw [hb]
    simp
    omega

variable {s : Subdevice} {a : Async}

theorem advanceMunge_mungeCount (hok : MungeOk s a) (n : Nat) :
    (advanceMunge s a n).mungeCount = a.mungeCount + .ofNat 32 (readyBytes s a n) := by
  unfold advanceMunge readyBytes
  split
  · rfl
  · split
    · rfl
    · rw [fold_mungeCount, blocks_sum hok.ptr_lt]

/-- The loop takes at most two turns: up to the end of the ring, and from its start. -/
theorem mungeLoop_eq (munge : MungeFn) (nsb numBytes : U32) (hptr : a.mungePtr < a.preallocBufsz)
    (hcap : a.preallocBufsz.toNat < 2 ^ 31) (hlen : a.cmd.chanlistLen ≠ 0)
    (hle : numBytes.toNat ≤ a.preallocBufsz.toNat) :
    mungeLoop munge nsb numBytes (numBytes.toNat + 1) a 0 =
      .ok (numBytes, (blocks a.preallocBufsz.toNat a.mungePtr.toNat numBytes.toNat).foldl
        (mungeBlock munge nsb) a) := by
  have hp : a.mungePtr.toNat < a.preallocBufsz.toNat := hptr
  have hself : ∀ x : U32, BitVec.ofNat 32 x.toNat = x := fun x => by simp
  rcases blocks_cases a.preallocBufsz.toNat a.mungePtr.toNat numBytes.toNat with
    ⟨h0, hb⟩ | ⟨hpos, hfit, hb⟩ | ⟨hwrap, hb⟩
  · have hz : numBytes = 0 := BitVec.eq_of_toNat_eq (by simpa using h0)
    rw [hb, hz]
    exact mungeLoop_done munge nsb 0 0 a
  · obtain ⟨k, hk⟩ : ∃ k, numBytes.toNat = k + 1 := ⟨numBytes.toNat - 1, by omega⟩
    have hrest : numBytes - 0 = .ofNat 32 numBytes.toNat := by simp
    have ht := mungeLoop_turn munge nsb numBytes numBytes.toNat (b := numBytes.toNat) hrest hpos
      (by simp) hptr hcap hle hlen (by omega)
    rw [hself, zero_add] at ht
    rw [hb, ht, hk]
    exact mungeLoop_done munge nsb numBytes _ _
  · generalize hbdef : a.preallocBufsz.toNat - a.mungePtr.toNat = b at hb
    generalize ha' : mungeBlock munge nsb a b = a'
    have hrest₀ : numBytes - 0 = .ofNat 32 numBytes.toNat := by simp
    have ht := mungeLoop_turn munge nsb numBytes numBytes.toNat (b := b) hrest₀
      (by omega) (by simp) hptr hcap hle hlen (by omega)
    rw [zero_add, ha'] at ht
    have hbn : (BitVec.ofNat 32 b).toNat = b := toNat_ofNat_of_lt (by omega)
    have hsz : a'.preallocBufsz = a.preallocBufsz := by rw [← ha']; rfl
    have hlen' : a'.cmd.chanlistLen ≠ 0 := by rw [← ha']; exact hlen
    have hz : a'.mungePtr.toNat = 0 := by
      have he : a.mungePtr + BitVec.ofNat 32 b = a.preallocBufsz := by
        apply BitVec.eq_of_toNat_eq
        rw [BitVec.toNat_add, hbn, Nat.mod_eq_of_lt (by omega)]
        omega
      have hm : a'.mungePtr = (a.mungePtr + BitVec.ofNat 32 b) % a.preallocBufsz := by rw [← ha']; rfl
      rw [hm, he, BitVec.toNat_umod, Nat.mod_self]
    have hrest : numBytes - BitVec.ofNat 32 b = .ofNat 32 (numBytes.toNat - b) := by
      rw [← ofNat_sub_ofNat_of_le (by omega), hself]
    obtain ⟨k, hk⟩ : ∃ k, numBytes.toNat = k + 1 + 1 := ⟨numBytes.toNat - 2, by omega⟩
    have ht' := mungeLoop_turn munge nsb numBytes (k + 1) (a := a') (b := numBytes.toNat - b)
      hrest (by omega) (by omega) (by rw [BitVec.lt_def, hz, hsz]; omega)
      (by rwa [hsz]) (by rw [hsz]; omega) hlen' (by rw [hz, hsz]; omega)
    rw [← hrest, add_sub_cancel] at ht'
    rw [hb, ht, hk, ht', mungeLoop_done, List.foldl_cons, ha', List.foldl_cons, List.foldl_nil, ← hk]

/-- `comedi_buf_munge` returns, without `BUG()`, when it is asked for what is committed. -/
theorem comediBufMunge_eq (hok : MungeOk s a) {n : U32} (hn : n = a.bufWriteCount - a.mungeCount)
    (hle : n.toNat ≤ a.preallocBufsz.toNat) :
    comediBufMunge s a n = .ok (.ofNat 32 (readyBytes s a n.toNat), advanceMunge s a n.toNat) := by
  have hcap := hok.bufsz_lt
  have hbug : ∀ b : Async, ∀ r : U32, b.bufWriteCount = a.bufWriteCount →
      b.mungeCount = a.mungeCount + .ofNat 32 (readyBytes s a n.toNat) →
      bugIfAhead b r = .ok (r, b) := by
    intro b r hw hm
    have hk := readyBytes_le s a n.toNat
    have hkn : (BitVec.ofNat 32 (readyBytes s a n.toNat)).toNat = readyBytes s a n.toNat :=
      toNat_ofNat_of_lt (by omega)
    have he : b.mungeCount - b.bufWriteCount =
        BitVec.ofNat 32 0 + BitVec.ofNat 32 (readyBytes s a n.toNat) - BitVec.ofNat 32 n.toNat := by
      have hz : BitVec.ofNat 32 0 = (0 : U32) := rfl
      rw [hm, hw, BitVec.ofNat_toNat, BitVec.setWidth_eq, hz]
      generalize BitVec.ofNat 32 (readyBytes s a n.toNat) = k
      rw [hn]
      ring
    have hp := passes_iff (w := 32) (Nat.zero_le n.toNat) (by omega)
      (BitVec.ofNat 32 (readyBytes s a n.toNat))
    rw [bugIfAhead, he, if_neg (by rw [hp]; omega)]
  have hmc := advanceMunge_mungeCount hok n.toNat
  have hself : BitVec.ofNat 32 n.toNat = n := by simp
  unfold comediBufMunge
  cases hs : s.munge with
  | none =>
    have hr : readyBytes s a n.toNat = n.toNat := by simp [readyBytes, hs]
    have ha : advanceMunge s a n.toNat = { a with mungeCount := a.mungeCount + n } := by
      simp only [advanceMunge, hs, hself]
    rw [hr, ha, hself]
    exact hbug _ _ rfl (by rw [hr, hself])
  | some munge =>
    by_cases hraw : a.cmd.flags &&& cmdfRawdata ≠ 0
    · have hr : readyBytes s a n.toNat = n.toNat := readyBytes_of_not_munges (hraw ·.2) _
      have ha : advanceMunge s a n.toNat = { a with mungeCount := a.mungeCount + n } := by
        simp only [advanceMunge, hs, hself, if_pos hraw]
      rw [hr, ha, hself]
      simp only [if_pos hraw]
      exact hbug _ _ rfl (by rw [hr, hself])
    · have hmu : Munges s a := ⟨by simp [hs], not_not.mp hraw⟩
      have hr : readyBytes s a n.toNat = wholeBytes s n.toNat := readyBytes_of_munges hmu _
      have hw := whole_toNat s n
      have hwl := wholeBytes_le s n.toNat
      have hl := mungeLoop_eq munge (bytesPerSample s) (n - n % bytesPerSample s) hok.ptr_lt hcap
        (hok.chanlistLen hmu) (by omega)
      have ha : advanceMunge s a n.toNat = (blocks a.preallocBufsz.toNat a.mungePtr.toNat
          (n - n % bytesPerSample s).toNat).foldl (mungeBlock munge (bytesPerSample s)) a := by
        simp only [advanceMunge, hs, if_neg hraw, hw]
      have hc : n - n % bytesPerSample s = .ofNat 32 (readyBytes s a n.toNat) := by
        rw [hr, ← hw, BitVec.ofNat_toNat, BitVec.setWidth_eq]
      simp only [if_neg hraw, hl, ← ha]
      change bugIfAhead (advanceMunge s a n.toNat) (n - n % bytesPerSample s) = _
      rw [hbug (advanceMunge s a n.toNat) _
        (advanceMunge_proj (·.bufWriteCount) (fun _ _ _ _ _ _ => rfl) s a _) hmc, hc]

theorem advanceMunge_ptr_lt (hok : MungeOk s a) (n : Nat) :
    (advanceMunge s a n).mungePtr < a.preallocBufsz := by
  have hpos : 0 < a.preallocBufsz.toNat := by
    have := BitVec.lt_def.mp hok.ptr_lt
    omega
  have hfold : ∀ munge (bs : List Nat) (b : Async), b.preallocBufsz = a.preallocBufsz →
      b.mungePtr < a.preallocBufsz →
      (bs.foldl (mungeBlock munge (bytesPerSample s)) b).mungePtr < a.preallocBufsz := by
    intro munge bs
    induction bs with
    | nil => exact fun _ _ hb => hb
    | cons x bs ih =>
      refine fun b hsz hb => ih _ hsz ?_
      change (b.mungePtr + _) % b.preallocBufsz < _
      rw [hsz, BitVec.lt_def, BitVec.toNat_umod]
      exact Nat.mod_lt _ hpos
  unfold advanceMunge
  split
  · exact hok.ptr_lt
  · split
    · exact hok.ptr_lt
    · exact hfold _ _ a rfl hok.ptr_lt

/-- The buffer after `comedi_buf_write_free` of `n` bytes, of which at most what is
allocated is committed. -/
def writeFreed {cap : Nat} (s : Subdevice) (a : Async) (μ : Marks cap) (n : Nat) : Async :=
  let k := min n (μ.writeAlloc - μ.written)
  let a₁ := { a with
    bufWriteCount := .ofNat 32 (μ.written + k)
    bufWritePtr := a.bufWritePtr + .ofNat 32 k }
  { advanceMunge s a₁ (μ.written + k - μ.ready) with
    bufWritePtr := (a.bufWritePtr + .ofNat 32 k) % a.preallocBufsz }

def writeFreedMarks {cap : Nat} (s : Subdevice) (a : Async) (μ : Marks cap) (n : Nat) : Marks cap :=
  (μ.commit n).mature (readyBytes s a ((μ.commit n).written - μ.ready))

variable {cap : Nat} {μ : Marks cap}

theorem writeFreedMarks_ready (s : Subdevice) (a : Async) (μ : Marks cap) (n : Nat) :
    (writeFreedMarks s a μ n).ready = μ.ready + readyBytes s a ((μ.commit n).written - μ.ready) := by
  have hr := readyBytes_le s a ((μ.commit n).written - μ.ready)
  change μ.ready + min _ ((μ.commit n).written - μ.ready) = _
  rw [Nat.min_eq_left hr]

theorem wrap_writePtr (b : Async) (hz : b.preallocBufsz ≠ 0) (r : U32) :
    (if b.preallocBufsz ≤ b.bufWritePtr then do
      let ptr ← umod b.bufWritePtr b.preallocBufsz
      return (r, { b with bufWritePtr := ptr })
    else
      return (r, b) : Result (U32 × Async)) =
      .ok (r, { b with bufWritePtr := b.bufWritePtr % b.preallocBufsz }) := by
  split
  · rw [umod, if_neg hz]
    rfl
  · next hlt =>
    have he : b.bufWritePtr % b.preallocBufsz = b.bufWritePtr := by
      apply BitVec.eq_of_toNat_eq
      rw [BitVec.toNat_umod]
      exact Nat.mod_eq_of_lt (by simpa [BitVec.le_def] using hlt)
    rw [he]
    rfl

theorem writeFree_spec (hcap : cap < 2 ^ 31) (h : Tracks a μ) (hok : MungeOk s a) {n : U32}
    (hn : n.toNat < 2 ^ 31 + (μ.writeAlloc - μ.written)) :
    comediBufWriteFree s a n =
      .ok (.ofNat 32 (min n.toNat (μ.writeAlloc - μ.written)), writeFreed s a μ n.toNat) := by
  have hc := μ.chain
  have hsz := h.bufsz
  generalize hk : min n.toNat (μ.writeAlloc - μ.written) = k
  have hclip : (if 0 < (a.bufWriteCount + n - a.bufWriteAllocCount).toInt
      then a.bufWriteAllocCount - a.bufWriteCount else n) = BitVec.ofNat 32 k := by
    rw [h.writeCount, h.writeAllocCount, ← hk]
    exact grant_eq_min hc.2.2.2.1 (by omega) (by omega)
  have hwc : a.bufWriteCount + BitVec.ofNat 32 k = .ofNat 32 (μ.written + k) := by
    rw [h.writeCount, BitVec.ofNat_add]
  let a₁ : Async := { a with
    bufWriteCount := .ofNat 32 (μ.written + k)
    bufWritePtr := a.bufWritePtr + .ofNat 32 k }
  have hgap : a₁.bufWriteCount - a₁.mungeCount = .ofNat 32 (μ.written + k - μ.ready) := by
    change BitVec.ofNat 32 (μ.written + k) - a.mungeCount = _
    rw [h.mungeCount, ofNat_sub_ofNat_of_le (by omega)]
  have hgn : (a₁.bufWriteCount - a₁.mungeCount).toNat = μ.written + k - μ.ready := by
    rw [hgap, toNat_ofNat_of_lt (by omega)]
  have hm := comediBufMunge_eq (s := s) (a := a₁) ⟨hok.ptr_lt, hok.bufsz_lt, hok.chanlistLen⟩ rfl
    (by rw [hgn]; change _ ≤ a.preallocBufsz.toNat; omega)
  have hptr : (advanceMunge s a₁ (μ.written + k - μ.ready)).bufWritePtr = a₁.bufWritePtr :=
    advanceMunge_proj (·.bufWritePtr) (fun _ _ _ _ _ _ => rfl) s a₁ _
  have hbs : (advanceMunge s a₁ (μ.written + k - μ.ready)).preallocBufsz = a.preallocBufsz :=
    advanceMunge_proj (·.preallocBufsz) (fun _ _ _ _ _ _ => rfl) s a₁ _
  have hz : a.preallocBufsz ≠ 0 := by
    have := hok.ptr_lt
    rintro hz
    rw [hz, BitVec.lt_def] at this
    exact Nat.not_lt_zero _ this
  rw [hgn] at hm
  simp only [comediBufWriteFree, hclip, hwc]
  change (comediBufMunge s a₁ (a₁.bufWriteCount - a₁.mungeCount) >>= fun p =>
    if p.2.preallocBufsz ≤ p.2.bufWritePtr then
      umod p.2.bufWritePtr p.2.preallocBufsz >>= fun ptr =>
        .ok (BitVec.ofNat 32 k, { p.2 with bufWritePtr := ptr })
    else .ok (BitVec.ofNat 32 k, p.2)) = _
  rw [hm]
  refine (wrap_writePtr (advanceMunge s a₁ _) (by rwa [hbs]) _).trans ?_
  simp only [writeFreed, hk]
  rw [hptr, hbs]

theorem tracks_writeFreed (h : Tracks a μ) (hok : MungeOk s a) (n : Nat) :
    Tracks (writeFreed s a μ n) (writeFreedMarks s a μ n) := by
  let a₁ : Async := { a with
    bufWriteCount := .ofNat 32 (μ.written + min n (μ.writeAlloc - μ.written))
    bufWritePtr := a.bufWritePtr + .ofNat 32 (min n (μ.writeAlloc - μ.written)) }
  have hok₁ : MungeOk s a₁ := ⟨hok.ptr_lt, hok.bufsz_lt, hok.chanlistLen⟩
  constructor
  · exact (advanceMunge_proj (·.preallocBufsz) (fun _ _ _ _ _ _ => rfl) s a₁ _) ▸ h.bufsz
  · exact (advanceMunge_proj (·.bufReadCount) (fun _ _ _ _ _ _ => rfl) s a₁ _).trans h.readCount
  · exact (advanceMunge_proj (·.bufReadAllocCount) (fun _ _ _ _ _ _ => rfl) s a₁ _).trans
      h.readAllocCount
  · rw [writeFreedMarks_ready, BitVec.ofNat_add, ← h.mungeCount]
    exact advanceMunge_mungeCount hok₁ _
  · exact advanceMunge_proj (·.bufWriteCount) (fun _ _ _ _ _ _ => rfl) s a₁ _
  · exact (advanceMunge_proj (·.bufWriteAllocCount) (fun _ _ _ _ _ _ => rfl) s a₁ _).trans
      h.writeAllocCount

theorem MungeOk.writeFreed (hok : MungeOk s a) (μ : Marks cap) (n : Nat) :
    MungeOk s (writeFreed s a μ n) := by
  let a₁ : Async := { a with
    bufWriteCount := .ofNat 32 (μ.written + min n (μ.writeAlloc - μ.written))
    bufWritePtr := a.bufWritePtr + .ofNat 32 (min n (μ.writeAlloc - μ.written)) }
  have hok₁ : MungeOk s a₁ := ⟨hok.ptr_lt, hok.bufsz_lt, hok.chanlistLen⟩
  have hbs := advanceMunge_proj (·.preallocBufsz) (fun _ _ _ _ _ _ => rfl) s a₁
    (μ.written + min n (μ.writeAlloc - μ.written) - μ.ready)
  have hcmd := advanceMunge_proj (·.cmd) (fun _ _ _ _ _ _ => rfl) s a₁
    (μ.written + min n (μ.writeAlloc - μ.written) - μ.ready)
  constructor
  · change (advanceMunge s a₁ _).mungePtr < (advanceMunge s a₁ _).preallocBufsz
    rw [hbs]
    exact advanceMunge_ptr_lt hok₁ _
  · change (advanceMunge s a₁ _).preallocBufsz.toNat < _
    rw [hbs]
    exact hok.bufsz_lt
  · intro hmu
    change _ ∧ (advanceMunge s a₁ _).cmd.flags &&& _ = 0 at hmu
    change (advanceMunge s a₁ _).cmd.chanlistLen ≠ 0
    rw [hcmd] at hmu ⊢
    exact hok.chanlistLen hmu

end Comedi.MungeBlocks
