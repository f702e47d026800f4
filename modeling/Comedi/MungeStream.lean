import Comedi.MungeBlocks

namespace Comedi.MungeStream

open AsyncBuffer RingMarks SerialCounter RingCounters MungeBlocks

/-- The calls of `s->munge` that take a stream in a ring of `cap` bytes from position `p` to
position `q`: blocks of whole samples, one after the other, none across the end of the ring,
each with the channel of its first sample. -/
def Covers (cap size len : Nat) : Nat → List MungeCall → Nat → Prop
  | p, [], q => p = q
  | p, c :: cs, q =>
    0 < c.numBytes.toNat ∧ size ∣ c.numBytes.toNat ∧
    c.ptr.toNat = p % cap ∧ c.ptr.toNat + c.numBytes.toNat ≤ cap ∧
    c.startChanIndex.toNat = p / size % len ∧
    Covers cap size len (p + c.numBytes.toNat) cs q

theorem Covers.append {cap size len p q r : Nat} {cs ds : List MungeCall}
    (h : Covers cap size len p cs q) (h' : Covers cap size len q ds r) :
    Covers cap size len p (cs ++ ds) r := by
  induction cs generalizing p with
  | nil =>
    cases h
    exact h'
  | cons c cs ih =>
    obtain ⟨h₁, h₂, h₃, h₄, h₅, hcs⟩ := h
    exact ⟨h₁, h₂, h₃, h₄, h₅, ih hcs⟩

/-- Blocks of whole samples from position `r` on that stay inside the ring. -/
def Chunks (cap size : Nat) : Nat → List Nat → Prop
  | _, [] => True
  | r, b :: bs => 0 < b ∧ size ∣ b ∧ r % cap + b ≤ cap ∧ Chunks cap size (r + b) bs

theorem chunks_blocks {cap size r n : Nat} (hcap : 0 < cap) (hsc : size ∣ cap) (hr : size ∣ r)
    (hn : size ∣ n) (hle : n ≤ cap) : Chunks cap size r (blocks cap (r % cap) n) := by
  have hp : r % cap < cap := Nat.mod_lt _ hcap
  have hd : size ∣ cap - r % cap := Nat.dvd_sub hsc ((Nat.dvd_mod_iff hsc).mpr hr)
  rcases blocks_cases cap (r % cap) n with ⟨-, hb⟩ | ⟨hpos, hfit, hb⟩ | ⟨hwrap, hb⟩
  · rw [hb]
    trivial
  · rw [hb]
    exact ⟨hpos, hn, hfit, trivial⟩
  · have hend : (r + (cap - r % cap)) % cap = 0 := by
      have hm : r + (cap - r % cap) = cap * (r / cap) + cap := by
        have := Nat.div_add_mod r cap
        omega
      rw [hm, Nat.add_mod_right, Nat.mul_mod_right]
    rw [hb]
    exact ⟨by omega, hd, by omega, by omega, Nat.dvd_sub hn hd, by omega, trivial⟩

variable {s : Subdevice} {a : Async}

/-- How far munging has got: `r` bytes are munged, and the next block starts there. -/
structure MungedTo (s : Subdevice) (a : Async) (r : Nat) : Prop where
  ptr : a.mungePtr.toNat = r % a.preallocBufsz.toNat
  chan : a.mungeChan.toNat = r / (bytesPerSample s).toNat % a.cmd.chanlistLen.toNat
  aligned : (bytesPerSample s).toNat ∣ r
  covers : Covers a.preallocBufsz.toNat (bytesPerSample s).toNat a.cmd.chanlistLen.toNat
    0 a.mungeCalls r

theorem bytesPerSample_toNat (s : Subdevice) :
    (bytesPerSample s).toNat = 4 ∨ (bytesPerSample s).toNat = 2 := by
  rcases bytesPerSample_cases s with h | h
  · exact .inl (by rw [h]; rfl)
  · exact .inr (by rw [h]; rfl)

theorem bytesPerSample_pos (s : Subdevice) : 0 < (bytesPerSample s).toNat := by
  rcases bytesPerSample_toNat s with h | h
  · omega
  · omega

/-- What the size of the buffer and the channel list of the command satisfy. -/
structure Sized (s : Subdevice) (a : Async) : Prop where
  pos : 0 < a.preallocBufsz.toNat
  lt : a.preallocBufsz.toNat < 2 ^ 31
  aligned : (bytesPerSample s).toNat ∣ a.preallocBufsz.toNat
  chanlist : Munges s a → 0 < a.cmd.chanlistLen.toNat ∧ a.cmd.chanlistLen.toNat ≤ s.lenChanlist

theorem Sized.congr {a' : Async} (h : Sized s a) (hsz : a'.preallocBufsz = a.preallocBufsz)
    (hcmd : a'.cmd = a.cmd) : Sized s a' := by
  constructor
  · exact hsz ▸ h.pos
  · exact hsz ▸ h.lt
  · exact hsz ▸ h.aligned
  · intro hmu
    rw [Munges, hcmd] at hmu
    rw [hcmd]
    exact h.chanlist hmu

theorem Sized.mungeOk (h : Sized s a) (hptr : a.mungePtr < a.preallocBufsz) : MungeOk s a where
  ptr_lt := hptr
  bufsz_lt := h.lt
  chanlistLen hmu hl := by
    have := (h.chanlist hmu).1
    rw [hl] at this
    exact absurd this (by decide)

section Block

variable (munge : MungeFn) {r b : Nat}

theorem mungeBlock_munged (hz : Sized s a) (hmu : Munges s a) (h : MungedTo s a r)
    (hpos : 0 < b) (hb : (bytesPerSample s).toNat ∣ b)
    (hfit : r % a.preallocBufsz.toNat + b ≤ a.preallocBufsz.toNat) :
    MungedTo s (mungeBlock munge (bytesPerSample s) a b) (r + b) := by
  have hlt := hz.lt
  obtain ⟨hlp, hle⟩ := hz.chanlist hmu
  have hlc := s.lenChanlist.isLt
  have hbn : (BitVec.ofNat 32 b).toNat = b := toNat_ofNat_of_lt (by omega)
  have hq : b / (bytesPerSample s).toNat ≤ b := Nat.div_le_self _ _
  have hm : a.mungeChan.toNat < a.cmd.chanlistLen.toNat := by
    rw [h.chan]
    exact Nat.mod_lt _ hlp
  have hptr : a.mungePtr.toNat + b < 2 ^ 32 := by
    rw [h.ptr]
    omega
  have hchan : a.mungeChan.toNat + b / (bytesPerSample s).toNat < 2 ^ 32 := by omega
  constructor
  · change ((a.mungePtr + BitVec.ofNat 32 b) % a.preallocBufsz).toNat = _
    rw [BitVec.toNat_umod, BitVec.toNat_add, hbn, Nat.mod_eq_of_lt hptr, h.ptr, Nat.mod_add_mod]
    rfl
  · change ((a.mungeChan + BitVec.ofNat 32 b / bytesPerSample s) % a.cmd.chanlistLen).toNat = _
    rw [BitVec.toNat_umod, BitVec.toNat_add, BitVec.toNat_udiv, hbn, Nat.mod_eq_of_lt hchan, h.chan,
      Nat.mod_add_mod, ← Nat.add_div_of_dvd_right h.aligned]
    rfl
  · exact (Nat.dvd_add_right h.aligned).mpr hb
  · change Covers _ _ _ 0 (a.mungeCalls ++ [⟨a.mungePtr, .ofNat 32 b, a.mungeChan⟩]) (r + b)
    refine h.covers.append ⟨?_, ?_, h.ptr, ?_, h.chan, ?_⟩
    · rwa [hbn]
    · rwa [hbn]
    · rw [h.ptr, hbn]
      exact hfit
    · rw [hbn]
      rfl

theorem fold_munged (bs : List Nat) (hz : Sized s a) (hmu : Munges s a) (h : MungedTo s a r)
    (hbs : Chunks a.preallocBufsz.toNat (bytesPerSample s).toNat r bs) :
    MungedTo s (bs.foldl (mungeBlock munge (bytesPerSample s)) a) (r + bs.sum) := by
  induction bs generalizing a r with
  | nil => exact h
  | cons b bs ih =>
    obtain ⟨hpos, hb, hfit, hbs⟩ := hbs
    rw [List.foldl_cons, List.sum_cons, ← Nat.add_assoc]
    exact ih (hz.congr rfl rfl) hmu (mungeBlock_munged munge hz hmu h hpos hb hfit) hbs

end Block

theorem exists_munge (h : Munges s a) : ∃ munge, s.munge = some munge :=
  Option.isSome_iff_exists.mp h.1

theorem advanceMunge_of_munges {munge : MungeFn} (hs : s.munge = some munge) (h : Munges s a)
    (n : Nat) :
    advanceMunge s a n = (blocks a.preallocBufsz.toNat a.mungePtr.toNat (wholeBytes s n)).foldl
      (mungeBlock munge (bytesPerSample s)) a := by
  simp only [advanceMunge, hs, h.2, ne_eq, not_true, if_false]

theorem advanceMunge_munged (hz : Sized s a) (hmu : Munges s a) {r : Nat} (h : MungedTo s a r)
    {n : Nat} (hn : n ≤ a.preallocBufsz.toNat) :
    MungedTo s (advanceMunge s a n) (r + wholeBytes s n) := by
  obtain ⟨munge, hs⟩ := exists_munge hmu
  have hp : a.mungePtr.toNat < a.preallocBufsz.toNat := by
    rw [h.ptr]
    exact Nat.mod_lt _ hz.pos
  have hc := chunks_blocks hz.pos hz.aligned h.aligned (dvd_wholeBytes s n)
    ((wholeBytes_le s n).trans hn)
  rw [← h.ptr] at hc
  have hf := fold_munged munge _ hz hmu h hc
  rw [blocks_sum hp] at hf
  rwa [advanceMunge_of_munges hs hmu]

end Comedi.MungeStream
