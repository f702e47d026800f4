import Comedi.StreamFifo

namespace Comedi.StreamContents

open AsyncBuffer RingMarks SerialCounter RingCounters MungeBlocks MungeStream RingCopies SampleStream
  StreamFifo

/-- What munging makes of a stream, for a driver that does `f c` to a sample of the channel
with index `c`. -/
def munged (f : Nat → List Byte → List Byte) (s : Subdevice) (cmd : Cmd) (xs : List Byte) :
    List Byte :=
  match s.munge with
  | none => xs
  | some _ =>
    if cmd.flags &&& cmdfRawdata ≠ 0 then xs
    else mapFrom (fun k => f (k % cmd.chanlistLen.toNat)) (bytesPerSample s).toNat 0 xs

/-- `s->munge` treats a block sample by sample, each according to its channel. -/
structure Samplewise (f : Nat → List Byte → List Byte) (s : Subdevice) (cmd : Cmd) : Prop where
  length : ∀ c x, x.length = (bytesPerSample s).toNat → (f c x).length = (bytesPerSample s).toNat
  munge : ∀ munge, s.munge = some munge → ∀ block (chan : U32),
    (bytesPerSample s).toNat ∣ block.length → chan.toNat < cmd.chanlistLen.toNat →
    munge block chan =
      mapFrom (fun k => f (k % cmd.chanlistLen.toNat)) (bytesPerSample s).toNat chan.toNat block

variable {f : Nat → List Byte → List Byte} {s : Subdevice} {a : Async}

theorem munged_of_not_munges (h : ¬ Munges s a) (xs : List Byte) : munged f s a.cmd xs = xs := by
  unfold munged
  split
  · rfl
  · next hm => exact if_pos fun hr => h ⟨by simp [hm], hr⟩

theorem munged_of_munges (h : Munges s a) (xs : List Byte) :
    munged f s a.cmd xs =
      mapFrom (fun k => f (k % a.cmd.chanlistLen.toNat)) (bytesPerSample s).toNat 0 xs := by
  unfold munged
  split
  · next hm => simp [Munges, hm] at h
  · exact if_neg (not_not.mpr h.2)

theorem munged_length (hf : Samplewise f s a.cmd) (xs : List Byte) :
    (munged f s a.cmd xs).length = readyBytes s a xs.length := by
  by_cases hmu : Munges s a
  · rw [munged_of_munges hmu, readyBytes_of_munges hmu, mapFrom_length fun k => hf.length _,
      wholeBytes, Nat.mul_comm]
    have := Nat.div_add_mod xs.length (bytesPerSample s).toNat
    omega
  · rw [munged_of_not_munges hmu, readyBytes_of_not_munges hmu]

theorem munged_prefix (s : Subdevice) (a : Async) {xs ys : List Byte} (h : xs <+: ys) :
    munged f s a.cmd xs <+: munged f s a.cmd ys := by
  by_cases hmu : Munges s a
  · have hw : xs.take (xs.length - xs.length % (bytesPerSample s).toNat) =
        ys.take (xs.length - xs.length % (bytesPerSample s).toNat) := by
      obtain ⟨zs, rfl⟩ := h
      rw [List.take_append_of_le_length (Nat.sub_le _ _)]
    rw [munged_of_munges hmu, munged_of_munges hmu, ← mapFrom_take_whole (bytesPerSample_pos s), hw]
    exact mapFrom_take_prefix (bytesPerSample_pos s) _ _ _ (Nat.dvd_sub_mod _)
  · rwa [munged_of_not_munges hmu, munged_of_not_munges hmu]

section Munging

variable {munge : MungeFn} {cap : Nat} {μ : Marks cap} {b r : Nat} {raw : List Byte}

/-- The memory after one block. -/
theorem mungeBlock_buf (hsz : a.preallocBufsz.toNat = cap) (hcap : 0 < cap) (hlt : cap < 2 ^ 31)
    (hptr : a.mungePtr.toNat = r % cap) (hfit : r % cap + b ≤ cap) :
    (mungeBlock munge (bytesPerSample s) a b).preallocBuf =
      put a.preallocBuf cap r
        ((munge (window a.preallocBuf cap r b) a.mungeChan).take b) := by
  have hbn : (BitVec.ofNat 32 b).toNat = b := toNat_ofNat_of_lt (by omega)
  change blit a.preallocBuf a.mungePtr.toNat
    ((munge (readBlock a.preallocBuf a.mungePtr.toNat (BitVec.ofNat 32 b).toNat)
      a.mungeChan).take (BitVec.ofNat 32 b).toNat) = _
  rw [hbn, hptr, readBlock_eq_window hfit, blit_eq_put _ _ hcap]
  rw [List.length_take]
  omega

/-- Munging does not touch what lies behind the bytes it takes. -/
theorem fold_keeps (bs : List Nat) (hsz : a.preallocBufsz.toNat = cap) (hlt : cap < 2 ^ 31)
    (hz : Sized s a) (hmu : Munges s a) (hm : MungedTo s a r)
    (hbs : Chunks cap (bytesPerSample s).toNat r bs) {p : Nat} (hlo : r + bs.sum ≤ p)
    (hhi : p < r + cap) :
    (bs.foldl (mungeBlock munge (bytesPerSample s)) a).preallocBuf (p % cap) =
      a.preallocBuf (p % cap) := by
  induction bs generalizing a r with
  | nil => rfl
  | cons b bs ih =>
    obtain ⟨hpos, hb, hfit, hbs⟩ := hbs
    rw [List.sum_cons] at hlo
    have hm' := mungeBlock_munged munge hz hmu hm hpos hb (by rwa [hsz])
    rw [List.foldl_cons, ih (a := mungeBlock munge (bytesPerSample s) a b) hsz
        (hz.congr rfl rfl) hmu hm' hbs (by omega) (by omega),
      mungeBlock_buf hsz (hsz ▸ hz.pos) hlt (by rw [hm.ptr, hsz]) hfit, put_ahead _ _ (by omega)]
    rw [List.length_take]
    omega

theorem block_carries (hs : s.munge = some munge) (hf : Samplewise f s a.cmd)
    (hsz : a.preallocBufsz.toNat = cap) (hz : Sized s a) (hmu : Munges s a)
    (hm : MungedTo s a μ.ready) (hb : (bytesPerSample s).toNat ∣ b) (hfit : μ.ready % cap + b ≤ cap)
    (hle : b ≤ μ.written - μ.ready)
    (h : Carries a.preallocBuf μ raw (munged f s a.cmd (raw.take μ.ready))) :
    Carries (mungeBlock munge (bytesPerSample s) a b).preallocBuf (μ.mature b) raw
      (munged f s a.cmd (raw.take (μ.ready + b))) := by
  have hc := μ.chain
  have hrl := h.raw_length
  have hwin : window a.preallocBuf cap μ.ready b = (raw.drop μ.ready).take b :=
    h.window_raw le_rfl (by omega)
  have hlen : ((raw.drop μ.ready).take b).length = b := by
    rw [List.length_take, List.length_drop]
    omega
  have hchan : a.mungeChan.toNat < a.cmd.chanlistLen.toNat := by
    rw [hm.chan]
    exact Nat.mod_lt _ (hz.chanlist hmu).1
  let out := munge ((raw.drop μ.ready).take b) a.mungeChan
  have hout : out = mapFrom (fun k => f (k % a.cmd.chanlistLen.toNat)) (bytesPerSample s).toNat
      (μ.ready / (bytesPerSample s).toNat) ((raw.drop μ.ready).take b) := by
    change munge _ _ = _
    rw [hf.munge munge hs _ _ (by rwa [hlen]) hchan, hm.chan,
      mapFrom_mod f a.cmd.chanlistLen.toNat (μ.ready / (bytesPerSample s).toNat)]
  have houtlen : out.length = b := by
    rw [hout, mapFrom_length fun k => hf.length _, hlen, Nat.div_mul_cancel hb]
  have hbuf : (mungeBlock munge (bytesPerSample s) a b).preallocBuf =
      put a.preallocBuf cap μ.ready out := by
    rw [mungeBlock_buf hsz (hsz ▸ hz.pos) (hsz ▸ hz.lt) (by rw [hm.ptr, hsz]) hfit, hwin,
      List.take_of_length_le (by change out.length ≤ b; omega)]
  have hdone : munged f s a.cmd (raw.take (μ.ready + b)) =
      munged f s a.cmd (raw.take μ.ready) ++ out := by
    have htl : (raw.take μ.ready).length = μ.ready := by
      rw [List.length_take]
      omega
    rw [munged_of_munges hmu, munged_of_munges hmu, List.take_add,
      mapFrom_append (bytesPerSample_pos s) 0 (by rw [htl]; exact hm.aligned), htl, Nat.zero_add,
      ← hout]
  have hroom : out.length ≤ μ.written - μ.ready := by omega
  have hmat := h.mature hroom
  rw [houtlen] at hmat
  rw [hbuf, hdone]
  exact hmat

theorem fold_carries (bs : List Nat) (hs : s.munge = some munge) (hf : Samplewise f s a.cmd)
    (hsz : a.preallocBufsz.toNat = cap) (hz : Sized s a) (hmu : Munges s a)
    (hm : MungedTo s a μ.ready) (hbs : Chunks cap (bytesPerSample s).toNat μ.ready bs)
    (hle : bs.sum ≤ μ.written - μ.ready)
    (h : Carries a.preallocBuf μ raw (munged f s a.cmd (raw.take μ.ready))) :
    Carries (bs.foldl (mungeBlock munge (bytesPerSample s)) a).preallocBuf (μ.mature bs.sum) raw
      (munged f s a.cmd (raw.take (μ.ready + bs.sum))) := by
  induction bs generalizing a μ with
  | nil =>
    exact ⟨h.raw_length, h.done_length, h.done_at, h.raw_at⟩
  | cons b bs ih =>
    obtain ⟨hpos, hb, hfit, hbs⟩ := hbs
    rw [List.sum_cons] at hle ⊢
    have hr : (μ.mature b).ready = μ.ready + b := by
      simp only [Marks.mature]
      omega
    have hm' := mungeBlock_munged munge hz hmu hm hpos hb (by rwa [hsz])
    have h' := block_carries hs hf hsz hz hmu hm hb hfit (by omega) h
    rw [← hr] at hm' hbs h'
    have hih := ih (a := mungeBlock munge (bytesPerSample s) a b) (μ := μ.mature b) hf hsz
      (hz.congr rfl rfl) hmu hm' hbs (by rw [hr]; simp only [Marks.mature]; omega) h'
    rw [Marks.mature_mature, hr, Nat.add_assoc] at hih
    rw [List.foldl_cons]
    exact hih

end Munging

/-- Only what is ready makes a difference to what is munged. -/
theorem munged_take (s : Subdevice) (a : Async) (xs : List Byte) :
    munged f s a.cmd (xs.take (readyBytes s a xs.length)) = munged f s a.cmd xs := by
  by_cases hmu : Munges s a
  · rw [munged_of_munges hmu, munged_of_munges hmu, readyBytes_of_munges hmu]
    exact mapFrom_take_whole (bytesPerSample_pos s) 0 xs
  · rw [readyBytes_of_not_munges hmu, List.take_length]

theorem advanceMunge_buf_of_not_munges (h : ¬ Munges s a) (n : Nat) :
    (advanceMunge s a n).preallocBuf = a.preallocBuf := by
  unfold advanceMunge
  split
  · rfl
  · next hm => rw [if_pos fun hr => h ⟨by simp [hm], hr⟩]

section WriteFree

variable {cap : Nat} {μ : Marks cap} {raw : List Byte}

/-- The state in which `comedi_buf_write_free` calls `comedi_buf_munge`. -/
def committing (a : Async) (μ : Marks cap) (n : Nat) : Async :=
  { a with
    bufWriteCount := .ofNat 32 (μ.written + min n (μ.writeAlloc - μ.written))
    bufWritePtr := a.bufWritePtr + .ofNat 32 (min n (μ.writeAlloc - μ.written)) }

theorem writeFreed_buf (s : Subdevice) (a : Async) (μ : Marks cap) (n : Nat) :
    (writeFreed s a μ n).preallocBuf =
      (advanceMunge s (committing a μ n) ((μ.commit n).written - μ.ready)).preallocBuf := rfl

/-- The blocks of one call of `comedi_buf_munge`. -/
theorem chunks_committing (h : Placed s a μ) (hmu : Munges s a) (n : Nat) :
    Chunks cap (bytesPerSample s).toNat μ.ready
      (blocks cap a.mungePtr.toNat (wholeBytes s ((μ.commit n).written - μ.ready))) := by
  have hc := (μ.commit n).chain
  have hr : (μ.commit n).read = μ.read := rfl
  have hm := h.munged hmu
  have hsz := h.tracks.bufsz
  have hw := wholeBytes_le s ((μ.commit n).written - μ.ready)
  rw [hm.ptr, hsz]
  have hrr : (μ.commit n).ready = μ.ready := rfl
  exact chunks_blocks h.cap_pos (hsz ▸ h.sized.aligned) hm.aligned (dvd_wholeBytes s _) (by omega)

theorem writeFreed_keeps (h : Placed s a μ) (n : Nat) {p : Nat} (hlo : (μ.commit n).written ≤ p)
    (hhi : p < μ.ready + cap) :
    (writeFreed s a μ n).preallocBuf (p % cap) = a.preallocBuf (p % cap) := by
  have hc := (μ.commit n).chain
  have hr : (μ.commit n).ready = μ.ready := rfl
  rw [writeFreed_buf]
  by_cases hmu : Munges s a
  · obtain ⟨munge, hs⟩ := exists_munge hmu
    have hm := h.munged hmu
    have hsz := h.tracks.bufsz
    have hp : a.mungePtr.toNat < cap := hsz ▸ h.mungePtr_lt
    have hw := wholeBytes_le s ((μ.commit n).written - μ.ready)
    rw [advanceMunge_of_munges (a := committing a μ n) hs hmu]
    refine fold_keeps (a := committing a μ n) _ hsz h.cap_lt (h.sized.congr rfl rfl) hmu
      ⟨hm.ptr, hm.chan, hm.aligned, hm.covers⟩ ?_ ?_ hhi
    · change Chunks _ _ _ (blocks a.preallocBufsz.toNat a.mungePtr.toNat _)
      rw [hsz]
      exact chunks_committing h hmu n
    · change μ.ready + (blocks a.preallocBufsz.toNat a.mungePtr.toNat _).sum ≤ p
      rw [hsz, blocks_sum hp]
      omega
  · rw [advanceMunge_buf_of_not_munges (a := committing a μ n) hmu]
    rfl

/-- What `comedi_buf_write_free` makes of the contents. -/
theorem writeFreed_carries (hf : Samplewise f s a.cmd) (h : Placed s a μ)
    (hc : Carries a.preallocBuf μ raw (munged f s a.cmd raw)) (n : Nat) :
    Carries (writeFreed s a μ n).preallocBuf (writeFreedMarks s a μ n)
      (raw ++ window a.preallocBuf cap μ.written (min n (μ.writeAlloc - μ.written)))
      (munged f s a.cmd
        (raw ++ window a.preallocBuf cap μ.written (min n (μ.writeAlloc - μ.written)))) := by
  have hch := (μ.commit n).chain
  have hrl := hc.raw_length
  have hcommit := hc.commit n
  generalize hraw : raw ++ window a.preallocBuf cap μ.written (min n (μ.writeAlloc - μ.written)) =
    raw' at *
  have hlen : raw'.length = (μ.commit n).written := hcommit.raw_length
  have hr : (μ.commit n).ready = μ.ready := rfl
  have hrw := μ.ready_le
  have hold : raw'.take μ.ready = raw.take μ.ready := by
    rw [← hraw, List.take_append_of_le_length (by omega)]
  have hready : μ.ready + readyBytes s a ((μ.commit n).written - μ.ready) =
      readyBytes s a raw'.length := by
    have hle : readyBytes s a μ.written ≤ (μ.commit n).written := by rw [← h.ready]; omega
    rw [h.ready, hlen]
    exact readyBytes_sub hle
  have hnow : munged f s a.cmd raw = munged f s a.cmd (raw'.take μ.ready) := by
    rw [hold, h.ready, ← hrl, munged_take]
  have hthen : munged f s a.cmd raw' = munged f s a.cmd
      (raw'.take (μ.ready + readyBytes s a ((μ.commit n).written - μ.ready))) := by
    rw [hready, munged_take]
  rw [hnow] at hcommit
  rw [hthen, writeFreed_buf, writeFreedMarks]
  by_cases hmu : Munges s a
  · obtain ⟨munge, hs⟩ := exists_munge hmu
    have hm := h.munged hmu
    have hsz := h.tracks.bufsz
    have hp : a.mungePtr.toNat < cap := hsz ▸ h.mungePtr_lt
    have hw := wholeBytes_le s ((μ.commit n).written - μ.ready)
    have hsum : (blocks cap a.mungePtr.toNat
        (wholeBytes s ((μ.commit n).written - μ.ready))).sum = _ := blocks_sum hp _
    have hfold := fold_carries (a := committing a μ n) (μ := μ.commit n)
      (blocks cap a.mungePtr.toNat (wholeBytes s ((μ.commit n).written - μ.ready)))
      hs hf hsz (h.sized.congr rfl rfl) hmu ⟨hm.ptr, hm.chan, hm.aligned, hm.covers⟩
      (chunks_committing h hmu n) (by rw [hsum, hr]; exact hw) hcommit
    rw [hsum] at hfold
    rw [readyBytes_of_munges hmu, advanceMunge_of_munges (a := committing a μ n) hs hmu]
    have hsz' : (committing a μ n).preallocBufsz.toNat = cap := hsz
    rw [hsz']
    exact hfold
  · rw [advanceMunge_buf_of_not_munges (a := committing a μ n) hmu, munged_of_not_munges hmu]
    rw [munged_of_not_munges hmu] at hcommit
    have hpass := hcommit.pass (readyBytes s a ((μ.commit n).written - μ.ready))
    have hrr : ((μ.commit n).mature (readyBytes s a ((μ.commit n).written - μ.ready))).ready =
        μ.ready + readyBytes s a ((μ.commit n).written - μ.ready) := writeFreedMarks_ready s a μ n
    rw [hrr] at hpass
    exact hpass

end WriteFree

variable {cap : Nat} {st : Fifo} {μ : Marks cap}

/-- What the consumer has taken out or copied is what munging makes of the committed bytes. -/
structure Flows (f : Nat → List Byte → List Byte) (s : Subdevice) (st : Fifo) (μ : Marks cap) :
    Prop where
  laid : Laid s st μ
  samplewise : Samplewise f s st.async.cmd
  carries : Carries st.async.preallocBuf μ st.committed (munged f s st.async.cmd st.committed)
  draft : st.draft = window st.async.preallocBuf cap μ.written (μ.writeAlloc - μ.written)
  taken : st.taken = (munged f s st.async.cmd st.committed).take μ.read
  fetched : ∀ e ∈ st.fetched, e.1 + e.2.length ≤ μ.ready ∧
    e.2 = ((munged f s st.async.cmd st.committed).drop e.1).take e.2.length

theorem Flows.start (hz : Sized s a) (hf : Samplewise f s a.cmd) :
    Flows f s (Fifo.start a) (Marks.start a.preallocBufsz.toNat) where
  laid := .start hz
  samplewise := hf
  carries := by
    have h : Carries (Fifo.start a).async.preallocBuf (Marks.start a.preallocBufsz.toNat) [] [] :=
      .start _
    have hnil : munged f s a.cmd [] = [] := by
      apply List.eq_nil_of_length_eq_zero
      rw [munged_length hf]
      exact readyBytes_zero s a
    change Carries _ _ [] (munged f s a.cmd [])
    rwa [hnil]
  draft := rfl
  taken := rfl
  fetched e he := absurd he List.not_mem_nil

/-- What is in a prefix stays where it is. -/
theorem slice_of_isPrefix {xs ys : List Byte} (h : xs <+: ys) {m n : Nat} (hn : m + n ≤ xs.length) :
    (ys.drop m).take n = (xs.drop m).take n := by
  obtain ⟨zs, rfl⟩ := h
  rw [List.drop_append_of_le_length (by omega), List.take_append_of_le_length]
  rw [List.length_drop]
  omega

theorem Flows.moves {st' : Fifo} {μ' : Marks cap} (h : Flows f s st μ) (hm : Moves s st μ st' μ') :
    Flows f s st' μ' := by
  have hc := μ.chain
  have hlaid := h.laid.moves hm
  have hcmd := hm.cmd
  have hf : Samplewise f s st'.async.cmd := hcmd ▸ h.samplewise
  have hdl := h.carries.done_length
  cases hm with
  | stay => exact h
  | reserve n =>
    refine ⟨hlaid, hf, h.carries.reserve n, ?_, h.taken, h.fetched⟩
    have hw : (μ.reserve n).writeAlloc - (μ.reserve n).written =
        (μ.writeAlloc - μ.written) + min n μ.room := by
      simp only [Marks.reserve]
      omega
    have hp : (μ.reserve n).written + (μ.writeAlloc - μ.written) = μ.writeAlloc :=
      Nat.add_sub_cancel' μ.written_le
    rw [hw, window_add, hp]
    exact congrArg (· ++ _) h.draft
  | store off data hfit =>
    refine ⟨hlaid, hf, h.carries.put (by omega) (by omega), ?_, h.taken, h.fetched⟩
    rw [window_put _ hfit (by omega), ← h.draft]
  | commit n =>
    have hch := (μ.commit n).chain
    have hk : min n (μ.writeAlloc - μ.written) ≤ μ.writeAlloc - μ.written := Nat.min_le_right _ _
    have hbytes : st.draft.take (min n (μ.writeAlloc - μ.written)) =
        window st.async.preallocBuf cap μ.written (min n (μ.writeAlloc - μ.written)) := by
      rw [h.draft, window_take _ _ _ hk]
    have hnew := writeFreed_carries h.samplewise h.laid.placed h.carries n
    rw [← hbytes] at hnew
    have hpre := munged_prefix (f := f) s st.async
      (List.prefix_append st.committed (st.draft.take (min n (μ.writeAlloc - μ.written))))
    have hready : μ.ready ≤ (writeFreedMarks s st.async μ n).ready := by
      rw [writeFreedMarks_ready]
      exact Nat.le_add_right _ _
    have hcmd' := writeFreed_cmd s st.async μ n
    refine ⟨hlaid, hf, ?_, ?_, ?_, ?_⟩
    · rw [hcmd']
      exact hnew
    · have hwin : window (writeFreed s st.async μ n).preallocBuf cap (μ.commit n).written
          (μ.writeAlloc - (μ.commit n).written) =
          window st.async.preallocBuf cap (μ.commit n).written
            (μ.writeAlloc - (μ.commit n).written) :=
        window_congr fun p h₁ h₂ => writeFreed_keeps h.laid.placed n h₁ (by omega)
      have hsub : μ.writeAlloc - (μ.commit n).written =
          μ.writeAlloc - μ.written - min n (μ.writeAlloc - μ.written) := by
        simp only [Marks.commit]
        omega
      refine Eq.trans ?_ hwin.symm
      rw [hsub]
      change st.draft.drop _ = _
      rw [h.draft, window_drop _ _ _ hk]
      rfl
    · rw [hcmd']
      exact h.taken.trans (slice_of_isPrefix (m := 0) hpre (by omega)).symm
    · intro e he
      obtain ⟨hle, heq⟩ := h.fetched e he
      refine ⟨hle.trans hready, ?_⟩
      rw [hcmd']
      exact heq.trans (slice_of_isPrefix hpre (by omega)).symm
  | acquire n => exact ⟨hlaid, hf, h.carries.acquire n, h.draft, h.taken, h.fetched⟩
  | fetch off n hfit =>
    refine ⟨hlaid, hf, h.carries, h.draft, h.taken, ?_⟩
    intro e he
    rcases List.mem_append.mp he with he | he
    · exact h.fetched e he
    · rw [List.mem_singleton.mp he, h.laid.taken_length]
      refine ⟨by simp only [window_length]; omega, ?_⟩
      rw [window_length]
      exact h.carries.window_done (by omega) (by omega)
  | release n =>
    refine ⟨hlaid, hf, h.carries.release n, h.draft, ?_, h.fetched⟩
    change st.taken ++ _ = List.take (μ.read + min n (μ.readAlloc - μ.read)) _
    rw [List.take_add, h.carries.window_done le_rfl (by omega), ← h.taken]

/-- End to end the buffer is a queue: what is taken out is a prefix of what was committed,
passed through munge, and every copy gives the bytes of its stream positions. -/
theorem fifo (hpos : 0 < a.preallocBufsz.toNat) (hlt : a.preallocBufsz.toNat < 2 ^ 31)
    (hpage : 4 ∣ a.preallocBufsz.toNat)
    (hlist : Munges s a → 0 < a.cmd.chanlistLen.toNat ∧ a.cmd.chanlistLen.toNat ≤ s.lenChanlist)
    (hf : Samplewise f s a.cmd) (steps : List FifoStep)
    (hasks : GuardedRuns.AllFit (fifoStep s) (Asks a.preallocBufsz.toNat) (Fifo.start a) steps) :
    ∃ st, GuardedRuns.run (fifoStep s) (Fifo.start a) steps = .ok st ∧
      st.taken <+: munged f s a.cmd st.committed ∧
      ∀ e ∈ st.fetched, e.1 + e.2.length ≤ (munged f s a.cmd st.committed).length ∧
        e.2 = ((munged f s a.cmd st.committed).drop e.1).take e.2.length := by
  have hz : Sized s a := by
    refine ⟨hpos, hlt, ?_, hlist⟩
    rcases bytesPerSample_toNat s with h | h
    · rwa [h]
    · rw [h]
      exact Nat.dvd_trans ⟨2, rfl⟩ hpage
  obtain ⟨st, he, μ, h, hcmd⟩ := GuardedRuns.run_total
    (fun st => ∃ μ : Marks a.preallocBufsz.toNat, Flows f s st μ ∧ st.async.cmd = a.cmd)
    (fun st x hinv hx => by
      obtain ⟨μ, h, hcmd⟩ := hinv
      obtain ⟨st', μ', he, hm⟩ := fifoStep_moves h.laid (hx.fits hlt)
      exact ⟨st', he, μ', h.moves hm, hm.cmd.trans hcmd⟩)
    ⟨_, .start hz hf, rfl⟩ hasks
  have ht := h.taken
  have hfe := h.fetched
  have hdl := h.carries.done_length
  rw [hcmd] at ht hfe hdl
  refine ⟨st, he, ?_, ?_⟩
  · rw [ht]
    exact List.take_prefix _ _
  · rwa [hdl]

/-- `ni_ai_munge` for samples of 16 bits. -/
def niAiMunge (aiOffset : Nat → BitVec 16) (chanlistLen : Nat) : List Byte → Nat → List Byte
  | lo :: hi :: rest, chanIndex =>
    samplBytes ((hi ++ lo) + aiOffset chanIndex) ++
      niAiMunge aiOffset chanlistLen rest ((chanIndex + 1) % chanlistLen)
  | _, _ => []

def addOffset (aiOffset : Nat → BitVec 16) (chan : Nat) : List Byte → List Byte
  | [lo, hi] => samplBytes ((hi ++ lo) + aiOffset chan)
  | _ => []

/-- The channel index that the driver carries along is the one of the sample. -/
theorem niAiMunge_eq (aiOffset : Nat → BitVec 16) {len : Nat} (block : List Byte) {chan : Nat}
    (hblock : 2 ∣ block.length) (hchan : chan < len) :
    niAiMunge aiOffset len block chan =
      mapFrom (fun k => addOffset aiOffset (k % len)) 2 chan block := by
  induction block, chan using niAiMunge.induct len with
  | case1 lo hi rest chan ih =>
    have hrest : 2 ∣ rest.length := by
      simp only [List.length_cons] at hblock
      omega
    have hnext : (chan + 1) % len < len := Nat.mod_lt _ (by omega)
    have hcut : lo :: hi :: rest = [lo, hi] ++ rest := rfl
    have hsample : [lo, hi].length = 2 := rfl
    rw [niAiMunge, ih hrest hnext, hcut, mapFrom_sample_append Nat.zero_lt_two chan hsample,
      mapFrom_mod (addOffset aiOffset), addOffset, Nat.mod_eq_of_lt hchan]
  | case2 block chan hshort =>
    rcases block with _ | ⟨lo, _ | ⟨hi, rest⟩⟩
    · rw [mapFrom_nil]
      rfl
    · simp at hblock
    · exact absurd rfl (hshort lo hi rest)

/-- Two bipolar channels, whose samples lie around 0 on the card. -/
def bipolar (_ : Nat) : BitVec 16 := 0x8000

def niAi : Subdevice := { munging with munge := some fun block chan => niAiMunge bipolar 2 block chan.toNat }

theorem niAi_samplewise : Samplewise (addOffset bipolar) niAi twoChannels.cmd where
  length c x hx := by
    change x.length = 2 at hx
    rcases x with _ | ⟨lo, _ | ⟨hi, _ | ⟨z, zs⟩⟩⟩
    · simp at hx
    · simp at hx
    · rfl
    · simp at hx
  munge munge hm block chan hblock hchan := by
    cases hm
    exact niAiMunge_eq bipolar block hblock hchan

theorem fifo_niAi :
    ∃ st, GuardedRuns.run (fifoStep niAi) (Fifo.start twoChannels)
        [.writeAlloc 8, .memcpyTo 0 [1, 0, 2, 0, 3, 0], .writeFree 5, .readAlloc 4096,
          .memcpyFrom 2 2, .readFree 4] = .ok st ∧
      st.taken <+: munged (addOffset bipolar) niAi twoChannels.cmd st.committed ∧
      ∀ e ∈ st.fetched,
        e.1 + e.2.length ≤ (munged (addOffset bipolar) niAi twoChannels.cmd st.committed).length ∧
        e.2 = ((munged (addOffset bipolar) niAi twoChannels.cmd st.committed).drop e.1).take
          e.2.length :=
  fifo (by decide) (by decide) ⟨1024, rfl⟩ (fun _ => ⟨by decide, by decide⟩) niAi_samplewise _
    (.cons (by decide) rfl (.cons (by decide) rfl (.cons (by decide) rfl (.cons (by decide) rfl
      (.cons (by decide) rfl (.cons (by decide) rfl trivial))))))

end Comedi.StreamContents
