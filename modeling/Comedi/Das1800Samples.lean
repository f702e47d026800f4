import Comedi.Das1800
import Comedi.GuardedRuns

namespace Comedi.Das1800Samples

open Das1800 GuardedRuns
open RtTimer (trigCount)

/-- `stop_arg * chanlist_len`, computed exactly. -/
def wanted (cmd : Cmd) : Nat := cmd.stopArg.toNat * cmd.chanlistLen.toNat

/-- The sample for a word of the board: the offset is added exactly for a bipolar range. -/
def sampleOf (resolution : Nat) (unipolar : Bool) (word : U16) : U16 :=
  word + if unipolar then 0 else .ofNat 16 (2 ^ (resolution - 1))

def handlerStep (resolution : Nat) (p : Private) (cmd : Cmd) (st : Ending × Acq) (r : Reading) :
    Result (Ending × Acq) :=
  .ok (aiHandler resolution p cmd st.2 r)

/-- There are never more samples than are wanted, there are that many when the acquisition
completes, and each is what its word and the polarity of the command say. -/
structure Exact (resolution : Nat) (cmd : Cmd) (st : Ending × Acq) : Prop where
  most : counts cmd → st.2.out.length ≤ wanted cmd
  all : counts cmd → st.1 = .completed → st.2.out.length = wanted cmd
  same : ∀ s ∈ st.2.out, s.2 = sampleOf resolution (unipolarCmd cmd) s.1

/-- The samples still wanted and the space in the buffer. -/
structure Budget where
  count : Nat
  free : Nat

def Budget.spend (b : Budget) (n : Nat) : Budget := ⟨b.count - n, b.free - 2 * n⟩

section Conditions

variable (p : Private) (cmd : Cmd)

/-- The DMA block has no more samples than are wanted, and the buffer has space for them. -/
def BlockFits (b : Budget) (d : DmaBlock) : Prop :=
  (counts cmd → (blockSamples p.dmaTransferSize d).toNat ≤ b.count) ∧
    2 * (blockSamples p.dmaTransferSize d).toNat ≤ b.free

def clipped (b : Budget) (n : Nat) : Nat := if counts cmd then min b.count n else n

def HalfFits (b : Budget) : Prop := 2 * clipped cmd b 512 ≤ b.free

/-- The buffer has space for the words of the FIFO, and there are none for a unipolar range. -/
def RestFits (b : Budget) (words : List U16) : Prop :=
  2 * clipped cmd b words.length ≤ b.free ∧ (p.unipolar = true → clipped cmd b words.length = 0)

/-- The number of samples that the first half of the handler fetches. -/
def fetched (b : Budget) (r : Reading) : Nat :=
  if p.irqDmaBits &&& dmaEnabled ≠ 0 then (blockSamples p.dmaTransferSize (r.dma 0)).toNat
  else if r.status &&& statusFhf ≠ 0 then clipped cmd b 512
  else if r.status &&& statusFne ≠ 0 then clipped cmd b (r.rest 0).length
  else 0

def FetchFits (b : Budget) (r : Reading) : Prop :=
  if p.irqDmaBits &&& dmaEnabled ≠ 0 then BlockFits p cmd b (r.dma 0)
  else if r.status &&& statusFhf ≠ 0 then HalfFits cmd b
  else if r.status &&& statusFne ≠ 0 then RestFits p cmd b (r.rest 0)
  else True

def FlushFits (b : Budget) (r : Reading) : Prop :=
  let b₁ := b.spend (blockSamples p.dmaTransferSize (r.dma 1)).toNat
  let b₂ := b₁.spend (blockSamples p.dmaTransferSize (r.dma 2)).toNat
  BlockFits p cmd b (r.dma 1) ∧
    if p.irqDmaBits &&& dmaDual ≠ 0 then BlockFits p cmd b₁ (r.dma 2) ∧ RestFits p cmd b₂ (r.rest 1)
    else RestFits p cmd b₁ (r.rest 1)

def FetchRestFits (b : Budget) (r : Reading) : Prop :=
  if p.irqDmaBits &&& dmaEnabled ≠ 0 then FlushFits p cmd b r else RestFits p cmd b (r.rest 1)

/-- In the order in which the handler fetches them, no DMA block has more samples than are still
wanted, the buffer has space for all samples, and none comes one by one for a unipolar range. -/
def Fits (st : Ending × Acq) (r : Reading) : Prop :=
  let b : Budget := ⟨st.2.count.toNat, r.free⟩
  FetchFits p cmd b r ∧
    (r.status &&& statusOvf = 0 → r.status &&& statusCt0tc ≠ 0 →
      FetchRestFits p cmd (b.spend (fetched p cmd b r)) r)

end Conditions

variable {resolution : Nat} {p q : Private} {cmd : Cmd} {x x' x'' : Acq} {b : Budget} {n m : Nat}
  {d : DmaBlock} {words : List U16} {r : Reading}

/-- The budget is that of the acquisition; for a command without an end it has no count. -/
def Has (cmd : Cmd) (x : Acq) (b : Budget) : Prop :=
  (counts cmd → x.count.toNat = b.count) ∧ x.free = b.free

/-- `n` samples are fetched, and each is converted as it should be. -/
structure Moves (resolution : Nat) (p : Private) (cmd : Cmd) (n : Nat) (x x' : Acq) : Prop where
  count : counts cmd → x'.count.toNat + n = x.count.toNat
  free : x'.free = x.free - 2 * n
  out : ∃ samples, x'.out = x.out ++ samples ∧ samples.length = n ∧
    ∀ s ∈ samples, s.2 = sampleOf resolution p.unipolar s.1

theorem Moves.refl (x : Acq) : Moves resolution p cmd 0 x x :=
  ⟨fun _ => rfl, rfl, [], (List.append_nil _).symm, rfl, nofun⟩

theorem Moves.trans (h : Moves resolution p cmd n x x') (h' : Moves resolution p cmd m x' x'') :
    Moves resolution p cmd (n + m) x x'' := by
  obtain ⟨s, hs, hn, hv⟩ := h.out
  obtain ⟨s', hs', hm, hv'⟩ := h'.out
  refine ⟨fun hc => ?_, ?_, s ++ s', ?_, ?_, fun y hy => ?_⟩
  · have := h.count hc
    have := h'.count hc
    omega
  · have := h.free
    have := h'.free
    omega
  · rw [hs', hs, List.append_assoc]
  · rw [List.length_append, hn, hm]
  · rcases List.mem_append.mp hy with hy | hy
    · exact hv y hy
    · exact hv' y hy

theorem Moves.has (h : Moves resolution p cmd n x x') (hb : Has cmd x b) : Has cmd x' (b.spend n) := by
  refine ⟨fun hc => ?_, ?_⟩
  · have := h.count hc
    have := hb.1 hc
    simp only [Budget.spend]
    omega
  · rw [h.free, hb.2]
    rfl

/-- Samples are written and counted. -/
theorem Moves.of_write {samples : List (U16 × U16)} {k : U32} (hk : k.toNat = samples.length)
    (hc : counts cmd → samples.length ≤ x.count.toNat) (hf : 2 * samples.length ≤ x.free)
    (hv : ∀ s ∈ samples, s.2 = sampleOf resolution p.unipolar s.1) :
    Moves resolution p cmd samples.length x (take cmd (write x samples) k) := by
  have hw : (write x samples).out = x.out ++ samples ∧
      (write x samples).free = x.free - 2 * samples.length ∧ (write x samples).count = x.count := by
    unfold write
    split
    · next hnil =>
      subst hnil
      exact ⟨(List.append_nil _).symm, rfl, rfl⟩
    · rw [if_neg (by omega)]
      exact ⟨rfl, rfl, rfl⟩
  unfold take
  split
  · next hcount =>
    refine ⟨fun _ => ?_, hw.2.1, samples, hw.1, rfl, hv⟩
    change ((write x samples).count - k).toNat + _ = _
    have := hc hcount
    rw [hw.2.2, BitVec.toNat_sub_of_le (by rw [BitVec.le_def]; omega)]
    omega
  · next hcount => exact ⟨fun h => absurd h hcount, hw.2.1, samples, hw.1, rfl, hv⟩

theorem mungeData_eq (resolution : Nat) (unipolar : Bool) (word : U16) :
    mungeData resolution unipolar word = sampleOf resolution unipolar word := by
  unfold mungeData sampleOf mungeBipolarSample
  cases unipolar with
  | true => exact (BitVec.add_zero word).symm
  | false => rfl

theorem clip_toNat (hb : Has cmd x b) (k : U32) : (clip cmd x k).toNat = clipped cmd b k.toNat := by
  unfold clip clipped
  by_cases hc : counts cmd
  · have hcount := hb.1 hc
    rw [if_pos hc]
    split
    · next h =>
      have := h.2
      rw [BitVec.lt_def] at this
      omega
    · next h =>
      have : ¬ x.count < k := fun hlt => h ⟨hc, hlt⟩
      rw [BitVec.lt_def] at this
      omega
  · rw [if_neg hc, if_neg fun h => hc h.1]

theorem clipped_le (cmd : Cmd) (b : Budget) (n : Nat) :
    clipped cmd b n ≤ n ∧ (counts cmd → clipped cmd b n ≤ b.count) := by
  unfold clipped
  split
  · exact ⟨Nat.min_le_right _ _, fun _ => Nat.min_le_left _ _⟩
  · next h => exact ⟨le_rfl, fun hc => absurd hc h⟩

theorem flushDmaChannel_moves (hb : Has cmd x b) (hfit : BlockFits p cmd b d) :
    Moves resolution p cmd (blockSamples p.dmaTransferSize d).toNat x
      (flushDmaChannel resolution p cmd x d) := by
  have hclip : (clip cmd x (blockSamples p.dmaTransferSize d)).toNat =
      (blockSamples p.dmaTransferSize d).toNat := by
    rw [clip_toNat hb, clipped]
    split
    · next hc => exact Nat.min_eq_right (hfit.1 hc)
    · rfl
  have hlen : ((List.range (blockSamples p.dmaTransferSize d).toNat).map fun i =>
      (d.data i, if i < (clip cmd x (blockSamples p.dmaTransferSize d)).toNat then
        mungeData resolution p.unipolar (d.data i) else d.data i)).length =
      (blockSamples p.dmaTransferSize d).toNat := by
    rw [List.length_map, List.length_range]
  have h : Moves resolution p cmd _ x _ := Moves.of_write (hclip.trans hlen.symm)
    (fun hc => by rw [hlen, hb.1 hc]; exact hfit.1 hc) (by rw [hlen, hb.2]; exact hfit.2)
    (fun s hs => by
      obtain ⟨i, hi, rfl⟩ := List.mem_map.mp hs
      rw [List.mem_range, ← hclip] at hi
      dsimp only
      rw [if_pos hi, mungeData_eq])
  rwa [hlen] at h

theorem handleFifoHalfFull_moves (hb : Has cmd x b) (hfit : HalfFits cmd b) (words : Nat → U16) :
    Moves resolution p cmd (clipped cmd b 512) x (handleFifoHalfFull resolution p cmd x words) := by
  have hclip : (clip cmd x (fifoSize / 2)).toNat = clipped cmd b 512 := clip_toNat hb _
  have hlen : ((List.range (clip cmd x (fifoSize / 2)).toNat).map fun i =>
      (words i, mungeData resolution p.unipolar (words i))).length = clipped cmd b 512 := by
    rw [List.length_map, List.length_range, hclip]
  have h : Moves resolution p cmd _ x _ := Moves.of_write (hclip.trans hlen.symm)
    (fun hc => by rw [hlen, hb.1 hc]; exact (clipped_le cmd b 512).2 hc)
    (by rw [hlen, hb.2]; exact hfit)
    (fun s hs => by
      obtain ⟨i, -, rfl⟩ := List.mem_map.mp hs
      exact mungeData_eq ..)
  rwa [hlen] at h

theorem mungeBipolarSample_eq (resolution : Nat) (word : U16) :
    mungeBipolarSample resolution word = sampleOf resolution false word := rfl

/-- The first word that the FIFO gives, if it is wanted, is moved as any other. -/
theorem takeWord_moves (hc : counts cmd → x.count ≠ 0) (hf : 2 ≤ x.free) (hu : p.unipolar = false)
    (word : U16) :
    Moves resolution p cmd 1 x
      (take cmd (write x [(word, mungeBipolarSample resolution word)]) 1) := by
  change Moves resolution p cmd [(word, mungeBipolarSample resolution word)].length x _
  refine Moves.of_write rfl (fun hcount => ?_) hf fun s hs => ?_
  · have h := hc hcount
    rw [Ne, ← BitVec.toNat_inj] at h
    exact Nat.pos_of_ne_zero h
  · rw [List.mem_singleton.mp hs, hu]
    exact mungeBipolarSample_eq resolution word

/-- One word less is left and, if they are counted, one sample less is wanted. -/
theorem clipped_succ (hc : counts cmd → b.count ≠ 0) (n : Nat) :
    clipped cmd b (n + 1) = 1 + clipped cmd (b.spend 1) n := by
  unfold clipped Budget.spend
  split
  · next hcount =>
    have := hc hcount
    dsimp only
    omega
  · exact Nat.add_comm n 1

theorem clipped_done (hc : counts cmd) (hb : b.count = 0) (n : Nat) : clipped cmd b n = 0 := by
  unfold clipped
  rw [if_pos hc, hb, Nat.zero_min]

theorem handleFifoNotEmpty_moves (hb : Has cmd x b) (hfit : RestFits p cmd b words) :
    Moves resolution p cmd (clipped cmd b words.length) x
      (handleFifoNotEmpty resolution cmd x words) := by
  induction words generalizing x b with
  | nil =>
    have h : clipped cmd b 0 = 0 := Nat.le_zero.mp (clipped_le cmd b 0).1
    rw [List.length_nil, h]
    exact Moves.refl x
  | cons word words ih =>
    rw [handleFifoNotEmpty]
    split
    · next hdone =>
      have hcount : b.count = 0 := by
        rw [← hb.1 hdone.1, hdone.2]
        rfl
      rw [clipped_done hdone.1 hcount]
      exact Moves.refl x
    · next hmore =>
      have hx : counts cmd → x.count ≠ 0 := fun hc h => hmore ⟨hc, h⟩
      have hcount : counts cmd → b.count ≠ 0 := fun hc h =>
        hx hc (BitVec.eq_of_toNat_eq ((hb.1 hc).trans h))
      have hsucc := clipped_succ hcount words.length
      rw [RestFits, List.length_cons, hsucc] at hfit
      have hu : p.unipolar = false := by
        cases hp : p.unipolar with
        | false => rfl
        | true =>
          have := hfit.2 hp
          omega
      have hfree : 2 ≤ x.free := by
        have := hb.2
        omega
      have h₁ : Moves resolution p cmd 1 x _ := takeWord_moves hx hfree hu word
      have hrest : RestFits p cmd (b.spend 1) words := by
        refine ⟨?_, fun h => absurd (hu.symm.trans h) (by decide)⟩
        have : (b.spend 1).free = b.free - 2 := rfl
        omega
      rw [List.length_cons, hsucc]
      exact h₁.trans (ih (h₁.has hb) hrest)

theorem fetch_moves (hb : Has cmd x b) (hfit : FetchFits p cmd b r) :
    Moves resolution p cmd (fetched p cmd b r) x (fetch resolution p cmd x r) := by
  unfold fetch fetched
  unfold FetchFits at hfit
  split
  · next h =>
    rw [if_pos h] at hfit
    exact flushDmaChannel_moves hb hfit
  · next h =>
    rw [if_neg h] at hfit
    split
    · next h =>
      rw [if_pos h] at hfit
      exact handleFifoHalfFull_moves hb hfit r.half
    · next h =>
      rw [if_neg h] at hfit
      split
      · next h =>
        rw [if_pos h] at hfit
        exact handleFifoNotEmpty_moves hb hfit
      · exact Moves.refl x

theorem flushDma_moves (hb : Has cmd x b) (hfit : FlushFits p cmd b r) :
    ∃ n, Moves resolution p cmd n x (flushDma resolution p cmd x r) := by
  obtain ⟨hfit₁, hfit₂⟩ := hfit
  have h₁ : Moves resolution p cmd _ x _ := flushDmaChannel_moves hb hfit₁
  have hb₁ := h₁.has hb
  unfold flushDma
  dsimp only
  split
  · next h =>
    rw [if_pos h] at hfit₂
    have h₂ : Moves resolution p cmd _ _ _ := flushDmaChannel_moves hb₁ hfit₂.1
    exact ⟨_, (h₁.trans h₂).trans (handleFifoNotEmpty_moves (h₂.has hb₁) hfit₂.2)⟩
  · next h =>
    rw [if_neg h] at hfit₂
    exact ⟨_, h₁.trans (handleFifoNotEmpty_moves hb₁ hfit₂)⟩

theorem fetchRest_moves (hb : Has cmd x b) (hfit : FetchRestFits p cmd b r) :
    ∃ n, Moves resolution p cmd n x (fetchRest resolution p cmd x r) := by
  unfold fetchRest
  unfold FetchRestFits at hfit
  split
  · next h =>
    rw [if_pos h] at hfit
    exact flushDma_moves hb hfit
  · next h =>
    rw [if_neg h] at hfit
    exact ⟨_, handleFifoNotEmpty_moves hb hfit⟩

/-- The count says how many samples are missing, and the samples are what they should be. -/
structure Inv (resolution : Nat) (p : Private) (cmd : Cmd) (x : Acq) : Prop where
  total : counts cmd → x.out.length + x.count.toNat = wanted cmd
  same : ∀ s ∈ x.out, s.2 = sampleOf resolution p.unipolar s.1

theorem Inv.moves (hi : Inv resolution p cmd x) (h : Moves resolution p cmd n x x') :
    Inv resolution p cmd x' := by
  obtain ⟨samples, hout, hlen, hv⟩ := h.out
  refine ⟨fun hc => ?_, fun s hs => ?_⟩
  · have := hi.total hc
    have := h.count hc
    rw [hout, List.length_append]
    omega
  · rw [hout] at hs
    rcases List.mem_append.mp hs with hs | hs
    · exact hi.same s hs
    · exact hv s hs

theorem Inv.congr (hi : Inv resolution p cmd x) (hc : x'.count = x.count) (ho : x'.out = x.out) :
    Inv resolution p cmd x' := by
  refine ⟨fun h => ?_, fun s hs => hi.same s (ho ▸ hs)⟩
  rw [hc, ho]
  exact hi.total h

/-- A call of the handler that fits keeps the invariant, and completes when nothing is missing. -/
theorem aiHandler_inv (hi : Inv resolution p cmd x)
    (hfit : FetchFits p cmd ⟨x.count.toNat, r.free⟩ r ∧
      (r.status &&& statusOvf = 0 → r.status &&& statusCt0tc ≠ 0 →
        FetchRestFits p cmd
          ((⟨x.count.toNat, r.free⟩ : Budget).spend (fetched p cmd ⟨x.count.toNat, r.free⟩ r)) r)) :
    Inv resolution p cmd (aiHandler resolution p cmd x r).2 ∧
      ((aiHandler resolution p cmd x r).1 = .completed →
        (aiHandler resolution p cmd x r).2.count = 0) := by
  have hb : Has cmd { x with events := 0, free := r.free } ⟨x.count.toNat, r.free⟩ :=
    ⟨fun _ => rfl, rfl⟩
  have h₁ : Moves resolution p cmd _ _ _ := fetch_moves hb hfit.1
  have hb₁ := h₁.has hb
  have hi₁ : Inv resolution p cmd (fetch resolution p cmd { x with events := 0, free := r.free } r) :=
    Inv.moves (x := { x with events := 0, free := r.free }) (hi.congr rfl rfl) h₁
  have hrest := hfit.2
  unfold aiHandler
  generalize fetch resolution p cmd { x with events := 0, free := r.free } r = y at hi₁ hb₁ ⊢
  generalize Budget.spend _ _ = b at hb₁ hrest
  extract_lets _ x₁ x₂
  have hi₁' : Inv resolution p cmd x₁ := hi₁.congr rfl rfl
  have hb₁' : Has cmd x₁ b := hb₁
  split
  · exact ⟨hi₁'.congr rfl rfl, nofun⟩
  · next hovf =>
    split
    · next hct =>
      have hrest : FetchRestFits p cmd b r := hrest (not_not.mp hovf) hct
      obtain ⟨n, h₂⟩ : ∃ n, Moves resolution p cmd n x₁ _ := fetchRest_moves hb₁' hrest
      have hi₂ : Inv resolution p cmd x₂ := hi₁'.moves h₂
      exact ⟨hi₂.congr rfl rfl, nofun⟩
    · split
      · next hdone => exact ⟨hi₁'.congr rfl rfl, fun _ => hdone.2⟩
      · exact ⟨hi₁', nofun⟩

theorem twice_even (y : U32) : (y * 2).toNat % 2 = 0 := by
  have h : (y * 2).toNat = y.toNat * 2 % 2 ^ 32 := BitVec.toNat_mul y 2
  omega

theorem ite_even {c : Prop} [Decidable c] {y z : U32} (hy : y.toNat % 2 = 0)
    (hz : z.toNat % 2 = 0) : (if c then y else z).toNat % 2 = 0 := by
  split
  · exact hy
  · exact hz

/-- A transfer is of whole samples. -/
theorem suggestTransferSize_even {size : U32} (h : suggestTransferSize cmd = .ok size) :
    size.toNat % 2 = 0 := by
  unfold suggestTransferSize at h
  extract_lets fillTime maxSize finish at h
  have hmax : maxSize.toNat % 2 = 0 := ite_even (twice_even _) rfl
  have hfinish (y : U32) (hy : y.toNat % 2 = 0) (hf : finish y = .ok size) : size.toNat % 2 = 0 := by
    cases hf
    exact ite_even rfl (ite_even hmax hy)
  split at h
  · split at h
    · split at h
      · cases h
      · exact hfinish _ (twice_even _) h
    · exact hfinish _ rfl h
  · split at h
    · split at h
      · cases h
      · exact hfinish _ (twice_even _) h
    · exact hfinish _ rfl h

theorem aiDoCmd_eq (h : aiDoCmd p cmd = .ok q) :
    q.unipolar = unipolarCmd cmd ∧ (counts cmd → q.count = cmd.stopArg * cmd.chanlistLen) ∧
      (q.irqDmaBits &&& dmaEnabled ≠ 0 → q.dmaTransferSize.toNat % 2 = 0) := by
  unfold aiDoCmd at h
  extract_lets bits₁ bits₂ finish at h
  split at h
  · next hoff =>
    cases h
    exact ⟨rfl, fun hc => if_pos hc, fun hon => absurd hoff hon⟩
  · obtain ⟨size, hsize, h⟩ := bind_eq_ok h
    cases h
    exact ⟨rfl, fun hc => if_pos hc, fun _ => suggestTransferSize_even hsize⟩

/-- The acquisition that a command starts. -/
def start (q : Private) : Ending × Acq := (.none, { count := q.count })

theorem start_inv (h : aiDoCmd p cmd = .ok q) (hn : counts cmd → wanted cmd < 2 ^ 32) :
    Inv resolution q cmd (start q).2 := by
  refine ⟨fun hc => ?_, nofun⟩
  change 0 + q.count.toNat = wanted cmd
  rw [Nat.zero_add, (aiDoCmd_eq h).2.1 hc, BitVec.toNat_mul]
  exact Nat.mod_eq_of_lt (hn hc)

/-- In an acquisition whose calls of the handler all fit, the samples are those that the command
asks for, each converted by its polarity. -/
theorem samples_exact (resolution : Nat) {p q : Private} {cmd : Cmd} (h : aiDoCmd p cmd = .ok q)
    (hn : counts cmd → wanted cmd < 2 ^ 32) {rs : List Reading}
    (hfit : AllFit (handlerStep resolution q cmd) (Fits q cmd) (start q) rs) :
    ∃ st, run (handlerStep resolution q cmd) (start q) rs = .ok st ∧ Exact resolution cmd st := by
  obtain ⟨st, hst, hi, hdone⟩ := run_total
    (fun st : Ending × Acq => Inv resolution q cmd st.2 ∧ (st.1 = .completed → st.2.count = 0))
    (fun st r hst hr => ⟨_, rfl, aiHandler_inv hst.1 hr⟩)
    ⟨start_inv h hn, fun he => nomatch he⟩ hfit
  refine ⟨st, hst, fun hc => ?_, fun hc he => ?_, fun s hs => ?_⟩
  · have := hi.total hc
    omega
  · have := hi.total hc
    rw [hdone he] at this
    exact this
  · rw [← (aiDoCmd_eq h).1]
    exact hi.same s hs

/-- Input of three samples of a bipolar or a unipolar channel. -/
def threeSamples (flags range : U32) : Cmd where
  flags := flags
  startSrc := RtTimer.trigNow
  scanBeginSrc := RtTimer.trigFollow
  convertSrc := RtTimer.trigTimer
  convertArg := 150000000
  scanEndSrc := trigCount
  scanEndArg := 1
  stopSrc := trigCount
  stopArg := 3
  chanlist := .kernel [range <<< 16]
  chanlistLen := 1

/-- A block of two samples, of which a DMA channel has `residue` to transfer. -/
def blockReading (residue : U16) : Reading :=
  ⟨0, fun _ => ⟨residue, fun i => .ofNat 16 i⟩, fun _ => 0, fun _ => [], 4096⟩

def wordReading (word : U16) : Reading :=
  ⟨statusFne, fun _ => ⟨0, fun _ => 0⟩, fun _ => 0, fun _ => [word], 4096⟩

def dmaBoard : Private := { dmaBits := 1 }

def startedDma : Private := { dmaBits := 1, irqDmaBits := 0x41, count := 3, dmaTransferSize := 4 }

theorem dma_started : aiDoCmd dmaBoard (threeSamples 0 0) = .ok startedDma := rfl

theorem samples_exact_dma :
    ∃ st, run (handlerStep 12 startedDma (threeSamples 0 0)) (start startedDma)
      [blockReading 0, blockReading 1] = .ok st ∧ Exact 12 (threeSamples 0 0) st :=
  samples_exact 12 dma_started (fun _ => by decide)
    (.cons ⟨⟨fun _ => by decide, by decide⟩, fun _ h => absurd rfl h⟩ rfl
      (.cons ⟨⟨fun _ => by decide, by decide⟩, fun _ h => absurd rfl h⟩ rfl trivial))

/-- The second block has two samples of which one is wanted. Both are written, one of them as it
came. With a unipolar range a word of a FIFO that is not empty is converted like one of a bipolar
range. -/
theorem samples_not_exact :
    (∃ st, run (handlerStep 12 startedDma (threeSamples 0 0)) (start startedDma)
        [blockReading 0, blockReading 0] = .ok st ∧ counts (threeSamples 0 0) ∧
      st.1 = .completed ∧ st.2.out.map (·.2) = [0x800, 0x801, 0x800, 1] ∧
      wanted (threeSamples 0 0) = 3 ∧ ¬ Exact 12 (threeSamples 0 0) st) ∧
    (∃ q st, aiDoCmd {} (threeSamples trigWakeEos 4) = .ok q ∧
      run (handlerStep 12 q (threeSamples trigWakeEos 4)) (start q) [wordReading 7] = .ok st ∧
      unipolarCmd (threeSamples trigWakeEos 4) = true ∧ st.2.out = [(7, 0x807)] ∧
      ¬ Exact 12 (threeSamples trigWakeEos 4) st) := by
  refine ⟨⟨_, rfl, rfl, by decide, by decide, rfl, fun h => ?_⟩,
    ⟨_, _, rfl, rfl, by decide, by decide, fun h => ?_⟩⟩
  · exact absurd (h.most rfl) (by decide)
  · exact absurd (h.same (7, 0x807) (by decide)) (by decide)

end Comedi.Das1800Samples
