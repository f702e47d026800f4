import Comedi.MiteSync

namespace Comedi.NiAiShutdown

open AsyncBuffer BufinfoOrder Fc GuardedRuns MiteSync RingCounters RingMarks SerialCounter
open WriteSpecs

inductive RegType
  | reg611x
  | reg6143
  | other
  deriving DecidableEq

/-- What the driver asks of a board with a DMA controller, and of its input subdevice. -/
structure NiBoard where
  regType : RegType
  adbits : Nat
  mSeries : Bool
  lsampl : Bool

/-- What the FIFO has when it is read: the words as long as its status says that it is not empty,
the sample that is stranded in a 6143 behind them, and the one that is found last. -/
structure Fifo where
  words : List U32
  stranded : Option U32
  last : Option U32

/-- The buffer, and the arrays given to `cfc_write_array_to_buffer` with what it returned. -/
structure Dregs where
  async : Async
  calls : List (List Byte × U32) := []

def high (dl : U32) : List Byte := samplBytes ((dl >>> 16).setWidth 16)

def low (dl : U32) : List Byte := samplBytes ((dl &&& 0xffff).setWidth 16)

/-- `ai_fifo_buffer` holds so many samples. -/
def buflen (board : NiBoard) : Nat := if board.lsampl then 0x1000 else 0x2000

def fifoSample (board : NiBoard) (dl : U32) : List Byte :=
  let dl := if board.mSeries then dl &&& ((1 <<< board.adbits) - 1) else dl &&& 0xffff
  if board.lsampl then low dl ++ high dl else low dl

/-- The loop that fills `ai_fifo_buffer`, up to a read that finds the FIFO empty. -/
def chunks (board : NiBoard) : Nat → List U32 → List (List Byte)
  | 0, _ => []
  | fuel + 1, words =>
    if words = [] then []
    else if words.length < buflen board then [words.flatMap (fifoSample board)]
    else (words.take (buflen board)).flatMap (fifoSample board) ::
      chunks board fuel (words.drop (buflen board))

section Shutdown

variable (s : Subdevice) (board : NiBoard)

def cfcWrite (d : Dregs) (data : List Byte) : Result Dregs := do
  let (r, a) ← cfcWriteArrayToBuffer s d.async data
  return ⟨a, d.calls ++ [(data, r)]⟩

/-- What `ni_handle_fifo_dregs` takes from the FIFO. -/
def dregs (f : Fifo) : List (List Byte) :=
  match board.regType with
  | .reg611x => f.words.map fun dl => high dl ++ low dl
  | .reg6143 => (f.words.map fun dl => high dl ++ low dl) ++ (f.stranded.map high).toList
  | .other => chunks board f.words.length f.words

def niHandleFifoDregs (f : Fifo) (d : Dregs) : Result Dregs := (dregs board f).foldlM (cfcWrite s) d

def lastSample611x (f : Fifo) : List (List Byte) :=
  if board.regType = .reg611x then (f.last.map low).toList else []

def lastSample6143 (f : Fifo) : List (List Byte) :=
  if board.regType = .reg6143 then (f.last.map high).toList else []

def getLastSample611x (f : Fifo) (d : Dregs) : Result Dregs :=
  (lastSample611x board f).foldlM (cfcWrite s) d

def getLastSample6143 (f : Fifo) (d : Dregs) : Result Dregs :=
  (lastSample6143 board f).foldlM (cfcWrite s) d

/-- `ni_ai_drain_dma`. Its loop waits for the DMA, or gives up; the buffer is synchronised
then, if there is a channel. -/
def niAiDrainDma (mite : Option MiteReads) (a : Async) : Result Async :=
  match mite with
  | none => .ok a
  | some r => (·.2) <$> miteSyncInputDma s a r

def shutdownAiCommand (mite : Option MiteReads) (f : Fifo) (a : Async) : Result Dregs := do
  let a ← niAiDrainDma s mite a
  let d ← niHandleFifoDregs s board f ⟨a, []⟩
  let d ← getLastSample611x s board f d
  let d ← getLastSample6143 s board f d
  return { d with async := { d.async with events := d.async.events ||| comediCbEoa } }

end Shutdown

/-- The arrays of all samples that the FIFO reports, in their order. -/
def reported (board : NiBoard) (f : Fifo) : List (List Byte) :=
  dregs board f ++ lastSample611x board f ++ lastSample6143 board f

def size (l : List (List Byte)) : Nat := (l.map List.length).sum

/-- Every sample is in the buffer, directly behind what the DMA wrote up to `a`, and no overflow
was raised since `before`. -/
structure Appends (board : NiBoard) (f : Fifo) (before a : Async) (d : Dregs) : Prop where
  all : d.calls = (reported board f).map fun data => (data, BitVec.ofNat 32 data.length)
  behind : d.async.bufWriteCount = a.bufWriteCount + BitVec.ofNat 32 (size (reported board f))
  overflow : d.async.events &&& comediCbOverflow ≠ 0 → before.events &&& comediCbOverflow ≠ 0

/-- Nothing is left in the FIFO. -/
def Empty (board : NiBoard) (f : Fifo) : Prop :=
  match board.regType with
  | .reg611x => f.words = [] ∧ f.last = none
  | .reg6143 => f.words = [] ∧ f.stranded = none ∧ f.last = none
  | .other => f.words = []

variable {s : Subdevice} {board : NiBoard} {f : Fifo} {a a' : Async} {d : Dregs}
  {data : List Byte} {l : List (List Byte)} {cap b : Nat} {st : Transfer} {x : Reading}
  {μ : Marks cap}

/-- A ring whose free space is allocated to a writer already. -/
def Taken (s : Subdevice) (a : Async) : Prop :=
  ∃ (cap : Nat) (μ : Marks cap), Located s a μ ∧ μ.room = 0

theorem Taken.events (h : Taken s a) (e : U32) : Taken s { a with events := e } := by
  obtain ⟨cap, μ, hμ, hroom⟩ := h
  exact ⟨cap, μ, hμ.events e, hroom⟩

theorem taken_writeAlloc (h : Taken s a) {n : U32} (hn : n.toNat < 2 ^ 31) :
    comediBufWriteAlloc a n = (0, a) := by
  obtain ⟨cap, μ, hμ, hroom⟩ := h
  have hres : (μ.reserve n.toNat).writeAlloc = μ.writeAlloc := by
    change μ.writeAlloc + min n.toNat μ.room = _
    rw [hroom, Nat.min_zero, Nat.add_zero]
  rw [writeAlloc_spec hμ.cap_lt hμ.tracks (by omega), hroom, Nat.min_zero, hres,
    ← hμ.tracks.writeAllocCount]
  rfl

/-- Where the synchronisation has allocated all of the free space, a programmed write finds
none. -/
theorem taken_cfcWrite (h : Taken s d.async) (hne : data ≠ []) (hlen : data.length < 2 ^ 31) :
    cfcWrite s d data = .ok ⟨{ d.async with events := d.async.events ||| comediCbOverflow },
      d.calls ++ [(data, 0)]⟩ := by
  have hn : (BitVec.ofNat 32 data.length).toNat = data.length := toNat_ofNat_of_lt (by omega)
  have hpos := List.length_pos_iff.mpr hne
  have hz : BitVec.ofNat 32 data.length ≠ 0 := by
    intro h0
    rw [h0] at hn
    exact absurd hn (Nat.ne_of_lt hpos)
  have hwrite : cfcWriteArrayToBuffer s d.async data =
      .ok (0, { d.async with events := d.async.events ||| comediCbOverflow }) := by
    unfold cfcWriteArrayToBuffer
    dsimp only
    rw [if_neg hz, taken_writeAlloc h (by omega)]
    exact if_pos (Ne.symm hz)
  exact bind_ok hwrite _

theorem taken_foldlM (h : Taken s d.async) (hl : ∀ data ∈ l, data ≠ [] ∧ data.length < 2 ^ 31) :
    ∃ d', l.foldlM (cfcWrite s) d = .ok d' ∧ Taken s d'.async ∧
      d'.calls = d.calls ++ l.map (fun data => (data, 0)) ∧
      d'.async.bufWriteCount = d.async.bufWriteCount ∧
      (l = [] → d' = d) := by
  induction l generalizing d with
  | nil => exact ⟨d, rfl, h, (List.append_nil _).symm, rfl, fun _ => rfl⟩
  | cons data l ih =>
    rw [List.forall_mem_cons] at hl
    have hwrite := taken_cfcWrite h hl.1.1 hl.1.2
    obtain ⟨d', hrun, htaken, hcalls, hcount, -⟩ :=
      ih (d := ⟨{ d.async with events := d.async.events ||| comediCbOverflow },
        d.calls ++ [(data, 0)]⟩) (h.events _) hl.2
    refine ⟨d', ?_, htaken, ?_, hcount, nofun⟩
    · rw [List.foldlM_cons]
      exact (bind_ok hwrite _).trans hrun
    · rw [hcalls, List.map_cons, List.append_assoc]
      rfl

theorem reserve_room (μ : Marks cap) : (μ.reserve cap).room = 0 := by
  have hle := μ.room_le
  have hroom : μ.room = μ.read + cap - μ.writeAlloc := rfl
  change μ.read + cap - (μ.writeAlloc + min cap μ.room) = 0
  omega

/-- The synchronisation leaves no free space that is not allocated. -/
theorem sync_taken (h : Synced s b st μ) (hb : 0 < b) (hb' : b ≤ 2 ^ 31) (hx : Consistent st x)
    (hnear : x.upper < allocEnd st + 2 ^ 31) :
    ∃ ret a, miteSyncInputDma s st.async x.registers = .ok (ret, a) ∧ Taken s a ∧
      (a.events &&& comediCbOverflow ≠ 0 ↔
        st.async.events &&& comediCbOverflow ≠ 0 ∨ allocEnd st < x.upper) := by
  have hend := h.allocEnd_eq
  have hroom := reserve_room μ
  rcases miteSyncInputDma_cases h hb hb' hx hnear with ⟨hover, he⟩ | ⟨hle, he⟩ | ⟨hle, n, -, -, he⟩
  · refine ⟨_, _, he, ⟨cap, _, (h.located.reserve cap).events _, hroom⟩, ?_⟩
    change (st.async.events ||| comediCbOverflow) &&& comediCbOverflow ≠ 0 ↔ _
    rw [BitFlags.or_self_and]
    exact iff_of_true (by decide) (.inr (by omega))
  · refine ⟨_, _, he, ⟨cap, _, h.located.reserve cap, hroom⟩, ?_⟩
    exact ⟨.inl, fun hor => hor.resolve_right (by omega)⟩
  · refine ⟨_, _, he, ⟨cap, _, synced_located h.located b n, hroom⟩, ?_⟩
    change scanEvents b _ st.async.events &&& comediCbOverflow ≠ 0 ↔ _
    rw [and_overflow_scanEvents]
    exact ⟨.inl, fun hor => hor.resolve_right (by omega)⟩

theorem shutdown_eq (s : Subdevice) (board : NiBoard) (f : Fifo) (a : Async) (r : MiteReads)
    {ret : Int} (hsync : miteSyncInputDma s a r = .ok (ret, a')) :
    shutdownAiCommand s board (some r) f a =
      (fun d : Dregs => { d with
        async := { d.async with events := d.async.events ||| comediCbEoa } }) <$>
        (reported board f).foldlM (cfcWrite s) ⟨a', []⟩ := by
  have hdrain : niAiDrainDma s (some r) a = .ok a' := by
    unfold niAiDrainDma
    dsimp only
    rw [hsync]
    rfl
  unfold shutdownAiCommand reported
  rw [List.foldlM_append, List.foldlM_append, bind_ok hdrain]
  simp only [map_eq_pure_bind, bind_assoc]
  rfl

theorem length_high (dl : U32) : (high dl).length = 2 := rfl

theorem length_low (dl : U32) : (low dl).length = 2 := rfl

theorem length_fifoSample (board : NiBoard) (dl : U32) :
    2 ≤ (fifoSample board dl).length ∧ (fifoSample board dl).length ≤ 4 := by
  unfold fifoSample
  dsimp only
  split
  · rw [List.length_append, length_low, length_high]
    decide
  · rw [length_low]
    decide

theorem length_flatMap_fifoSample (board : NiBoard) (words : List U32) :
    2 * words.length ≤ (words.flatMap (fifoSample board)).length ∧
      (words.flatMap (fifoSample board)).length ≤ 4 * words.length := by
  induction words with
  | nil => exact ⟨Nat.le_refl _, Nat.le_refl _⟩
  | cons dl words ih =>
    have h := length_fifoSample board dl
    rw [List.flatMap_cons, List.length_append, List.length_cons]
    omega

/-- An array that can be written in one call. -/
def Sized (data : List Byte) : Prop := data ≠ [] ∧ data.length < 2 ^ 31

theorem sized_of_length (hpos : 0 < data.length) (hlt : data.length < 2 ^ 31) : Sized data :=
  ⟨List.length_pos_iff.mp hpos, hlt⟩

theorem buflen_le (board : NiBoard) : 0 < buflen board ∧ buflen board ≤ 0x2000 := by
  unfold buflen
  split <;> decide

theorem chunks_sized (board : NiBoard) (fuel : Nat) (words : List U32) :
    ∀ data ∈ chunks board fuel words, Sized data := by
  have hlen := buflen_le board
  induction fuel generalizing words with
  | zero => exact List.forall_mem_nil _
  | succ fuel ih =>
    unfold chunks
    split
    · exact List.forall_mem_nil _
    · next hne =>
      have hpos := List.length_pos_iff.mpr hne
      split
      · have h := length_flatMap_fifoSample board words
        rw [List.forall_mem_singleton]
        exact sized_of_length (by omega) (by omega)
      · have h := length_flatMap_fifoSample board (words.take (buflen board))
        rw [List.length_take] at h
        rw [List.forall_mem_cons]
        exact ⟨sized_of_length (by omega) (by omega), ih _⟩

theorem reported_sized (board : NiBoard) (f : Fifo) : ∀ data ∈ reported board f, Sized data := by
  have hpair : ∀ data ∈ f.words.map fun dl => high dl ++ low dl, Sized data := by
    intro data hdata
    obtain ⟨dl, -, rfl⟩ := List.mem_map.mp hdata
    exact sized_of_length (show 0 < 4 by decide) (show 4 < 2 ^ 31 by decide)
  have hhigh : ∀ (o : Option U32), ∀ data ∈ (o.map high).toList, Sized data := by
    rintro (_ | dl) data hdata
    · exact absurd hdata List.not_mem_nil
    · rw [List.mem_singleton.mp hdata]
      exact sized_of_length (show 0 < 2 by decide) (show 2 < 2 ^ 31 by decide)
  have hlow : ∀ (o : Option U32), ∀ data ∈ (o.map low).toList, Sized data := by
    rintro (_ | dl) data hdata
    · exact absurd hdata List.not_mem_nil
    · rw [List.mem_singleton.mp hdata]
      exact sized_of_length (show 0 < 2 by decide) (show 2 < 2 ^ 31 by decide)
  unfold reported dregs lastSample611x lastSample6143
  intro data hdata
  rw [List.mem_append, List.mem_append] at hdata
  cases hreg : board.regType with
  | reg611x =>
    rw [hreg] at hdata
    rcases hdata with (hdata | hdata) | hdata
    · exact hpair data hdata
    · exact hlow _ data hdata
    · exact absurd hdata List.not_mem_nil
  | reg6143 =>
    rw [hreg] at hdata
    rcases hdata with (hdata | hdata) | hdata
    · rcases List.mem_append.mp hdata with hdata | hdata
      · exact hpair data hdata
      · exact hhigh _ data hdata
    · exact absurd hdata List.not_mem_nil
    · exact hhigh _ data hdata
  | other =>
    rw [hreg] at hdata
    rcases hdata with (hdata | hdata) | hdata
    · exact chunks_sized board _ _ data hdata
    · exact absurd hdata List.not_mem_nil
    · exact absurd hdata List.not_mem_nil

theorem chunks_eq_nil (board : NiBoard) (words : List U32) :
    chunks board words.length words = [] ↔ words = [] := by
  cases words with
  | nil => exact ⟨fun _ => rfl, fun _ => rfl⟩
  | cons dl words =>
    refine iff_of_false ?_ (List.cons_ne_nil _ _)
    rw [List.length_cons, chunks, if_neg (List.cons_ne_nil _ _)]
    split <;> exact List.cons_ne_nil _ _

theorem toList_map_eq_nil {o : Option U32} {g : U32 → List Byte} :
    (o.map g).toList = [] ↔ o = none := by
  cases o with
  | none => exact ⟨fun _ => rfl, fun _ => rfl⟩
  | some dl => exact iff_of_false (List.cons_ne_nil _ _) nofun

theorem reported_eq_nil : reported board f = [] ↔ Empty board f := by
  unfold reported Empty dregs lastSample611x lastSample6143
  rw [List.append_eq_nil_iff, List.append_eq_nil_iff]
  cases board.regType with
  | reg611x =>
    change ((f.words.map _ = [] ∧ (f.last.map low).toList = []) ∧ [] = []) ↔ _
    rw [List.map_eq_nil_iff, toList_map_eq_nil]
    exact and_iff_left rfl
  | reg6143 =>
    change ((f.words.map _ ++ (f.stranded.map high).toList = [] ∧ [] = []) ∧
      (f.last.map high).toList = []) ↔ _
    rw [List.append_eq_nil_iff, List.map_eq_nil_iff, toList_map_eq_nil, toList_map_eq_nil,
      and_iff_left rfl, and_assoc]
  | other =>
    change ((chunks board f.words.length f.words = [] ∧ [] = []) ∧ [] = []) ↔ _
    rw [chunks_eq_nil, and_iff_left rfl, and_iff_left rfl]

theorem eoa_keeps_overflow (e : U32) :
    (e ||| comediCbEoa) &&& comediCbOverflow = e &&& comediCbOverflow :=
  BitFlags.and_or_of_disjoint (by decide)

/-- In every state that an acquisition by DMA reaches, the shutdown appends what is left in the
FIFO just if that is nothing and the DMA has kept to its region: what it synchronises first takes
all of the space that the programmed writes need. -/
theorem shutdown_appends_iff {steps : List DmaStep} (ha : Acquires s a)
    (hfit : AllFit (dmaStep s) StepFits (start a) steps)
    (hrun : run (dmaStep s) (start a) steps = .ok st) (hx : StepFits st (.sync x))
    (board : NiBoard) (f : Fifo) :
    ∃ ret a' d, miteSyncInputDma s st.async x.registers = .ok (ret, a') ∧
      shutdownAiCommand s board (some x.registers) f st.async = .ok d ∧
      (Appends board f st.async a' d ↔ Empty board f ∧
        (x.upper ≤ allocEnd st ∨ st.async.events &&& comediCbOverflow ≠ 0)) := by
  let inv (st : Transfer) : Prop :=
    ∃ μ : Marks a.preallocBufsz.toNat, Synced s (cfcBytesPerScan s a).toNat st μ
  have hkeep : ∀ st i, inv st → StepFits st i → ∃ st', dmaStep s st i = .ok st' ∧ inv st' :=
    dmaStep_keeps ha.scan_pos ha.scan_le
  obtain ⟨st', hrun', μ, hμ⟩ := run_total inv hkeep ⟨_, synced_start ha⟩ hfit
  cases hrun.symm.trans hrun'
  obtain ⟨ret, a', hsync, htaken, hover⟩ := sync_taken hμ ha.scan_pos ha.scan_le hx.1 hx.2
  obtain ⟨d, hfold, -, hcalls, hcount, hnil⟩ :=
    taken_foldlM (d := ⟨a', []⟩) htaken (reported_sized board f)
  have hshut := shutdown_eq s board f st.async x.registers hsync
  rw [hfold] at hshut
  refine ⟨ret, a', _, hsync, hshut, ?_⟩
  rw [← reported_eq_nil]
  by_cases hempty : reported board f = []
  · obtain rfl := hnil hempty
    have hsame : (a'.events ||| comediCbEoa) &&& comediCbOverflow ≠ 0 ↔
        st.async.events &&& comediCbOverflow ≠ 0 ∨ allocEnd st < x.upper := by
      rw [eoa_keeps_overflow]
      exact hover
    constructor
    · intro happ
      have hkept := happ.overflow
      refine ⟨hempty, ?_⟩
      by_cases hle : x.upper ≤ allocEnd st
      · exact .inl hle
      · exact .inr (hkept (hsame.mpr (.inr (by omega))))
    · rintro ⟨-, hor⟩
      refine ⟨?_, ?_, fun hraised => ?_⟩
      · rw [hempty]
        rfl
      · rw [hempty]
        exact (BitVec.add_zero _).symm
      · rcases hsame.mp hraised with hbefore | hlt
        · exact hbefore
        · exact hor.resolve_left (by omega)
  · refine iff_of_false (fun happ => ?_) (fun h => hempty h.1)
    have hall := happ.all
    dsimp only at hall
    rw [hcalls, List.nil_append] at hall
    obtain ⟨data, l, hl⟩ := List.exists_cons_of_ne_nil hempty
    have hsized := reported_sized board f data (by rw [hl]; exact List.mem_cons_self)
    rw [hl, List.map_cons, List.map_cons] at hall
    have hzero : (0 : U32) = BitVec.ofNat 32 data.length :=
      congrArg Prod.snd (List.cons.inj hall).1
    have hn : (BitVec.ofNat 32 data.length).toNat = data.length :=
      toNat_ofNat_of_lt (hsized.2.trans (by decide))
    rw [← hzero] at hn
    exact absurd hn (Nat.ne_of_lt (List.length_pos_iff.mpr hsized.1))

def board611x : NiBoard := ⟨.reg611x, 12, false, false⟩

/-- The driver has allocated the ring, eight bytes have been committed, and are being read. -/
def eightBytes : List DmaStep := [.writeAlloc 4096, .sync (drained 8), .readAlloc 8]

theorem eightBytes_fit : AllFit (dmaStep {}) StepFits (start (threeChannels 4096)) eightBytes := by
  refine ⟨⟨Nat.lt_add_right _ (by decide), trivial⟩, ?_⟩
  rintro _ ⟨⟩
  refine ⟨⟨consistent_drained (by decide) (by decide), near_of_lt (by decide)⟩, fun st _ => ?_⟩
  exact ⟨⟨Nat.lt_add_right _ (by decide), trivial⟩, fun _ _ => trivial⟩

theorem shutdown_appends_iff_empty :
    ∃ st ret a' d, run (dmaStep {}) (start (threeChannels 4096)) eightBytes = .ok st ∧
      miteSyncInputDma {} st.async (drained 12).registers = .ok (ret, a') ∧
      shutdownAiCommand {} board611x (some (drained 12).registers) ⟨[], none, none⟩ st.async =
        .ok d ∧
      (Appends board611x ⟨[], none, none⟩ st.async a' d ↔ Empty board611x ⟨[], none, none⟩ ∧
        ((drained 12).upper ≤ allocEnd st ∨ st.async.events &&& comediCbOverflow ≠ 0)) := by
  obtain ⟨ret, a', d, h⟩ := @shutdown_appends_iff {} (threeChannels 4096) _ (drained 12)
    eightBytes ⟨by decide, by decide, by decide, by decide⟩ eightBytes_fit rfl
    ⟨consistent_drained (by decide) (by decide), near_of_lt (by decide)⟩ board611x ⟨[], none, none⟩
  exact ⟨_, ret, a', d, rfl, h⟩

/-- The ring has space for 4084 bytes. After the synchronisation the last sample is refused, and
an overflow is raised. -/
theorem last_sample_lost :
    ∃ st d, run (dmaStep {}) (start (threeChannels 4096)) eightBytes = .ok st ∧
      st.async.bufReadCount = 0 ∧ (drained 12).upper ≤ allocEnd st ∧
      shutdownAiCommand {} board611x (some (drained 12).registers) ⟨[], none, some 0x1234⟩
        st.async = .ok d ∧
      d.async.bufWriteCount = 12 ∧ d.calls = [([0x34, 0x12], 0)] ∧
      st.async.events &&& comediCbOverflow = 0 ∧ d.async.events &&& comediCbOverflow ≠ 0 :=
  ⟨_, _, rfl, rfl, by decide, rfl, rfl, rfl, by decide, by decide⟩

end Comedi.NiAiShutdown
