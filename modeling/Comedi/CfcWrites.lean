import Comedi.BitFlags
import Comedi.BufinfoOrder
import Comedi.Fc

namespace Comedi.CfcWrites

open AsyncBuffer RingMarks RingCounters MungeBlocks BufinfoOrder Fc SerialCounter GuardedRuns

variable {s : Subdevice} {a a' : Async} {n r : U32} {data : List Byte}

theorem memcpyTo_buf {offset : U32} (h : comediBufMemcpyTo a offset data n = .ok a') :
    ∃ mem, a' = { a with preallocBuf := mem } := by
  obtain ⟨ptr, -, h⟩ := bind_eq_ok h
  obtain ⟨mem, -, h⟩ := bind_eq_ok h
  cases h
  exact ⟨mem, rfl⟩

/-- What belongs to the reader is the same. -/
structure Appended (a a' : Async) : Prop where
  readPtr : a'.bufReadPtr = a.bufReadPtr
  bufsz : a'.preallocBufsz = a.preallocBufsz
  readCount : a'.bufReadCount = a.bufReadCount
  readAllocCount : a'.bufReadAllocCount = a.bufReadAllocCount

/-- What a write of the driver leaves alone, and the space it has allocated and not written. -/
structure Leaves (a a' : Async) : Prop extends Appended a a' where
  events : a'.events &&& comediCbOverflow = a.events &&& comediCbOverflow
  owed : a'.bufWriteAllocCount - a'.bufWriteCount = a.bufWriteAllocCount - a.bufWriteCount

theorem Appended.trans {a₁ a₂ a₃ : Async} (h : Appended a₁ a₂) (h' : Appended a₂ a₃) :
    Appended a₁ a₃ :=
  ⟨h'.readPtr.trans h.readPtr, h'.bufsz.trans h.bufsz, h'.readCount.trans h.readCount,
    h'.readAllocCount.trans h.readAllocCount⟩

theorem Appended.readPtr_lt (h : Appended a a') (hp : a.bufReadPtr < a.preallocBufsz) :
    a'.bufReadPtr < a'.preallocBufsz := by
  rw [h.readPtr, h.bufsz]
  exact hp

theorem writeFreed_appended {cap : Nat} (s : Subdevice) (a : Async) (μ : Marks cap) (n : Nat) :
    Appended a (writeFreed s a μ n) where
  readPtr := advanceMunge_proj (·.bufReadPtr) (fun _ _ _ _ _ _ => rfl) s _ _
  bufsz := advanceMunge_proj (·.preallocBufsz) (fun _ _ _ _ _ _ => rfl) s _ _
  readCount := advanceMunge_proj (·.bufReadCount) (fun _ _ _ _ _ _ => rfl) s _ _
  readAllocCount := advanceMunge_proj (·.bufReadAllocCount) (fun _ _ _ _ _ _ => rfl) s _ _

/-- A producer that gets all it asks for and commits it owes what it owed before. -/
theorem write_whole (h : InRing s a) (hn : n.toNat ≤ room a) (mem : Nat → Byte) :
    ∃ a', comediBufWriteFree s { (comediBufWriteAlloc a n).2 with preallocBuf := mem } n =
      .ok (n, a') ∧ InRing s a' ∧ Leaves a a' := by
  have hcap := h.munge.bufsz_lt
  obtain ⟨μ, hμ⟩ := h.order.exists_tracks
  have hc := μ.chain
  have hroom := tracks_room hcap hμ
  rw [hroom] at hn
  have hle := μ.room_le
  have hres : (μ.reserve n.toNat).writeAlloc = μ.writeAlloc + n.toNat := by
    simp only [Marks.reserve, Nat.min_eq_left hn]
  rw [writeAlloc_spec hcap hμ (by omega)]
  let a₁ : Async := { a with
    bufWriteAllocCount := .ofNat 32 (μ.reserve n.toNat).writeAlloc, preallocBuf := mem }
  have hμ₁ : Tracks a₁ (μ.reserve n.toNat) := by
    have ht := hμ.reserve n.toNat
    exact ⟨ht.bufsz, ht.readCount, ht.readAllocCount, ht.mungeCount, ht.writeCount,
      ht.writeAllocCount⟩
  have hm₁ : MungeOk s a₁ := ⟨h.munge.ptr_lt, hcap, h.munge.chanlistLen⟩
  have hgot : min n.toNat ((μ.reserve n.toNat).writeAlloc - (μ.reserve n.toNat).written) =
      n.toNat := by
    have hw : (μ.reserve n.toNat).written = μ.written := rfl
    omega
  have hfree := writeFree_spec hcap hμ₁ hm₁ (n := n) (by omega)
  have hμ₂ := tracks_writeFreed hμ₁ hm₁ n.toNat
  have hwr : (writeFreedMarks s a₁ (μ.reserve n.toNat) n.toNat).written = μ.written + n.toNat := by
    change μ.written + min n.toNat _ = _
    rw [hgot]
  have hwa : (writeFreedMarks s a₁ (μ.reserve n.toNat) n.toNat).writeAlloc =
      μ.writeAlloc + n.toNat := hres
  rw [hgot, BitVec.ofNat_toNat, BitVec.setWidth_eq] at hfree
  have happ : Appended a a₁ := ⟨rfl, rfl, rfl, rfl⟩
  refine ⟨_, hfree, .of_tracks (hm₁.writeFreed _ _) hμ₂,
    happ.trans (writeFreed_appended s a₁ _ _), ?_, ?_⟩
  · exact congrArg (· &&& comediCbOverflow)
      (advanceMunge_proj (·.events) (fun _ _ _ _ _ _ => rfl) s _ _)
  · rw [hμ₂.writeAllocCount, hμ₂.writeCount, hwr, hwa, hμ.writeAllocCount, hμ.writeCount,
      ofNat_sub_ofNat_of_le (by omega), ofNat_sub_ofNat_of_le (by omega), Nat.add_sub_add_right]

theorem progress_leaves (h : InRing s a) (ha : incrementScanProgress s a n = .ok a') :
    InRing s a' ∧ Leaves a a' := by
  unfold incrementScanProgress at ha
  dsimp only at ha
  split at ha
  · obtain ⟨p, -, hp⟩ := bind_eq_ok ha
    cases hp
    exact ⟨⟨⟨h.order.readAlloc_le, h.order.munge_le, h.order.write_le, h.order.writeAlloc_le⟩,
      h.munge.ptr_lt, h.munge.bufsz_lt, h.munge.chanlistLen⟩,
      ⟨rfl, rfl, rfl, rfl⟩, BitFlags.and_or_of_disjoint (by decide), rfl⟩
  · cases ha
    exact ⟨⟨⟨h.order.readAlloc_le, h.order.munge_le, h.order.write_le, h.order.writeAlloc_le⟩,
      h.munge.ptr_lt, h.munge.bufsz_lt, h.munge.chanlistLen⟩, ⟨rfl, rfl, rfl, rfl⟩, rfl, rfl⟩

theorem Leaves.trans {a₁ a₂ a₃ : Async} (h : Leaves a₁ a₂) (h' : Leaves a₂ a₃) : Leaves a₁ a₃ :=
  ⟨h.toAppended.trans h'.toAppended, h'.events.trans h.events, h'.owed.trans h.owed⟩

theorem cfcStore_leaves (h : InRing s a) (hlen : data.length < 2 ^ 31) (hn : data.length ≤ room a)
    (hs : cfcStore s (comediBufWriteAlloc a (.ofNat 32 data.length)).2 data
      (.ofNat 32 data.length) = .ok (r, a')) :
    InRing s a' ∧ Leaves a a' := by
  have hln : (BitVec.ofNat 32 data.length).toNat = data.length := toNat_ofNat_of_lt (by omega)
  obtain ⟨a₁, hcopy, hs⟩ := bind_eq_ok hs
  obtain ⟨mem, rfl⟩ := memcpyTo_buf hcopy
  obtain ⟨⟨m, a₂⟩, hfree, hs⟩ := bind_eq_ok hs
  obtain ⟨a₃, hprog, hs⟩ := bind_eq_ok hs
  cases hs
  obtain ⟨a₂', hfree', hr₂, hl₂⟩ := write_whole h (by rwa [hln]) mem
  rw [hfree'] at hfree
  cases hfree
  obtain ⟨hr₃, hl₃⟩ := progress_leaves hr₂ hprog
  exact ⟨hr₃.events _, (hl₂.trans hl₃).trans
    ⟨⟨rfl, rfl, rfl, rfl⟩, BitFlags.and_or_of_disjoint (by decide), rfl⟩⟩

/-- Everything a write of the driver can do: nothing for no bytes, an overflow where the space
is too small, and else the whole array. -/
theorem cfcWrite_cases (h : InRing s a) (hlen : data.length < 2 ^ 31)
    (hw : cfcWriteArrayToBuffer s a data = .ok (r, a')) :
    a' = a ∨
    (room a < data.length ∧ InRing s a' ∧ Appended a a' ∧
      a'.events &&& comediCbOverflow ≠ 0) ∨
    (data.length ≤ room a ∧ InRing s a' ∧ Leaves a a') := by
  have hln : (BitVec.ofNat 32 data.length).toNat = data.length := toNat_ofNat_of_lt (by omega)
  have hcap := h.munge.bufsz_lt
  obtain ⟨μ, hμ⟩ := h.order.exists_tracks
  have hroom := tracks_room hcap hμ
  have hle := μ.room_le
  have hspec := writeAlloc_spec hcap hμ (n := .ofNat 32 data.length) (by omega)
  unfold cfcWriteArrayToBuffer at hw
  dsimp only at hw
  split at hw
  · cases hw
    exact .inl rfl
  split at hw
  · next hne =>
    cases hw
    refine .inr (.inl ⟨?_, ((h.writeAlloc (n := .ofNat 32 data.length) (by omega)).1).events _,
      ⟨rfl, rfl, rfl, rfl⟩, ?_⟩)
    · by_contra hge
      apply hne
      rw [hspec, hln, Nat.min_eq_left (by omega)]
    · change (a.events ||| comediCbOverflow) &&& comediCbOverflow ≠ 0
      intro hz
      have := congrArg (·.getLsbD 5) hz
      simp [comediCbOverflow] at this
  · next heq =>
    have hfits : data.length ≤ room a := by
      rw [not_not, hspec] at heq
      have := congrArg BitVec.toNat heq
      rw [hln, toNat_ofNat_of_lt (by omega)] at this
      omega
    exact .inr (.inr ⟨hfits, cfcStore_leaves h hlen hfits hw⟩)

theorem writeFree_appended (h : InRing s a)
    (hn : n.toNat < 2 ^ 31 + (a.bufWriteAllocCount - a.bufWriteCount).toNat)
    (hf : comediBufWriteFree s a n = .ok (r, a')) : InRing s a' ∧ Appended a a' := by
  obtain ⟨m, a₁, hf₁, hr⟩ := h.writeFree hn
  cases hf₁.symm.trans hf
  have hcap := h.munge.bufsz_lt
  obtain ⟨μ, hμ⟩ := h.order.exists_tracks
  have hc := μ.chain
  rw [hμ.writeCount, hμ.writeAllocCount, toNat_ofNat_sub (by omega) (by omega)] at hn
  cases (writeFree_spec hcap hμ h.munge hn).symm.trans hf
  exact ⟨hr, writeFreed_appended s a μ _⟩

/-- A sample that does not fit raises an error and else leaves the buffer alone. -/
theorem bufPut_appended (h : InRing s a) {x : BitVec 16} {ret : Int}
    (hp : comediBufPut s a x = .ok (ret, a')) : InRing s a' ∧ Appended a a' := by
  have h₁ := h.writeAllocStrict (n := 2) (by have : (2 : U32).toNat = 2 := rfl; omega)
  unfold comediBufPut at hp
  dsimp only at hp
  split at hp
  · cases hp
    exact ⟨h₁.events _, rfl, rfl, rfl, rfl⟩
  · obtain ⟨⟨m, a₁⟩, hf, hp⟩ := bind_eq_ok hp
    cases hp
    have h₂ := h₁.preallocBuf (blit a.preallocBuf a.bufWritePtr.toNat (samplBytes x))
    obtain ⟨hr, hs⟩ := writeFree_appended h₂ (by have : (2 : U32).toNat = 2 := rfl; omega) hf
    exact ⟨hr, hs.readPtr, hs.bufsz, hs.readCount, hs.readAllocCount⟩

end Comedi.CfcWrites
