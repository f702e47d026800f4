import Comedi.Serial2002Open

namespace Comedi.Serial2002Readback

open ChanlistCheck Compaction Serial2002 Serial2002Open

/-- The values of the configuration messages that are read from the line. -/
def configMessages (tty : List (BitVec 8)) : List U64 :=
  let data := serialRead tty
  if h : continues data.1 then
    have : data.2.length < tty.length := serialRead_length h
    data.1.value :: configMessages data.2
  else []
termination_by tty.length

def concerns (table : Table) (j : Nat) (m : U64) : Bool :=
  curConfig (kindOf m) = some table ∧ channelOf m = j

/-- The last message about physical channel `j` of the subdevice's table gives it the kind of the
subdevice. -/
def ConfiguredAs (messages : List U64) (u : SubdevIndex) (j : Nat) : Prop :=
  ∃ m ∈ (messages.filter (concerns (tableOf u) j)).getLast?, kindOf m = kindOfSubdev u

/-- The maps of all subdevices are one to one, and reach the channels of their kind only. -/
structure MapsExactly (messages : List U64) (d : Dev) : Prop where
  injective : ∀ u, ∀ c < (d.subdevices u).nChan, ∀ c' < (d.subdevices u).nChan,
    d.devpriv.mapping u c = d.devpriv.mapping u c' → c = c'
  covers : ∀ u j, ConfiguredAs messages u j ↔
    ∃ c < (d.subdevices u).nChan, d.devpriv.mapping u c = j

def outputs (d : Dev) : Nat := (d.subdevices .analogOut).nChan

def lastWritten (insns : List AoInsn) (chan : Nat) : Option U32 :=
  (insns.flatMap fun i => if (crChan i.chanspec).toNat = chan then i.data else []).getLast?

/-- After any sequence of writes a read of a logical channel gives what was last written to it. -/
def ReadsBack (d : Dev) : Prop :=
  ∀ insns : List AoInsn, (∀ i ∈ insns, (crChan i.chanspec).toNat < outputs d) →
    ∀ chanspec n x, (crChan chanspec).toNat < outputs d →
      lastWritten insns (crChan chanspec).toNat = some x →
        serial2002AoRinsn (insns.foldl serial2002AoWinsn d) chanspec n = List.replicate n x

/-- The channels that messages declare as analog outputs start at 0 and leave none out. -/
def OutputsFromZero (messages : List U64) : Prop :=
  ∀ m ∈ messages, kindOf m = 4 → ∀ j < channelOf m, ∃ m' ∈ messages,
    kindOf m' = 4 ∧ channelOf m' = j

variable {mem : Memory} {configs : Configs} {u v : SubdevIndex} {us : List SubdevIndex} {d : Dev}
  {messages : List U64} {tty : List (BitVec 8)} {j : Nat}

theorem readConfig_eq (configs : Configs) (tty : List (BitVec 8)) :
    (readConfig configs tty).1 = (configMessages tty).foldl configure configs := by
  induction configs, tty using readConfig.induct with
  | case1 configs tty data h _ ih =>
    unfold readConfig configMessages
    rw [dif_pos h, dif_pos h, List.foldl_cons]
    exact ih
  | case2 configs tty data h =>
    unfold readConfig configMessages
    rw [dif_neg h, dif_neg h, List.foldl_nil]

theorem Config.command_kind (c : Config) (value : U64) : (c.command value).kind = c.kind := by
  unfold Serial2002Open.Config.command
  split <;> rfl

/-- A message changes the kind of the one entry that it is about. -/
theorem configure_kind (configs : Configs) (m : U64) (t : Table) (j : Nat) :
    (configure configs m t j).kind = if concerns t j m then kindOf m else (configs t j).kind := by
  unfold configure concerns
  cases hc : curConfig (kindOf m) with
  | none => exact (if_neg (by simp)).symm
  | some table =>
    dsimp only
    by_cases ht : t = table
    · subst ht
      rw [Function.update_self]
      by_cases hj : j = channelOf m
      · subst hj
        rw [Function.update_self, if_pos (by simp)]
        exact Config.command_kind ..
      · rw [Function.update_of_ne hj, if_neg (by simp [Ne.symm hj])]
    · rw [Function.update_of_ne ht, if_neg (by simp [Ne.symm ht])]

theorem foldl_configure_kind (messages : List U64) (configs : Configs) (t : Table) (j : Nat) :
    (messages.foldl configure configs t j).kind =
      ((messages.filter (concerns t j)).getLast?).elim (configs t j).kind kindOf := by
  induction messages generalizing configs with
  | nil => rfl
  | cons m messages ih =>
    rw [List.foldl_cons, ih, configure_kind]
    by_cases h : concerns t j m
    · rw [if_pos h, List.filter_cons_of_pos h, List.getLast?_cons]
      cases (messages.filter (concerns t j)).getLast? <;> rfl
    · rw [if_neg h, List.filter_cons_of_neg h]

theorem kindOfSubdev_ne_zero (u : SubdevIndex) : 0 ≠ kindOfSubdev u := by
  cases u <;> decide

theorem configuredAs_iff :
    ConfiguredAs messages u j ↔
      (messages.foldl configure noConfigs (tableOf u) j).kind = kindOfSubdev u := by
  rw [foldl_configure_kind]
  unfold ConfiguredAs
  cases (messages.filter (concerns (tableOf u) j)).getLast? with
  | none => exact ⟨nofun, fun h => absurd h (kindOfSubdev_ne_zero u)⟩
  | some m =>
    constructor
    · rintro ⟨m', hm', hk⟩
      rwa [← Option.some.inj hm'] at hk
    · exact fun h => ⟨m, rfl, h⟩

theorem channelOf_lt (m : U64) : channelOf m < 32 := by
  unfold channelOf
  rw [BitVec.toNat_and]
  exact Nat.lt_of_le_of_lt Nat.and_le_right (by decide)

theorem ConfiguredAs.lt (h : ConfiguredAs messages u j) : j < 32 := by
  obtain ⟨m, hm, -⟩ := h
  have hf := List.mem_filter.mp (List.mem_of_getLast? hm)
  have hc := of_decide_eq_true hf.2
  exact hc.2 ▸ channelOf_lt m

theorem curConfig_chanOut {k : Nat} : curConfig k = some .chanOutConfig ↔ k = 4 := by
  unfold curConfig
  split <;> simp_all

/-- The table of the analog outputs has entries of one kind only. -/
theorem configuredAs_analogOut :
    ConfiguredAs messages .analogOut j ↔ ∃ m ∈ messages, kindOf m = 4 ∧ channelOf m = j := by
  constructor
  · rintro ⟨m, hm, hk⟩
    have hf := List.mem_filter.mp (List.mem_of_getLast? hm)
    exact ⟨m, hf.1, hk, (of_decide_eq_true hf.2).2⟩
  · rintro ⟨m, hm, hk, hj⟩
    have hf : m ∈ messages.filter (concerns .chanOutConfig j) :=
      List.mem_filter.mpr ⟨hm, decide_eq_true ⟨curConfig_chanOut.mpr hk, hj⟩⟩
    have hne := List.ne_nil_of_mem hf
    have hl := List.mem_filter.mp (List.getLast_mem hne)
    exact ⟨_, List.getLast?_eq_some_getLast hne,
      curConfig_chanOut.mp (of_decide_eq_true hl.2).1⟩

theorem outputsFromZero_iff :
    OutputsFromZero messages ↔ ∀ j, ConfiguredAs messages .analogOut j →
      ∀ i < j, ConfiguredAs messages .analogOut i := by
  constructor
  · intro h j hj i hi
    obtain ⟨m, hm, hk, rfl⟩ := configuredAs_analogOut.mp hj
    exact configuredAs_analogOut.mpr (h m hm hk i hi)
  · intro h m hm hk j hj
    exact configuredAs_analogOut.mp
      (h _ (configuredAs_analogOut.mpr ⟨m, hm, hk, rfl⟩) j hj)

def ofKind (u : SubdevIndex) (c : Nat → Config) (j : Nat) : Bool := (c j).kind = kindOfSubdev u

/-- The map that the loop over the channels builds, and how many it finds. -/
def built (configs : Configs) (u : SubdevIndex) (mapping : Nat → Nat) : Slots Nat :=
  compact (ofKind u (configs (tableOf u))) ⟨0, mapping⟩ (List.range 32)

theorem listRange_chan (array : Option RangeArray) (c : Config) (l : Listing) :
    (listRange array j c l).chan = l.chan ∧ (listRange array j c l).mapping = l.mapping := by
  cases array <;> exact ⟨rfl, rfl⟩

/-- Each round of the loop is one step of the compaction. -/
theorem foldl_listChannel (c : Nat → Config) (l : Listing) (js : List Nat) :
    (js.foldl (listChannel u c) l).mapping =
      (compact (ofKind u c) ⟨l.chan, l.mapping⟩ js).slot := by
  induction js generalizing l with
  | nil => rfl
  | cons j js ih =>
    rw [List.foldl_cons, ih]
    by_cases h : (c j).kind = kindOfSubdev u
    · have hp : ofKind u c j = true := decide_eq_true h
      rw [compact_cons_of_pos hp]
      unfold listChannel
      rw [if_pos h]
      dsimp only
      rw [(listRange_chan ..).1, (listRange_chan ..).2]
      rfl
    · have hp : ¬ ofKind u c j = true := mt of_decide_eq_true h
      rw [compact_cons_of_neg hp]
      unfold listChannel
      rw [if_neg h]

theorem countChannels_eq (configs : Configs) (u : SubdevIndex) (mapping : Nat → Nat) :
    countChannels u (configs (tableOf u)) = (built configs u mapping).count := by
  unfold countChannels built
  rw [compact_count, Nat.zero_add, List.countP_eq_length_filter]
  rfl

/-- What a round of the loop over the subdevices does when it does not break. -/
structure Filled (configs : Configs) (u : SubdevIndex) (d d' : Dev) : Prop where
  mapping : d'.devpriv.mapping u = (built configs u (d.devpriv.mapping u)).slot
  nChan : (d'.subdevices u).nChan = (built configs u (d.devpriv.mapping u)).count

structure Kept (u : SubdevIndex) (d d' : Dev) : Prop where
  mapping : d'.devpriv.mapping u = d.devpriv.mapping u
  nChan : (d'.subdevices u).nChan = (d.subdevices u).nChan

theorem fillIn_filled (h : (fillIn mem configs u d).1 = true) :
    Filled configs u d (fillIn mem configs u d).2 := by
  unfold fillIn at h ⊢
  dsimp only at h ⊢
  split
  · next hm =>
    rw [if_pos hm] at h
    exact nomatch h
  · next hm =>
    rw [if_neg hm] at h
    split
    · next hr =>
      rw [if_pos hr] at h
      exact nomatch h
    · constructor
      · dsimp only
        rw [Function.update_self]
        exact foldl_listChannel ..
      · dsimp only
        rw [Function.update_self]
        exact countChannels_eq ..

theorem fillIn_kept (hv : v ≠ u) : Kept v d (fillIn mem configs u d).2 := by
  unfold fillIn
  dsimp only
  split
  · exact ⟨rfl, congrArg _ (Function.update_of_ne hv ..)⟩
  · split
    · exact ⟨rfl, congrArg _ (Function.update_of_ne hv ..)⟩
    · exact ⟨Function.update_of_ne hv .., congrArg _ (Function.update_of_ne hv ..)⟩

theorem fillAll_kept (h : (fillAll mem configs us d).1 = true) (hv : v ∉ us) :
    Kept v d (fillAll mem configs us d).2 := by
  induction us generalizing d with
  | nil => exact ⟨rfl, rfl⟩
  | cons u us ih =>
    unfold fillAll at h ⊢
    dsimp only at h ⊢
    have hne := not_or.mp (mt List.mem_cons.mpr hv)
    have hfirst : Kept v d (fillIn mem configs u d).2 := fillIn_kept hne.1
    split
    · next hf =>
      rw [if_pos hf] at h
      have hrest := ih h hne.2
      exact ⟨hrest.mapping.trans hfirst.mapping, hrest.nChan.trans hfirst.nChan⟩
    · exact hfirst

theorem fillAll_filled (hn : us.Nodup) (h : (fillAll mem configs us d).1 = true) (hu : u ∈ us) :
    Filled configs u d (fillAll mem configs us d).2 := by
  induction us generalizing d with
  | nil => exact absurd hu List.not_mem_nil
  | cons v us ih =>
    have hnotin := (List.nodup_cons.mp hn).1
    have hrestn := (List.nodup_cons.mp hn).2
    unfold fillAll at h ⊢
    dsimp only at h ⊢
    split
    · next hf =>
      rw [if_pos hf] at h
      rcases List.mem_cons.mp hu with rfl | hu
      · have hfilled : Filled configs u d (fillIn mem configs u d).2 := fillIn_filled hf
        have hkept : Kept u _ _ := fillAll_kept h hnotin
        exact ⟨hkept.mapping.trans hfilled.mapping, hkept.nChan.trans hfilled.nChan⟩
      · have hkept : Kept u d (fillIn mem configs v d).2 :=
          fillIn_kept (ne_of_mem_of_not_mem hu hnotin)
        have hfilled := ih hrestn h hu
        refine ⟨?_, ?_⟩
        · rw [hfilled.mapping, hkept.mapping]
        · rw [hfilled.nChan, hkept.mapping]
    · next hf =>
      rw [if_neg hf] at h
      exact absurd h hf

theorem enomem_ne : -enomem ≠ 0 := by
  decide

theorem mem_subdevs (u : SubdevIndex) : u ∈ subdevs := by
  cases u <;> decide

/-- After `serial_2002_open` each map enumerates the channels of its kind. -/
theorem open_enumerates (h : (serial2002Open mem (.ok tty) d).1 = 0) (u : SubdevIndex) :
    Enumerates ((serial2002Open mem (.ok tty) d).2.subdevices u).nChan
      ((serial2002Open mem (.ok tty) d).2.devpriv.mapping u)
      (ConfiguredAs (configMessages tty) u) := by
  unfold serial2002Open at h ⊢
  dsimp only at h ⊢
  split
  · next hm =>
    rw [if_pos hm] at h
    exact absurd h enomem_ne
  · next hm =>
    rw [if_neg hm] at h
    split
    · next hf =>
      have hfilled := fillAll_filled (by decide) hf (mem_subdevs u)
      rw [hfilled.mapping, hfilled.nChan]
      have henum := enumerates_compact (ofKind u ((readConfig noConfigs tty).1 (tableOf u)))
        (d.devpriv.mapping u) 32
      have hq : (fun j => j < 32 ∧ ofKind u ((readConfig noConfigs tty).1 (tableOf u)) j = true) =
          ConfiguredAs (configMessages tty) u := by
        funext j
        unfold ofKind
        rw [decide_eq_true_eq, readConfig_eq, ← configuredAs_iff]
        exact propext ⟨fun hj => hj.2, fun hj => ⟨hj.lt, hj⟩⟩
      rw [hq] at henum
      exact henum
    · next hf =>
      rw [if_neg hf] at h
      exact absurd h enomem_ne

theorem open_mapsExactly (h : (serial2002Open mem (.ok tty) d).1 = 0) :
    MapsExactly (configMessages tty) (serial2002Open mem (.ok tty) d).2 := by
  constructor
  · intro u c hc c' hc' he
    exact (open_enumerates h u).injective hc hc' he
  · intro u j
    constructor
    · exact (open_enumerates h u).complete j
    · rintro ⟨c, hc, rfl⟩
      exact (open_enumerates h u).sound c hc

/-- A write leaves everything but the read-back array of its physical channel. -/
theorem foldl_aoWrite (chan : Nat) (data : List U32) (d : Dev) :
    (data.foldl (aoWrite chan) d).devpriv.mapping = d.devpriv.mapping ∧
      ∀ j, (data.foldl (aoWrite chan) d).devpriv.aoReadback j =
        if j = chan then data.getLast?.getD (d.devpriv.aoReadback j)
        else d.devpriv.aoReadback j := by
  induction data generalizing d with
  | nil => exact ⟨rfl, fun j => (ite_self _).symm⟩
  | cons x data ih =>
    rw [List.foldl_cons]
    refine ⟨(ih _).1, fun j => ?_⟩
    rw [(ih _).2 j]
    unfold aoWrite
    dsimp only [Dev.send]
    split
    · next hj =>
      rw [hj, Function.update_self, List.getLast?_cons]
      rfl
    · next hj => rw [Function.update_of_ne hj]

theorem winsn_readback (i : AoInsn) (d : Dev) :
    (serial2002AoWinsn d i).devpriv.mapping = d.devpriv.mapping ∧
      ∀ j, (serial2002AoWinsn d i).devpriv.aoReadback j =
        if j = d.devpriv.mapping .analogOut (crChan i.chanspec).toNat then
          i.data.getLast?.getD (d.devpriv.aoReadback j)
        else d.devpriv.aoReadback j :=
  foldl_aoWrite ..

theorem lastWritten_cons (i : AoInsn) (insns : List AoInsn) (c : Nat) :
    lastWritten (i :: insns) c = (lastWritten insns c).or
      (if (crChan i.chanspec).toNat = c then i.data.getLast? else none) := by
  unfold lastWritten
  rw [List.flatMap_cons, List.getLast?_append]
  split <;> rfl

/-- Where the map is the identity, the read-back array holds what was last written. -/
theorem foldl_winsn_readback {n : Nat} (c : Nat) (insns : List AoInsn)
    (hin : ∀ i ∈ insns, (crChan i.chanspec).toNat < n) (d : Dev)
    (hid : ∀ k < n, d.devpriv.mapping .analogOut k = k) :
    (insns.foldl serial2002AoWinsn d).devpriv.aoReadback c =
      (lastWritten insns c).getD (d.devpriv.aoReadback c) := by
  induction insns generalizing d with
  | nil => rfl
  | cons i insns ih =>
    obtain ⟨hmap, hread⟩ := winsn_readback i d
    have hi := hin i List.mem_cons_self
    rw [List.foldl_cons, ih (fun i' h' => hin i' (List.mem_cons_of_mem i h')) _
      (by rw [hmap]; exact hid), hread c, hid _ hi, lastWritten_cons]
    cases lastWritten insns c with
    | some x => rfl
    | none =>
      by_cases he : c = (crChan i.chanspec).toNat
      · rw [if_pos he, if_pos he.symm]
        rfl
      · rw [if_neg he, if_neg (Ne.symm he)]
        rfl

theorem crChan_ofNat {c : Nat} (hc : c < 65536) : (crChan (BitVec.ofNat 32 c)).toNat = c := by
  unfold crChan
  rw [BitVec.toNat_and, BitVec.toNat_ofNat, Nat.mod_eq_of_lt (by omega)]
  exact (Nat.and_two_pow_sub_one_eq_mod c 16).trans (Nat.mod_eq_of_lt hc)

theorem readsBack_iff (hsize : outputs d ≤ 65536) :
    ReadsBack d ↔ ∀ c < outputs d, d.devpriv.mapping .analogOut c = c := by
  constructor
  · intro h c hc
    by_contra hne
    -- one value that is not in the array yet is written to the channel
    let x := d.devpriv.aoReadback c + 1
    let i : AoInsn := ⟨BitVec.ofNat 32 c, [x]⟩
    have hchan : (crChan i.chanspec).toNat = c := crChan_ofNat (by omega)
    have hlast : lastWritten [i] (crChan i.chanspec).toNat = some x := by
      rw [lastWritten_cons, if_pos rfl]
      rfl
    have hread := h [i] (by simpa [hchan] using hc) i.chanspec 1 x (by rwa [hchan]) hlast
    unfold serial2002AoRinsn at hread
    rw [List.foldl_cons, List.foldl_nil, hchan, (winsn_readback i d).2 c, hchan,
      if_neg (Ne.symm hne)] at hread
    have heq : d.devpriv.aoReadback c = d.devpriv.aoReadback c + 1 := List.head_eq_of_cons_eq hread
    exact absurd heq (by simp)
  · intro hid insns hin chanspec n x hc hlast
    unfold serial2002AoRinsn
    rw [foldl_winsn_readback _ insns hin d hid, hlast]
    rfl

theorem Enumerates.le_of_lt {n size : Nat} {slot : Nat → Nat} {q : Nat → Prop}
    (h : Enumerates n slot q) (hq : ∀ j, q j → j < size) : n ≤ size := by
  cases n with
  | zero => exact Nat.zero_le _
  | succ n =>
    have hs := hq _ (h.sound n (Nat.lt_succ_self n))
    have hle := h.le_slot (Nat.lt_succ_self n)
    omega

/-- The maps are exact for every configuration. What was written is read back when the analog
outputs start at channel 0 and leave none out, and only then: writes store by physical channel,
reads look up the logical one. -/
theorem read_back_iff (mem : Memory) (tty : List (BitVec 8)) (d : Dev)
    (h : (serial2002Open mem (.ok tty) d).1 = 0) :
    MapsExactly (configMessages tty) (serial2002Open mem (.ok tty) d).2 ∧
      (ReadsBack (serial2002Open mem (.ok tty) d).2 ↔ OutputsFromZero (configMessages tty)) := by
  have henum := open_enumerates h .analogOut
  refine ⟨open_mapsExactly h, ?_⟩
  have hsize := Enumerates.le_of_lt henum (fun j hj => hj.lt)
  rw [readsBack_iff (hsize.trans (by decide)), outputsFromZero_iff]
  exact henum.slot_eq_iff

def allAllocated : Memory := ⟨true, fun _ => true, fun _ => true⟩

def attached : Dev where
  devpriv := ⟨none, [], fun _ => 0, fun _ _ => 0, fun _ _ => ⟨0, 0⟩⟩
  subdevices := fun _ => ⟨0, 1, none, false, none⟩

/-- The device declares one analog output of eight bits, and then sends a message that is none of
the configuration. -/
def declareOutput (channel : U64) : List (BitVec 8) :=
  serialWrite ⟨.isChannel, 31, (8 <<< 10) ||| (4 <<< 5) ||| channel⟩ ++ [0x1f]

theorem read_back_iff_first :
    (serial2002Open allAllocated (.ok (declareOutput 0)) attached).1 = 0 ∧
      MapsExactly (configMessages (declareOutput 0))
        (serial2002Open allAllocated (.ok (declareOutput 0)) attached).2 ∧
      (ReadsBack (serial2002Open allAllocated (.ok (declareOutput 0)) attached).2 ↔
        OutputsFromZero (configMessages (declareOutput 0))) :=
  have h : (serial2002Open allAllocated (.ok (declareOutput 0)) attached).1 = 0 := by
    decide +kernel
  ⟨h, read_back_iff allAllocated (declareOutput 0) attached h⟩

/-- The only output is physical channel 1: 5 is written to logical channel 0, and 0 is read. -/
theorem second_not_read_back :
    (serial2002Open allAllocated (.ok (declareOutput 1)) attached).1 = 0 ∧
      ¬ ReadsBack (serial2002Open allAllocated (.ok (declareOutput 1)) attached).2 := by
  refine ⟨by decide +kernel, fun h => ?_⟩
  have hread := h [⟨0, [5]⟩] (by decide +kernel) 0 1 5 (by decide +kernel) (by decide +kernel)
  revert hread
  decide +kernel

end Comedi.Serial2002Readback
