import Comedi.BondedChannels
import Mathlib.Data.List.Pairwise

namespace Comedi.BondedOpens

open Bonding

/-- Whether the memory for a subdevice is there, and that for the longer list of subdevices. -/
structure Memory where
  kmalloc : Key → Bool
  realloc : Key → Bool

/-- The private data of the bond with the minors that `comedi_open` has opened. -/
structure Opened where
  bond : Private := {}
  opened : List Nat := []

/-- The loop over the digital subdevices of a board, which is left with `false` on a failure. When
`Realloc` fails, the list is gone. -/
def bondSubdevices (mem : Memory) (minor : Nat) :
    List (Nat × Nat) → Opened → Except Overrun (Bool × Opened)
  | [], o => .ok (true, o)
  | (subdev, nchans) :: rest, o =>
    if nchans = 0 then .ok (false, o)
    else if mem.kmalloc (minor, subdev) = false then .ok (false, o)
    else if maxChans < o.bond.nchans + nchans then .error .chanIdDevMap
    else if mem.realloc (minor, subdev) = false then
      .ok (false, { o with bond := { o.bond.bond minor subdev nchans with devs := [] } })
    else bondSubdevices mem minor rest { o with bond := o.bond.bond minor subdev nchans }

def bondBoards (self : Nat) (boards : Boards) (mem : Memory) :
    List Int → Opened → Except Overrun (Bool × Opened)
  | [], o => .ok (true, o)
  | option :: options, o =>
    let minor := option.toNat
    if option < 0 ∨ comediNumBoardMinors ≤ minor then .ok (false, o)
    else if minor = self then .ok (false, o)
    else if minor ∈ o.opened then .ok (false, o)
    else
      match boards minor with
      | none => .ok (false, o)
      | some subdevices => do
        let (ok, o) ← bondSubdevices mem minor (dioSubdevices subdevices)
          { o with opened := minor :: o.opened }
        if ok then bondBoards self boards mem options o else .ok (false, o)

/-- What `doDevConfig` returns, with what it has opened and bonded when it does so. -/
def doDevConfig (self : Nat) (options : List Int) (boards : Boards) (mem : Memory) :
    Except Overrun (Bool × Opened) := do
  let (ok, o) ← bondBoards self boards mem (usedOptions options) {}
  .ok (ok && o.bond.nchans != 0, o)

/-- `0x1 << bdev->minor`, an `int`, as an `unsigned long`. The processor takes the count of a shift
modulo 32. -/
def minorBit (minor : Nat) : BitVec 64 := ((1#32) <<< (minor % 32)).signExtend 64

/-- The minors that the loop of `doDevUnconfig` closes. -/
def closeLoop : List BondedDevice → BitVec 64 → List Nat
  | [], _ => []
  | bdev :: devs, devsClosed =>
    if devsClosed &&& minorBit bdev.minor = 0 then
      bdev.minor :: closeLoop devs (devsClosed ||| minorBit bdev.minor)
    else closeLoop devs devsClosed

def doDevUnconfig (p : Private) : List Nat := closeLoop p.devs.reverse 0

/-- Numbers of different bits. -/
def Apart (m m' : Nat) : Prop := m % 32 ≠ m' % 32

instance : Std.Symm Apart := ⟨fun _ _ h => h.symm⟩

section Inputs

variable (self : Nat) (boards : Boards) (mem : Memory)

/-- With enough memory, this is the configuration as it was modelled without its failures. -/
def plentiful : Memory where
  kmalloc _ := true
  realloc _ := true

/-- The option is the minor of a board that can be opened, and is not yet. -/
structure Opens (own : Nat) (opened : List Nat) (option : Int) : Prop where
  nonneg : 0 ≤ option
  lt : option.toNat < comediNumBoardMinors
  ne_own : option.toNat ≠ own
  not_mem : option.toNat ∉ opened

/-- The subdevice can be bonded. -/
structure Bonds (minor : Nat) (s : Nat × Nat) : Prop where
  channels : 0 < s.2
  kmalloc : mem.kmalloc (minor, s.1) = true
  realloc : mem.realloc (minor, s.1) = true

/-- For every subdevice that is come to, the map has room for its channels and the list can be made
longer. -/
def Room (minor : Nat) : List (Nat × Nat) → Nat → Prop
  | [], _ => True
  | s :: subs, n =>
    0 < s.2 → mem.kmalloc (minor, s.1) = true →
      n + s.2 ≤ maxChans ∧ mem.realloc (minor, s.1) = true ∧ Room minor subs (n + s.2)

/-- Every board that is opened has its own number modulo 32, and its first digital subdevice can be
bonded; and no list is lost or map overrun. -/
def Kept : List Int → List Nat → Nat → Prop
  | [], _, _ => True
  | option :: options, opened, n =>
    ∀ subdevices, Opens self opened option → boards option.toNat = some subdevices →
      (∀ m ∈ opened, Apart option.toNat m) ∧
      (∃ s rest, dioSubdevices subdevices = s :: rest ∧ Bonds mem option.toNat s) ∧
      Room mem option.toNat (dioSubdevices subdevices) n ∧
      ((∀ s ∈ dioSubdevices subdevices, Bonds mem option.toNat s) →
        Kept options (option.toNat :: opened) (n + ((dioSubdevices subdevices).map (·.2)).sum))

/-- Each board that has been opened is closed once, and no other; and the map is not overrun. -/
def Balanced (options : List Int) : Prop :=
  ∃ ret o, doDevConfig self options boards mem = .ok (ret, o) ∧
    (doDevUnconfig o.bond).Perm o.opened

end Inputs

variable {self minor : Nat} {boards : Boards} {mem : Memory} {o : Opened}

section Close

theorem minorBit_and (m m' : Nat) : minorBit m &&& minorBit m' ≠ 0 ↔ m % 32 = m' % 32 := by
  have hall : ∀ a b : Fin 32, ((1#32) <<< a.val).signExtend 64 &&& ((1#32) <<< b.val).signExtend 64
      ≠ 0 ↔ a.val = b.val := by
    decide +kernel
  exact hall ⟨m % 32, Nat.mod_lt _ (by decide)⟩ ⟨m' % 32, Nat.mod_lt _ (by decide)⟩

theorem or_and_ne_zero (a b c : BitVec 64) : (a ||| b) &&& c ≠ 0 ↔ a &&& c ≠ 0 ∨ b &&& c ≠ 0 := by
  have hzero : (a &&& c) ||| (b &&& c) = 0 ↔ a &&& c = 0 ∧ b &&& c = 0 := BitVec.or_eq_zero_iff
  rw [BitVec.and_or_distrib_right, Ne, hzero, not_and_or]

/-- The bits of the minors with the remainders in `rs`. -/
def Marked (devsClosed : BitVec 64) (rs : List Nat) : Prop :=
  ∀ m, devsClosed &&& minorBit m ≠ 0 ↔ m % 32 ∈ rs

theorem Marked.zero : Marked 0 [] := fun m => by
  have hzero : (0 : BitVec 64) &&& minorBit m = 0 := BitVec.zero_and
  rw [hzero]
  simp

theorem Marked.add {devsClosed : BitVec 64} {rs : List Nat} (h : Marked devsClosed rs) (m : Nat) :
    Marked (devsClosed ||| minorBit m) (m % 32 :: rs) := fun m' => by
  rw [or_and_ne_zero, h m', minorBit_and, List.mem_cons, or_comm, eq_comm]

/-- Of the minors of the list, one is closed for each remainder. -/
structure Closes (devs : List BondedDevice) (rs closed : List Nat) : Prop where
  mem : ∀ m ∈ closed, ∃ b ∈ devs, b.minor = m
  fresh : ∀ m ∈ closed, m % 32 ∉ rs
  apart : closed.Pairwise Apart
  all : ∀ b ∈ devs, b.minor % 32 ∈ rs ∨ ∃ m ∈ closed, m % 32 = b.minor % 32

theorem closeLoop_closes (devs : List BondedDevice) {devsClosed : BitVec 64} {rs : List Nat}
    (h : Marked devsClosed rs) : Closes devs rs (closeLoop devs devsClosed) := by
  induction devs generalizing devsClosed rs with
  | nil => exact ⟨nofun, nofun, List.Pairwise.nil, nofun⟩
  | cons b devs ih =>
    unfold closeLoop
    split
    · next hzero =>
      have hnew : b.minor % 32 ∉ rs := fun hmem => (h b.minor).mpr hmem hzero
      have hrest := ih (h.add b.minor)
      constructor
      · intro m hm
        rcases List.mem_cons.mp hm with rfl | hm
        · exact ⟨b, List.mem_cons_self, rfl⟩
        · obtain ⟨b', hb', heq⟩ := hrest.mem m hm
          exact ⟨b', List.mem_cons_of_mem _ hb', heq⟩
      · intro m hm
        rcases List.mem_cons.mp hm with rfl | hm
        · exact hnew
        · exact fun hmem => hrest.fresh m hm (List.mem_cons_of_mem _ hmem)
      · exact List.pairwise_cons.mpr
          ⟨fun m hm heq => hrest.fresh m hm (heq ▸ List.mem_cons_self), hrest.apart⟩
      · intro b' hb'
        rcases List.mem_cons.mp hb' with rfl | hb'
        · exact .inr ⟨_, List.mem_cons_self, rfl⟩
        · rcases hrest.all b' hb' with hmem | ⟨m, hm, heq⟩
          · rcases List.mem_cons.mp hmem with heq | hmem
            · exact .inr ⟨_, List.mem_cons_self, heq.symm⟩
            · exact .inl hmem
          · exact .inr ⟨m, List.mem_cons_of_mem _ hm, heq⟩
    · next hne =>
      have hold : b.minor % 32 ∈ rs := (h b.minor).mp hne
      have hrest := ih h
      refine ⟨fun m hm => ?_, hrest.fresh, hrest.apart, fun b' hb' => ?_⟩
      · obtain ⟨b', hb', heq⟩ := hrest.mem m hm
        exact ⟨b', List.mem_cons_of_mem _ hb', heq⟩
      · rcases List.mem_cons.mp hb' with rfl | hb'
        · exact .inl hold
        · exact hrest.all b' hb'

/-- The board has a subdevice on the list. -/
def Listed (o : Opened) (minor : Nat) : Prop := ∃ b ∈ o.bond.devs, b.minor = minor

structure Inv (o : Opened) : Prop where
  nodup : o.opened.Nodup
  listed : ∀ m, Listed o m → m ∈ o.opened

/-- All that is opened will be closed. -/
structure Closable (o : Opened) : Prop where
  listed : ∀ m ∈ o.opened, Listed o m
  apart : o.opened.Pairwise Apart

theorem unconfig_perm_iff (h : Inv o) :
    (doDevUnconfig o.bond).Perm o.opened ↔ Closable o := by
  have hc : Closes o.bond.devs.reverse [] (doDevUnconfig o.bond) :=
    closeLoop_closes o.bond.devs.reverse Marked.zero
  constructor
  · intro hperm
    refine ⟨fun m hm => ?_, (hperm.pairwise_iff fun h => h.symm).mp hc.apart⟩
    obtain ⟨b, hb, heq⟩ := hc.mem m (hperm.mem_iff.mpr hm)
    exact ⟨b, List.mem_reverse.mp hb, heq⟩
  · intro hcl
    have hnd : (doDevUnconfig o.bond).Nodup :=
      hc.apart.imp fun hne heq => hne (congrArg (· % 32) heq)
    refine (List.perm_ext_iff_of_nodup hnd h.nodup).mpr fun m => ⟨fun hm => ?_, fun hm => ?_⟩
    · obtain ⟨b, hb, heq⟩ := hc.mem m hm
      exact h.listed m ⟨b, List.mem_reverse.mp hb, heq⟩
    · obtain ⟨b, hb, heq⟩ := hcl.listed m hm
      rcases hc.all b (List.mem_reverse.mpr hb) with hnil | ⟨m', hm', hrem⟩
      · exact absurd hnil List.not_mem_nil
      · obtain ⟨b', hb', heq'⟩ := hc.mem m' hm'
        have hopen : m' ∈ o.opened := h.listed m' ⟨b', List.mem_reverse.mp hb', heq'⟩
        have hsame : m' = m := by
          by_contra hne
          rw [heq] at hrem
          exact hcl.apart.forall hopen hm hne hrem
        exact hsame ▸ hm'

end Close

section Subdevices

/-- What the loop over the subdevices leaves. -/
structure Extends (minor : Nat) (o o' : Opened) : Prop where
  opened : o'.opened = o.opened
  minors : ∀ m, Listed o' m → Listed o m ∨ m = minor

theorem bond_listed {subdev nchans m : Nat} :
    Listed { o with bond := o.bond.bond minor subdev nchans } m ↔ Listed o m ∨ m = minor := by
  constructor
  · rintro ⟨b, hb, rfl⟩
    rcases List.mem_append.mp hb with hb | hb
    · exact .inl ⟨b, hb, rfl⟩
    · rw [List.mem_singleton.mp hb]
      exact .inr rfl
  · rintro (⟨b, hb, heq⟩ | rfl)
    · exact ⟨b, List.mem_append_left _ hb, heq⟩
    · exact ⟨_, List.mem_append_right _ (List.mem_singleton_self _), rfl⟩

theorem bondSubdevices_extends {subs : List (Nat × Nat)} {ok : Bool} {o' : Opened}
    (h : bondSubdevices mem minor subs o = .ok (ok, o')) : Extends minor o o' := by
  induction subs generalizing o with
  | nil =>
    cases h
    exact ⟨rfl, fun m hm => .inl hm⟩
  | cons s subs ih =>
    unfold bondSubdevices at h
    split at h
    · cases h
      exact ⟨rfl, fun m hm => .inl hm⟩
    split at h
    · cases h
      exact ⟨rfl, fun m hm => .inl hm⟩
    split at h
    · cases h
    split at h
    · cases h
      exact ⟨rfl, fun m ⟨b, hb, _⟩ => absurd hb List.not_mem_nil⟩
    · have hrest := ih h
      refine ⟨hrest.opened, fun m hm => ?_⟩
      rcases hrest.minors m hm with hm | rfl
      · exact bond_listed.mp hm
      · exact .inr rfl

/-- With room, the subdevices are bonded up to the first that cannot be. -/
theorem bondSubdevices_of_room {subs : List (Nat × Nat)} (h : Room mem minor subs o.bond.nchans) :
    ∃ ok o', bondSubdevices mem minor subs o = .ok (ok, o') ∧
      (ok = true ↔ ∀ s ∈ subs, Bonds mem minor s) ∧
      (ok = true → o'.bond.nchans = o.bond.nchans + (subs.map (·.2)).sum) ∧
      (∀ m, Listed o m → Listed o' m) ∧
      (Listed o' minor ↔ Listed o minor ∨ ∃ s rest, subs = s :: rest ∧ Bonds mem minor s) := by
  induction subs generalizing o with
  | nil =>
    refine ⟨true, o, rfl, iff_of_true rfl nofun, fun _ => rfl, fun m hm => hm, .inl, ?_⟩
    rintro (hm | ⟨_, _, heq, -⟩)
    · exact hm
    · cases heq
  | cons s subs ih =>
    have hstop (hs : ¬ Bonds mem minor s)
        (heq : bondSubdevices mem minor (s :: subs) o = .ok (false, o)) :
        ∃ ok o', bondSubdevices mem minor (s :: subs) o = .ok (ok, o') ∧
          (ok = true ↔ ∀ s' ∈ s :: subs, Bonds mem minor s') ∧
          (ok = true → o'.bond.nchans = o.bond.nchans + ((s :: subs).map (·.2)).sum) ∧
          (∀ m, Listed o m → Listed o' m) ∧
          (Listed o' minor ↔
            Listed o minor ∨ ∃ s' rest, s :: subs = s' :: rest ∧ Bonds mem minor s') := by
      refine ⟨false, o, heq, iff_of_false nofun fun hall => hs (hall s List.mem_cons_self), nofun,
        fun m hm => hm, .inl, ?_⟩
      rintro (hm | ⟨s', rest, he, hb⟩)
      · exact hm
      · cases he
        exact absurd hb hs
    by_cases hn : s.2 = 0
    · refine hstop (fun hb => absurd hn (Nat.pos_iff_ne_zero.mp hb.channels)) ?_
      exact if_pos hn
    by_cases hk : mem.kmalloc (minor, s.1) = false
    · refine hstop (fun hb => absurd (hk.symm.trans hb.kmalloc) nofun) ?_
      exact (if_neg hn).trans (if_pos hk)
    obtain ⟨hle, hr, hroom⟩ := h (Nat.pos_of_ne_zero hn) (Bool.eq_true_of_not_eq_false hk)
    have hb : Bonds mem minor s := ⟨Nat.pos_of_ne_zero hn, Bool.eq_true_of_not_eq_false hk, hr⟩
    have heq : bondSubdevices mem minor (s :: subs) o =
        bondSubdevices mem minor subs { o with bond := o.bond.bond minor s.1 s.2 } := by
      refine (if_neg hn).trans ((if_neg hk).trans ((if_neg (Nat.not_lt.mpr hle)).trans ?_))
      exact if_neg (by rw [hr]; nofun)
    obtain ⟨ok, o', hok, hall, hsum, hmono, -⟩ :=
      ih (o := { o with bond := o.bond.bond minor s.1 s.2 }) hroom
    refine ⟨ok, o', heq.trans hok, ?_, fun htrue => ?_, fun m hm => ?_, ?_⟩
    · rw [hall]
      exact ⟨fun hs => List.forall_mem_cons.mpr ⟨hb, hs⟩, fun hs => (List.forall_mem_cons.mp hs).2⟩
    · rw [hsum htrue, List.map_cons, List.sum_cons, ← Nat.add_assoc]
      rfl
    · exact hmono m (bond_listed.mpr (.inl hm))
    · exact iff_of_true (hmono minor (bond_listed.mpr (.inr rfl))) (.inr ⟨s, subs, rfl, hb⟩)

/-- Without it, the map is overrun or the list is lost. -/
theorem bondSubdevices_of_not_room {subs : List (Nat × Nat)}
    (h : ¬ Room mem minor subs o.bond.nchans) {ok : Bool} {o' : Opened}
    (heq : bondSubdevices mem minor subs o = .ok (ok, o')) : ok = false ∧ o'.bond.devs = [] := by
  induction subs generalizing o with
  | nil => exact absurd trivial h
  | cons s subs ih =>
    unfold Room at h
    unfold bondSubdevices at heq
    split at heq
    · next hn => exact (h fun hpos => absurd hn (Nat.pos_iff_ne_zero.mp hpos)).elim
    split at heq
    · next hk => exact (h fun _ htrue => absurd (hk.symm.trans htrue) Bool.false_ne_true).elim
    split at heq
    · cases heq
    next hmax =>
    split at heq
    · cases heq
      exact ⟨rfl, rfl⟩
    · next hr =>
      refine ih (fun hroom => h fun _ _ => ?_) heq
      exact ⟨Nat.not_lt.mp hmax, Bool.eq_true_of_not_eq_false hr, hroom⟩

end Subdevices

section Boards

/-- The state in which the board has just been opened. -/
theorem Inv.open (h : Inv o) (hnew : minor ∉ o.opened) :
    Inv { o with opened := minor :: o.opened } where
  nodup := List.nodup_cons.mpr ⟨hnew, h.nodup⟩
  listed m hm := List.mem_cons_of_mem _ (h.listed m hm)

theorem Inv.extends {o' : Opened} (h : Inv o) (hmem : minor ∈ o.opened) (he : Extends minor o o') :
    Inv o' where
  nodup := he.opened ▸ h.nodup
  listed m hm := by
    rw [he.opened]
    rcases he.minors m hm with hm | rfl
    · exact h.listed m hm
    · exact hmem

theorem bondBoards_open {option : Int} {options : List Int} {subdevices : List (Option Nat)}
    (h : Opens self o.opened option) (hb : boards option.toNat = some subdevices) :
    bondBoards self boards mem (option :: options) o = (do
      let (ok, o) ← bondSubdevices mem option.toNat (dioSubdevices subdevices)
        { o with opened := option.toNat :: o.opened }
      if ok then bondBoards self boards mem options o else .ok (false, o)) := by
  have hrange : ¬ (option < 0 ∨ comediNumBoardMinors ≤ option.toNat) := fun hbad =>
    hbad.elim (Int.not_lt.mpr h.nonneg) (Nat.not_le.mpr h.lt)
  conv_lhs => unfold bondBoards
  dsimp only
  rw [if_neg hrange, if_neg h.ne_own, if_neg h.not_mem, hb]

/-- A board is come to, or the loop is left before. -/
theorem bondBoards_cases (boards : Boards) (mem : Memory) (option : Int) (options : List Int)
    (o : Opened) :
    (∃ subdevices, Opens self o.opened option ∧ boards option.toNat = some subdevices) ∨
    (∀ subdevices, Opens self o.opened option → boards option.toNat ≠ some subdevices) ∧
      bondBoards self boards mem (option :: options) o = .ok (false, o) := by
  unfold bondBoards
  dsimp only
  by_cases hrange : option < 0 ∨ comediNumBoardMinors ≤ option.toNat
  · rw [if_pos hrange]
    refine .inr ⟨fun _ hopen => ?_, rfl⟩
    rcases hrange with hneg | hge
    · exact absurd hopen.nonneg (Int.not_le.mpr hneg)
    · exact absurd hopen.lt (Nat.not_lt.mpr hge)
  rw [if_neg hrange]
  by_cases hself : option.toNat = self
  · rw [if_pos hself]
    exact .inr ⟨fun _ hopen => absurd hself hopen.ne_own, rfl⟩
  rw [if_neg hself]
  by_cases hmem : option.toNat ∈ o.opened
  · rw [if_pos hmem]
    exact .inr ⟨fun _ hopen => absurd hmem hopen.not_mem, rfl⟩
  rw [if_neg hmem]
  cases hb : boards option.toNat with
  | none => exact .inr ⟨fun _ _ => nofun, rfl⟩
  | some subdevices =>
    refine .inl ⟨subdevices, ⟨?_, ?_, hself, hmem⟩, rfl⟩
    · exact Int.not_lt.mp fun hneg => hrange (.inl hneg)
    · exact Nat.not_le.mp fun hge => hrange (.inr hge)

/-- What is not closable does not become so. -/
theorem bondBoards_closable {options : List Int} {r : Bool × Opened} (h : Inv o)
    (heq : bondBoards self boards mem options o = .ok r) :
    Inv r.2 ∧ (Closable r.2 → Closable o) := by
  induction options generalizing o with
  | nil =>
    cases heq
    exact ⟨h, id⟩
  | cons option options ih =>
    rcases bondBoards_cases boards mem option options o with ⟨subdevices, hopen, hb⟩ | ⟨-, hrun⟩
    · rw [bondBoards_open hopen hb] at heq
      cases hsub : bondSubdevices mem option.toNat (dioSubdevices subdevices)
          { o with opened := option.toNat :: o.opened } with
      | error e =>
        rw [hsub] at heq
        cases heq
      | ok res =>
        obtain ⟨ok, o'⟩ := res
        rw [hsub] at heq
        have he := bondSubdevices_extends hsub
        have hinv := (h.open hopen.not_mem).extends List.mem_cons_self he
        have hback (hc : Closable o') : Closable o := by
          have hopened : o'.opened = option.toNat :: o.opened := he.opened
          have hapart := hc.apart
          rw [hopened] at hapart
          refine ⟨fun m hm => ?_, (List.pairwise_cons.mp hapart).2⟩
          rcases he.minors m (hc.listed m (hopened ▸ List.mem_cons_of_mem _ hm)) with hold | rfl
          · exact hold
          · exact absurd hm hopen.not_mem
        cases ok with
        | true =>
          obtain ⟨hinv', hback'⟩ := ih hinv heq
          exact ⟨hinv', fun hc => hback (hback' hc)⟩
        | false =>
          cases heq
          exact ⟨hinv, hback⟩
    · rw [hrun] at heq
      cases heq
      exact ⟨h, id⟩

theorem kept_cons {option : Int} {options : List Int} {subdevices : List (Option Nat)}
    {opened : List Nat} {n : Nat} (h : Opens self opened option)
    (hb : boards option.toNat = some subdevices) :
    Kept self boards mem (option :: options) opened n ↔
      (∀ m ∈ opened, Apart option.toNat m) ∧
        (∃ s rest, dioSubdevices subdevices = s :: rest ∧ Bonds mem option.toNat s) ∧
        Room mem option.toNat (dioSubdevices subdevices) n ∧
        ((∀ s ∈ dioSubdevices subdevices, Bonds mem option.toNat s) →
          Kept self boards mem options (option.toNat :: opened)
            (n + ((dioSubdevices subdevices).map (·.2)).sum)) := by
  constructor
  · exact fun hkept => hkept subdevices h hb
  · intro hkept subdevices' _ hb'
    rw [hb] at hb'
    cases hb'
    exact hkept

/-- From a state in which all is closable, it stays so exactly under the condition. -/
theorem bondBoards_iff (options : List Int) (h : Inv o) (hc : Closable o) :
    (∃ r, bondBoards self boards mem options o = .ok r ∧ Closable r.2) ↔
      Kept self boards mem options o.opened o.bond.nchans := by
  induction options generalizing o with
  | nil => exact iff_of_true ⟨_, rfl, hc⟩ trivial
  | cons option options ih =>
    rcases bondBoards_cases boards mem option options o
      with ⟨subdevices, hopen, hb⟩ | ⟨hnot, hrun⟩
    · rw [bondBoards_open hopen hb, kept_cons hopen hb]
      have hinv := h.open hopen.not_mem
      by_cases hroom : Room mem option.toNat (dioSubdevices subdevices) o.bond.nchans
      · obtain ⟨ok, o', hok, hall, hsum, hmono, hfirst⟩ := bondSubdevices_of_room
          (o := { o with opened := option.toNat :: o.opened }) hroom
        have he := bondSubdevices_extends hok
        have hopened : o'.opened = option.toNat :: o.opened := he.opened
        have hinv' := hinv.extends List.mem_cons_self he
        have hclosable : Closable o' ↔ (∀ m ∈ o.opened, Apart option.toNat m) ∧
            ∃ s rest, dioSubdevices subdevices = s :: rest ∧ Bonds mem option.toNat s := by
          constructor
          · intro hc'
            have hapart := hc'.apart
            rw [hopened] at hapart
            refine ⟨(List.pairwise_cons.mp hapart).1, ?_⟩
            rcases hfirst.mp (hc'.listed _ (hopened ▸ List.mem_cons_self)) with hold | hs
            · exact absurd (h.listed _ hold) hopen.not_mem
            · exact hs
          · rintro ⟨hapart, hs⟩
            refine ⟨fun m hm => ?_, hopened ▸ List.pairwise_cons.mpr ⟨hapart, hc.apart⟩⟩
            rw [hopened] at hm
            rcases List.mem_cons.mp hm with rfl | hm
            · exact hfirst.mpr (.inr hs)
            · exact hmono m (hc.listed m hm)
        rw [hok]
        cases ok with
        | true =>
          have hrest (hc' : Closable o') := ih hinv' hc'
          rw [hopened, hsum rfl] at hrest
          constructor
          · rintro ⟨r, hr, hcr⟩
            have hc' := (bondBoards_closable hinv' hr).2 hcr
            obtain ⟨hapart, hs⟩ := hclosable.mp hc'
            exact ⟨hapart, hs, hroom, fun _ => (hrest hc').mp ⟨r, hr, hcr⟩⟩
          · rintro ⟨hapart, hs, -, hkept⟩
            exact (hrest (hclosable.mpr ⟨hapart, hs⟩)).mpr (hkept (hall.mp rfl))
        | false =>
          constructor
          · rintro ⟨r, hr, hcr⟩
            cases hr
            obtain ⟨hapart, hs⟩ := hclosable.mp hcr
            exact ⟨hapart, hs, hroom, fun hbonds => absurd (hall.mpr hbonds) Bool.false_ne_true⟩
          · rintro ⟨hapart, hs, -, -⟩
            exact ⟨_, rfl, hclosable.mpr ⟨hapart, hs⟩⟩
      · refine iff_of_false ?_ fun hkept => hroom hkept.2.2.1
        rintro ⟨r, hr, hcr⟩
        cases hsub : bondSubdevices mem option.toNat (dioSubdevices subdevices)
            { o with opened := option.toNat :: o.opened } with
        | error e =>
          rw [hsub] at hr
          cases hr
        | ok res =>
          obtain ⟨ok, o'⟩ := res
          obtain ⟨rfl, hnil⟩ := bondSubdevices_of_not_room
            (o := { o with opened := option.toNat :: o.opened }) hroom hsub
          rw [hsub] at hr
          cases hr
          have hopened : o'.opened = option.toNat :: o.opened := (bondSubdevices_extends hsub).opened
          obtain ⟨b, hmem, -⟩ := hcr.listed option.toNat (hopened ▸ List.mem_cons_self)
          rw [hnil] at hmem
          exact absurd hmem List.not_mem_nil
    · rw [hrun]
      refine iff_of_true ⟨_, rfl, hc⟩ fun subdevices hopen hboard => ?_
      exact absurd hboard (hnot subdevices hopen)

end Boards

section Failures

/-- The configuration without its failures of memory. -/
def result (r : Bool × Opened) : Option Private := if r.1 then some r.2.bond else none

theorem bondSubdevices_plentiful (minor : Nat) (subs : List (Nat × Nat)) (o : Opened) :
    (bondSubdevices plentiful minor subs o).map result =
      Bonding.bondSubdevices minor subs o.bond := by
  induction subs generalizing o with
  | nil => rfl
  | cons s subs ih =>
    unfold bondSubdevices Bonding.bondSubdevices
    split
    · rfl
    split
    · next h => cases h
    split
    · rfl
    split
    · next h => cases h
    · exact ih _

theorem bondBoards_plentiful (self : Nat) (boards : Boards) (options : List Int) (o : Opened) :
    (bondBoards self boards plentiful options o).map result =
      Bonding.bondBoards self boards options o.opened o.bond := by
  induction options generalizing o with
  | nil => rfl
  | cons option options ih =>
    unfold bondBoards Bonding.bondBoards
    dsimp only
    split
    · rfl
    split
    · rfl
    split
    · rfl
    cases boards option.toNat with
    | none => rfl
    | some subdevices =>
      dsimp only
      rw [← bondSubdevices_plentiful option.toNat (dioSubdevices subdevices)
        { o with opened := option.toNat :: o.opened }]
      cases hsub : bondSubdevices plentiful option.toNat (dioSubdevices subdevices)
          { o with opened := option.toNat :: o.opened } with
      | error e => rfl
      | ok r =>
        obtain ⟨ok, o'⟩ := r
        cases ok with
        | false => rfl
        | true =>
          have hopened : o'.opened = option.toNat :: o.opened := (bondSubdevices_extends hsub).opened
          have hrest := ih o'
          rw [hopened] at hrest
          exact hrest

theorem doDevConfig_plentiful (self : Nat) (options : List Int) (boards : Boards) :
    (doDevConfig self options boards plentiful).map result =
      Bonding.doDevConfig self options boards := by
  have hrun := bondBoards_plentiful self boards (usedOptions options) {}
  unfold doDevConfig Bonding.doDevConfig
  rw [← show _ = Bonding.bondBoards self boards (usedOptions options) [] {} from hrun]
  cases bondBoards self boards plentiful (usedOptions options) {} with
  | error e => rfl
  | ok r =>
    obtain ⟨ok, o⟩ := r
    cases ok with
    | false => rfl
    | true =>
      by_cases hn : o.bond.nchans = 0
      · have hne : (o.bond.nchans != 0) = false := by rw [hn]; rfl
        change Except.ok (result (true && o.bond.nchans != 0, o)) =
          Except.ok (if o.bond.nchans = 0 then none else some o.bond)
        rw [if_pos hn, hne]
        rfl
      · have hne : (o.bond.nchans != 0) = true := bne_iff_ne.mpr hn
        change Except.ok (result (true && o.bond.nchans != 0, o)) =
          Except.ok (if o.bond.nchans = 0 then none else some o.bond)
        rw [if_neg hn, hne]
        rfl

end Failures

/-- The opens and the closes balance, and the map is not overrun, exactly if every board that is
opened has a number of its own modulo 32 and a first digital subdevice that can be bonded, the list
of subdevices is never lost, and the channels fit the map. -/
theorem balanced_iff (self : Nat) (boards : Boards) (mem : Memory) (options : List Int) :
    Balanced self boards mem options ↔ Kept self boards mem (usedOptions options) [] 0 := by
  have hinv : Inv {} := ⟨List.nodup_nil, fun m ⟨b, hb, _⟩ => absurd hb List.not_mem_nil⟩
  have hclosable : Closable {} := ⟨nofun, List.Pairwise.nil⟩
  rw [← show _ ↔ Kept self boards mem (usedOptions options) [] 0 from
    bondBoards_iff (usedOptions options) hinv hclosable]
  unfold Balanced doDevConfig
  cases hrun : bondBoards self boards mem (usedOptions options) {} with
  | error e => exact iff_of_false nofun nofun
  | ok r =>
    have hr := unconfig_perm_iff (bondBoards_closable hinv hrun).1
    constructor
    · rintro ⟨ret, o, heq, hperm⟩
      cases heq
      exact ⟨r, rfl, hr.mp hperm⟩
    · rintro ⟨r', heq, hc⟩
      cases heq
      exact ⟨_, r.2, rfl, hr.mpr hc⟩

/-- The first board has no digital subdevice. -/
def analogBoard : Boards
  | 0 => some [none]
  | 1 => some [none, some 8]
  | _ => none

/-- It is opened, and never closed. -/
theorem analog_unbalanced : ¬ Balanced 2 analogBoard plentiful [0, 1] := by
  rintro ⟨ret, o, heq, hperm⟩
  cases heq
  exact absurd hperm.length_eq (by decide)

end Comedi.BondedOpens
