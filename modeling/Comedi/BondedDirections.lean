import Comedi.BondedChannels

namespace Comedi.BondedDirections

open Bonding BondedChannels Instructions Function

/-- A direction for a channel: whether it is to be an output. -/
abbrev Setting := Nat × Bool

/-- The directions have the same numbers as the instructions that set them. -/
def directionInsn (output : Bool) : U32 :=
  if output then insnConfigDioOutput else insnConfigDioInput

/-- The settings one after the other, with what each returns. -/
def configure (p : Private) : List Setting → U32 → World → List Int × U32 × World
  | [], ioBits, w => ([], ioBits, w)
  | (chan, output) :: settings, ioBits, w =>
    let (ret, _, ioBits, w) := bondingDioInsnConfig p chan (directionInsn output) ioBits w
    let (rets, ioBits, w) := configure p settings ioBits w
    (ret :: rets, ioBits, w)

/-- The last direction that is set on one of the channels. -/
def lastSet (chans : Nat → Prop) [DecidablePred chans] : List Setting → Option Bool
  | [] => none
  | (chan, output) :: settings =>
    (lastSet chans settings).or (if chans chan then some output else none)

variable {p : Private} {w : World} {ioBits : U32} {c i : Nat}

theorem config_eq (h : Bonded p) (hc : c < p.nchans) (output : Bool) (ioBits : U32) (w : World) :
    ∃ w', bondingDioInsnConfig p c (directionInsn output) ioBits w =
      (1, none, if output then ioBits ||| (1 : U32) <<< (c % 32)
        else ioBits &&& ~~~((1 : U32) <<< (c % 32)), w') := by
  obtain ⟨b, hmap, -⟩ := h.mapped c hc
  unfold bondingDioInsnConfig directionInsn
  rw [if_neg (Nat.not_le.mpr hc), hmap]
  cases output with
  | true => exact ⟨_, rfl⟩
  | false => exact ⟨_, rfl⟩

theorem config_getLsbD (hi : i < 32) (output : Bool) :
    (if output then ioBits ||| (1 : U32) <<< (c % 32)
      else ioBits &&& ~~~((1 : U32) <<< (c % 32))).getLsbD i =
      if c % 32 = i then output else ioBits.getLsbD i := by
  have hbit := bit_getLsbD (Nat.mod_lt c (show 0 < 32 by decide)) i
  have hiff : i = c % 32 ↔ c % 32 = i := eq_comm
  cases output with
  | true =>
    rw [if_pos rfl, BitVec.getLsbD_or, hbit]
    split
    · next heq => rw [decide_eq_true heq.symm, Bool.or_true]
    · next hne => rw [decide_eq_false (mt hiff.mp hne), Bool.or_false]
  | false =>
    rw [if_neg Bool.false_ne_true, BitVec.getLsbD_and, BitVec.getLsbD_not, hbit]
    split
    · next heq => rw [decide_eq_true heq.symm, Bool.not_true, Bool.and_false, Bool.and_false]
    · next hne =>
      rw [decide_eq_false (mt hiff.mp hne), Bool.not_false, Bool.and_true, decide_eq_true hi,
        Bool.and_true]

/-- The settings succeed, and each bit holds the last one of its channels. -/
theorem configure_spec (h : Bonded p) (hi : i < 32) {settings : List Setting}
    (hs : ∀ s ∈ settings, s.1 < p.nchans) (ioBits : U32) (w : World) :
    (∀ ret ∈ (configure p settings ioBits w).1, ret = 1) ∧
      (configure p settings ioBits w).2.1.getLsbD i =
        (lastSet (· % 32 = i) settings).getD (ioBits.getLsbD i) := by
  induction settings generalizing ioBits w with
  | nil => exact ⟨nofun, rfl⟩
  | cons s settings ih =>
    obtain ⟨w', hw'⟩ := config_eq h (hs s List.mem_cons_self) s.2 ioBits w
    have hrest := ih fun s hmem => hs s (List.mem_cons_of_mem _ hmem)
    unfold configure lastSet
    rw [hw']
    refine ⟨fun ret hret => ?_, ?_⟩
    · rcases List.mem_cons.mp hret with rfl | hret
      · rfl
      · exact (hrest _ _).1 ret hret
    · refine (hrest _ _).2.trans ?_
      rw [config_getLsbD hi]
      cases lastSet (· % 32 = i) settings with
      | some output => rfl
      | none =>
        rw [Option.none_or]
        split
        · rfl
        · rfl

theorem and_bit_ne_zero (hi : i < 32) (x : U32) : x &&& (1 : U32) <<< i ≠ 0 ↔ x.getLsbD i := by
  have hand (j : Nat) : (x &&& (1 : U32) <<< i).getLsbD j = (x.getLsbD j && decide (j = i)) := by
    rw [BitVec.getLsbD_and, bit_getLsbD hi]
  constructor
  · intro hne
    by_contra hbit
    refine hne (BitVec.eq_of_getLsbD_eq fun j _ => ?_)
    rw [hand]
    by_cases hj : j = i
    · rw [hj, Bool.eq_false_of_not_eq_true hbit]
      exact BitVec.getLsbD_zero.symm
    · rw [decide_eq_false hj, Bool.and_false]
      exact BitVec.getLsbD_zero.symm
  · intro hbit hzero
    have := hand i
    rw [hzero, hbit, decide_eq_true rfl] at this
    exact absurd this (by simp)

theorem query_eq (h : Bonded p) (hc : c < p.nchans) (ioBits : U32) (w : World) :
    bondingDioInsnConfig p c insnConfigDioQuery ioBits w =
      (2, some (directionInsn (ioBits.getLsbD (c % 32))), ioBits, w) := by
  obtain ⟨b, hmap, -⟩ := h.mapped c hc
  have hand := and_bit_ne_zero (Nat.mod_lt c (show 0 < 32 by decide)) ioBits
  unfold bondingDioInsnConfig
  rw [if_neg (Nat.not_le.mpr hc), hmap]
  dsimp only
  rw [if_neg (by decide), if_neg (by decide), if_pos rfl]
  unfold directionInsn
  by_cases hbit : ioBits.getLsbD (c % 32)
  · rw [if_pos (hand.mpr hbit), if_pos hbit]
    rfl
  · rw [if_neg (mt hand.mp hbit), if_neg hbit]
    rfl

theorem directionInsn_inj {a b : Bool} (h : directionInsn a = directionInsn b) : a = b := by
  cases a with
  | true => cases b with
    | true => rfl
    | false => exact absurd h (by decide)
  | false => cases b with
    | true => exact absurd h (by decide)
    | false => rfl

theorem lastSet_isSome (settings : List Setting) (c : Nat)
    (h : lastSet (· = c) settings ≠ none) : lastSet (· % 32 = c % 32) settings ≠ none := by
  induction settings with
  | nil => exact h
  | cons s settings ih =>
    unfold lastSet at h ⊢
    by_cases hrest : lastSet (· = c) settings = none
    · rw [hrest, Option.none_or] at h
      by_cases hs : s.1 = c
      · rw [if_pos (congrArg (· % 32) hs)]
        cases lastSet (· % 32 = c % 32) settings with
        | none => nofun
        | some output => nofun
      · rw [if_neg hs] at h
        exact absurd rfl h
    · obtain ⟨output, ho⟩ := Option.ne_none_iff_exists'.mp (ih hrest)
      rw [ho]
      nofun

/-- The query gives the direction that has been set on the channel if and only if it is also the
last one on all the channels that share its bit. -/
theorem query_last_iff {self : Nat} {options : List Int} {boards : Boards}
    (h : doDevConfig self options boards = .ok (some p)) {settings : List Setting}
    (hs : ∀ s ∈ settings, s.1 < p.nchans) (hc : c < p.nchans) {output : Bool}
    (hset : lastSet (· = c) settings = some output) (w : World) :
    let after := (configure p settings 0 w).2
    (bondingDioInsnConfig p c insnConfigDioQuery after.1 after.2).2.1 =
        some (directionInsn output) ↔
      lastSet (· % 32 = c % 32) settings = some output := by
  intro after
  have hb : Bonded p := by
    have hsome : doDevConfig self options boards ≠ .ok none := by
      rw [h]
      nofun
    rcases doDevConfig_spec hsome with ⟨-, herr⟩ | ⟨p', hok, hb, -⟩
    · rw [h] at herr
      cases herr
    · rw [h] at hok
      cases hok
      exact hb
  have hbit := (configure_spec hb (Nat.mod_lt c (show 0 < 32 by decide)) hs 0 w).2
  rw [query_eq hb hc, hbit]
  obtain ⟨last, hlast⟩ := Option.ne_none_iff_exists'.mp
    (lastSet_isSome settings c (by rw [hset]; nofun))
  rw [hlast]
  constructor
  · intro heq
    exact congrArg some (directionInsn_inj (Option.some_inj.mp heq))
  · intro heq
    rw [Option.some_inj.mp heq]
    rfl

theorem twoBoards_bonded :
    ∃ p, doDevConfig 2 [0, 1] twoBoards = .ok (some p) ∧ Bonded p ∧ p.nchans = 48 := by
  have hadmitted : doDevConfig 2 [0, 1] twoBoards ≠ .ok none := by
    intro h
    cases h
  rcases doDevConfig_spec hadmitted with ⟨hlt, -⟩ | ⟨p, hok, hb, hsum, -⟩
  · exact absurd hlt (by decide)
  · exact ⟨p, hok, hb, hsum⟩

theorem query_last_iff_two :
    ∃ p, doDevConfig 2 [0, 1] twoBoards = .ok (some p) ∧ ∀ w,
      (bondingDioInsnConfig p 33 insnConfigDioQuery
        (configure p [(1, false), (33, true)] 0 w).2.1
        (configure p [(1, false), (33, true)] 0 w).2.2).2.1 = some 1 := by
  obtain ⟨p, hok, -, hn⟩ := twoBoards_bonded
  refine ⟨p, hok, fun w => ?_⟩
  have hset : lastSet (· = 33) [(1, false), (33, true)] = some true := by decide
  refine (query_last_iff hok ?_ (by omega) hset w).mpr (by decide)
  intro s hs
  rcases List.mem_cons.mp hs with rfl | hs
  · exact hn ▸ (by decide : 1 < 48)
  · rw [List.mem_singleton.mp hs]
    exact hn ▸ (by decide : 33 < 48)

/-- Channel 33 is an output, but after channel 1 has been made an input it is said to be one. -/
theorem channel_thirtyThree :
    ∃ p, doDevConfig 2 [0, 1] twoBoards = .ok (some p) ∧ 33 < p.nchans ∧ ∀ w,
      (∀ ret ∈ (configure p [(33, true), (1, false)] 0 w).1, ret = 1) ∧
      (bondingDioInsnConfig p 33 insnConfigDioQuery
        (configure p [(33, true), (1, false)] 0 w).2.1
        (configure p [(33, true), (1, false)] 0 w).2.2).2.1 = some 0 := by
  obtain ⟨p, hok, hb, hn⟩ := twoBoards_bonded
  refine ⟨p, hok, by omega, fun w => ?_⟩
  have hs : ∀ s ∈ [(33, true), (1, false)], s.1 < p.nchans := by
    intro s hs
    rcases List.mem_cons.mp hs with rfl | hs
    · exact hn ▸ (by decide : 33 < 48)
    · rw [List.mem_singleton.mp hs]
      exact hn ▸ (by decide : 1 < 48)
  obtain ⟨hret, hbit⟩ := configure_spec hb (i := 33 % 32) (by decide) hs 0 w
  refine ⟨hret, ?_⟩
  rw [query_eq hb (by omega), hbit]
  rfl

end Comedi.BondedDirections
