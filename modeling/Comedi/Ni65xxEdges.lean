import Comedi.Ni65xx

namespace Comedi.Ni65xxEdges

open Ni65xx Function

inductive Edge where
  | rising | falling
  deriving DecidableEq

/-- A word of the request. Zeros are used if the data array is not long enough. -/
def word (n : U32) (data : Nat → U32) (k : Nat) : U32 := if k < n.toNat then data k else 0

def byte (x : U32) (q : Nat) : Byte := (x >>> (q * 8)).setWidth 8

/-- The documented place of the eight bits of a port, as a word of the request and a byte of it. -/
def place : Edge → Nat → Nat × Nat
  | .rising, port => (1 + 2 * (port / 4), port % 4)
  | .falling, port => (2 + 2 * (port / 4), port % 4)

def documented (n : U32) (data : Nat → U32) (edge : Edge) (port : Nat) : Byte :=
  byte (word n data (place edge port).1) (place edge port).2

def enabled (d : Ni65xxPrivate) : Edge → Nat → Byte
  | .rising => d.risingEdge
  | .falling => d.fallingEdge

/-- The edges of the input ports are enabled as documented, and no two of them by one bit. -/
structure AsDocumented (board : Ni65xxBoard) (n : U32) (data : Nat → U32) (d : Ni65xxPrivate) :
    Prop where
  enabled : ∀ port < ni65xxNumInputPorts board, ∀ edge,
    enabled d edge port = documented n data edge port
  apart : ∀ edge port edge' port', place edge port = place edge' port' →
    edge = edge' ∧ port = port'

/-- The ports from number 4 on find the same bytes in the words that the code takes for them as in
those that they have by the documentation. -/
def Agrees (board : Ni65xxBoard) (n : U32) (data : Nat → U32) : Prop :=
  ∀ port < ni65xxNumInputPorts board, 4 ≤ port →
    byte (word n data (1 + port / 4)) (port % 4) =
        byte (word n data (1 + 2 * (port / 4))) (port % 4) ∧
      byte (word n data (2 + port / 4)) (port % 4) =
        byte (word n data (2 + 2 * (port / 4))) (port % 4)

variable {n : U32} {data : Nat → U32} {board : Ni65xxBoard} {d : Ni65xxPrivate}

theorem place_injective {edge edge' : Edge} {port port' : Nat}
    (h : place edge port = place edge' port') : edge = edge' ∧ port = port' := by
  cases edge with
  | rising =>
    cases edge' with
    | rising =>
      have hword := congrArg Prod.fst h
      have hbyte := congrArg Prod.snd h
      simp only [place] at hword hbyte
      exact ⟨rfl, by omega⟩
    | falling =>
      have hword := congrArg Prod.fst h
      simp only [place] at hword
      omega
  | falling =>
    cases edge' with
    | rising =>
      have hword := congrArg Prod.fst h
      simp only [place] at hword
      omega
    | falling =>
      have hword := congrArg Prod.fst h
      have hbyte := congrArg Prod.snd h
      simp only [place] at hword hbyte
      exact ⟨rfl, by omega⟩

theorem setEdges_eq (n : U32) (data : Nat → U32) (d : Ni65xxPrivate) (i : Nat) :
    (setEdges n data d i).risingEdge =
        update d.risingEdge i (byte (word n data (1 + i / 4)) (i % 4)) ∧
      (setEdges n data d i).fallingEdge =
        update d.fallingEdge i (byte (word n data (2 + i / 4)) (i % 4)) := by
  have hzero : ∀ q, byte 0 q = 0 := fun q => by
    unfold byte
    rw [show (0 : U32) = 0#32 from rfl, BitVec.zero_ushiftRight]
    rfl
  unfold setEdges word
  constructor
  · dsimp only
    split
    · rfl
    · rw [hzero]
      rfl
  · dsimp only
    split
    · rfl
    · rw [hzero]
      rfl

/-- Each port is set once, from the words that the code takes for it. -/
theorem edges_set (n : U32) (data : Nat → U32) (d : Ni65xxPrivate) (m : Nat) :
    ∀ port < m,
      ((List.range m).foldl (setEdges n data) d).risingEdge port =
          byte (word n data (1 + port / 4)) (port % 4) ∧
        ((List.range m).foldl (setEdges n data) d).fallingEdge port =
          byte (word n data (2 + port / 4)) (port % 4) := by
  induction m with
  | zero => exact fun port h => absurd h (Nat.not_lt_zero port)
  | succ m ih =>
    intro port hport
    rw [List.range_succ, List.foldl_append, List.foldl_cons, List.foldl_nil,
      (setEdges_eq _ _ _ _).1, (setEdges_eq _ _ _ _).2]
    by_cases heq : port = m
    · subst heq
      rw [update_self, update_self]
      exact ⟨rfl, rfl⟩
    · rw [update_of_ne heq, update_of_ne heq]
      exact ih port (by omega)

/-- A request is carried out as documented exactly if the code's words agree with the documented
ones for the ports beyond the first four. -/
theorem documented_iff (board : Ni65xxBoard) (n : U32) (hn : 1 ≤ n.toNat) (data : Nat → U32)
    (hdata : data 0 = insnConfigChangeNotify) (d : Ni65xxPrivate) :
    AsDocumented board n data (ni65xxIntrInsnConfig board n data d).2 ↔ Agrees board n data := by
  have hset := edges_set n data d (ni65xxNumInputPorts board)
  unfold ni65xxIntrInsnConfig
  rw [if_neg (by bv_omega), if_neg (not_not.mpr hdata)]
  constructor
  · intro h port hport _
    have hrising := h.enabled port hport .rising
    have hfalling := h.enabled port hport .falling
    exact ⟨(hset port hport).1.symm.trans hrising, (hset port hport).2.symm.trans hfalling⟩
  · intro h
    refine ⟨fun port hport edge => ?_, fun _ _ _ _ => place_injective⟩
    by_cases hfour : 4 ≤ port
    · cases edge with
      | rising => exact (hset port hport).1.trans (h port hport hfour).1
      | falling => exact (hset port hport).2.trans (h port hport hfour).2
    · have hzero : port / 4 = 0 := by omega
      cases edge with
      | rising =>
        refine (hset port hport).1.trans ?_
        simp only [documented, place, hzero]
      | falling =>
        refine (hset port hport).2.trans ?_
        simp only [documented, place, hzero]

/-- The first five words of a request, the third of which asks for falling edges on port 0. -/
def fallingRequest (k : Nat) : U32 :=
  if k = 0 then insnConfigChangeNotify else if k = 2 then 1 else 0

theorem documented_small :
    AsDocumented { numDiPorts := 4 } 5 fallingRequest
      (ni65xxIntrInsnConfig { numDiPorts := 4 } 5 fallingRequest {}).2 := by
  refine (documented_iff { numDiPorts := 4 } 5 (by decide) fallingRequest rfl {}).mpr ?_
  intro port hport hfour
  have hlt : port < 4 := hport
  omega

/-- On a board with eight input ports the request enables rising edges of port 4 too. -/
theorem falling_enables_rising :
    ¬ ∀ (board : Ni65xxBoard) (n : U32), 1 ≤ n.toNat → ∀ (data : Nat → U32),
      data 0 = insnConfigChangeNotify → ∀ d : Ni65xxPrivate,
      AsDocumented board n data (ni65xxIntrInsnConfig board n data d).2 := by
  intro h
  have hport := (h { numDiPorts := 8 } 5 (by decide) fallingRequest rfl {}).enabled 4 (by decide)
    .rising
  exact absurd hport (by decide)

end Comedi.Ni65xxEdges
