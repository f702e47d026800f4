import Comedi.DataModel

namespace Comedi.SampleSink

variable {α : Type}

/-- The buffer as the driver of an input subdevice meets it: the samples that it took, the space
that it has, in samples, and `async->events`. -/
structure Sink (α : Type) where
  out : List α := []
  free : Nat := 0
  events : U32 := 0

/-- `cfc_write_to_buffer`, and `cfc_write_long_to_buffer`. -/
def put (s : Sink α) (sample : α) : Sink α :=
  if s.free = 0 then { s with events := s.events ||| comediCbOverflow }
  else { out := s.out ++ [sample], free := s.free - 1, events := s.events ||| comediCbBlock }

/-- One sample after the other. -/
def putAll (s : Sink α) (samples : List α) : Sink α := samples.foldl put s

/-- `cfc_write_array_to_buffer`, which takes all or nothing. -/
def putArray (s : Sink α) (samples : List α) : Sink α :=
  if samples = [] then s
  else if s.free < samples.length then
    { s with free := 0, events := s.events ||| comediCbOverflow }
  else
    { out := s.out ++ samples
      free := s.free - samples.length
      events := s.events ||| comediCbBlock }

def raise (s : Sink α) (events : U32) : Sink α := { s with events := s.events ||| events }

def endBits : U32 := comediCbEoa ||| comediCbError ||| comediCbOverflow

/-- The events have `COMEDI_CB_EOA` and no error. -/
def Completes (events : U32) : Prop := events &&& endBits = comediCbEoa

instance (events : U32) : Decidable (Completes events) := inferInstanceAs (Decidable (_ = _))

variable {s s' s'' : Sink α} {l l' : List α} {sample : α}

/-- The samples `l` have been added, and no event has been raised that ends the acquisition. -/
structure Adds (l : List α) (s s' : Sink α) : Prop where
  out : s'.out = s.out ++ l
  free : s'.free + l.length = s.free
  events : s'.events &&& endBits = s.events &&& endBits

theorem Adds.refl (s : Sink α) : Adds [] s s := ⟨(List.append_nil _).symm, rfl, rfl⟩

theorem Adds.trans (h : Adds l s s') (h' : Adds l' s' s'') : Adds (l ++ l') s s'' := by
  refine ⟨?_, ?_, h'.events.trans h.events⟩
  · rw [h'.out, h.out, List.append_assoc]
  · have := h.free
    have := h'.free
    rw [List.length_append]
    omega

theorem block_and_endBits (e : U32) : (e ||| comediCbBlock) &&& endBits = e &&& endBits := by
  rw [BitVec.and_or_distrib_right]
  exact BitVec.or_zero

/-- Among the bits that are raised is an error. -/
theorem raise_error {bits : U32} (h : bits &&& comediCbError = comediCbError) (e : U32) :
    (e ||| bits) &&& comediCbError = comediCbError := by
  rw [BitVec.and_or_distrib_right, h]
  apply BitVec.eq_of_getLsbD_eq
  intro i _
  rw [BitVec.getLsbD_or, BitVec.getLsbD_and]
  cases e.getLsbD i <;> simp

theorem not_completes_error {e : U32} (h : e &&& comediCbError = comediCbError) :
    ¬ Completes e := by
  intro hc
  have h' : e &&& endBits &&& comediCbError = comediCbError := by
    rw [BitVec.and_assoc]
    exact h
  rw [hc] at h'
  exact absurd h' (by decide)

theorem raise_eoa {e : U32} (h : e &&& endBits = 0) : Completes (e ||| comediCbEoa) := by
  unfold Completes
  rw [BitVec.and_or_distrib_right, h]
  decide

theorem put_adds (h : 0 < s.free) (sample : α) : Adds [sample] s (put s sample) := by
  unfold put
  rw [if_neg (Nat.ne_of_gt h)]
  exact ⟨rfl, Nat.sub_add_cancel h, block_and_endBits _⟩

theorem putAll_adds (h : l.length ≤ s.free) : Adds l s (putAll s l) := by
  induction l generalizing s with
  | nil => exact Adds.refl s
  | cons sample l ih =>
    have h₁ : Adds [sample] s (put s sample) := put_adds (Nat.lt_of_lt_of_le (Nat.succ_pos _) h) _
    have hl : l.length ≤ (put s sample).free := by
      have := h₁.free
      rw [List.length_cons] at h
      rw [List.length_singleton] at this
      omega
    exact h₁.trans (ih hl)

theorem putArray_adds (h : l.length ≤ s.free) : Adds l s (putArray s l) := by
  unfold putArray
  split
  · next hnil =>
    subst hnil
    exact Adds.refl s
  · rw [if_neg (Nat.not_lt.mpr h)]
    exact ⟨rfl, Nat.sub_add_cancel h, block_and_endBits _⟩

end Comedi.SampleSink
