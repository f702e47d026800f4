import Comedi.NiTioCalls

namespace Comedi.NiTioShadow

open Instructions ChanlistCheck SharedRegs NiTio NiTioInsn NiTioCmd GuardedRuns
open NiTioFootprints NiTioSteps NiTioCalls

/-- Every register that has a copy and was written holds its copy, up to the transient bits. -/
def Coherent (d : NiGpctDevice) : Prop :=
  ∀ chip r v, hasCopy r.name → d.written chip r = some v →
    v &&& ~~~transientBits r.name = d.regs r &&& ~~~transientBits r.name

/-- No register of another chip that has the copies of this counter was written. -/
def Unshared (d : NiGpctDevice) (c : Nat) : Prop :=
  ∀ chip r, chip ≠ (d.counters c).chipIndex → r.index = (d.counters c).counterIndex →
    hasCopy r.name → d.written chip r = none

def settingInsns : List U32 :=
  [insnConfigSetCounterMode, insnConfigArm, insnConfigDisarm, insnConfigSetClockSrc,
    insnConfigSetGateSrc, insnConfigSetOtherSrc]

/-- The calls that set no register with a copy. -/
def onlyReads : TioCall → Prop
  | .insnConfig data _ => data 0 ∉ settingInsns
  | .rinsn insn _ => insn.n < 1 ∨ crChan insn.chanspec ≠ 0
  | .setMiteChannel _ => True
  | _ => False

/-- A call that changes copies changes those of its own registers, and writes them. -/
def Writes (d : NiGpctDevice) (call : Nat × TioCall) : Prop :=
  onlyReads call.2 ∨ Unshared d call.1 ∧ ¬ loses d call.1 call.2

def nothing : Footprint where
  bits _ := 0

variable {F : Footprint} {d d' : NiGpctDevice} {c : Nat}

theorem Coherent.step (hd : Coherent d) (h : Step F d c d')
    (hs : ∀ chip r v, chip ≠ (d.counters c).chipIndex → hasCopy r.name →
      d.written chip r = some v → d'.regs r = d.regs r) : Coherent d' := by
  intro chip r v hr hv
  by_cases hc : chip = (d.counters c).chipIndex
  · subst hc
    obtain ⟨he, hw⟩ | ⟨w, hw, hshown⟩ := h.shown r hr
    · rw [he]
      exact hd _ r v hr (hw ▸ hv)
    · rw [hw] at hv
      cases hv
      exact hshown
  · rw [h.otherChips chip hc] at hv
    rw [hs chip r v hc hr hv]
    exact hd chip r v hr hv

theorem Coherent.step_of_unshared (hd : Coherent d) (h : Step F d c d') (hu : Unshared d c) :
    Coherent d' := by
  refine hd.step h fun chip r v hc hr hv => h.toTouches.regs_eq ?_
  have hi : r.index ≠ (d.counters c).counterIndex := by
    intro hi
    rw [hu chip r hc hi hr] at hv
    cases hv
  exact if_neg hi

theorem Coherent.step_of_nothing (hd : Coherent d) (h : Step nothing d c d') : Coherent d' := by
  refine hd.step h fun _ r _ _ _ _ => h.toTouches.regs_eq ?_
  exact ite_self _

theorem insnConfig_nothing {data reads : Nat → U32} {r : Int × (Nat → U32) × NiGpctDevice}
    (hn : data 0 ∉ settingInsns) (h : niTioInsnConfig d c data reads = .ok r) :
    Step nothing d c r.2.2 := by
  simp only [settingInsns, List.mem_cons, List.not_mem_nil, or_false, not_or] at hn
  obtain ⟨h₁, h₂, h₃, h₄, h₅, h₆⟩ := hn
  rw [niTioInsnConfig, if_neg h₁, if_neg h₂, if_neg h₃, if_neg h₄, if_neg h₅, if_neg h₆] at h
  split at h
  · obtain ⟨x, hx, h⟩ := bind_eq_ok h
    cases h
    exact .refl _ d c
  split at h
  · obtain ⟨x, hx, h⟩ := bind_eq_ok h
    cases h
    exact .refl _ d c
  split at h
  · obtain ⟨x, hx, h⟩ := bind_eq_ok h
    cases h
    exact .refl _ d c
  split at h
  · obtain ⟨x, hx, h⟩ := bind_eq_ok h
    cases h
    exact resetCountAndDisarm_step nothing hx
  cases h
  exact .refl _ d c

theorem rinsn_nothing {insn : Insn} {reads : Nat → U32} {r : Int × Option U32 × NiGpctDevice}
    (hn : insn.n < 1 ∨ crChan insn.chanspec ≠ 0) (h : niTioRinsn d c insn reads = .ok r) :
    Step nothing d c r.2.2 := by
  unfold niTioRinsn at h
  dsimp only at h
  split at h
  · cases h
    exact .refl _ d c
  rw [if_neg (hn.resolve_left ‹_›)] at h
  split at h
  · obtain ⟨r₁, -, h⟩ := bind_eq_ok h
    cases h
    exact .refl _ d c
  split at h
  · obtain ⟨r₁, -, h⟩ := bind_eq_ok h
    cases h
    exact .refl _ d c
  cases h
  exact .refl _ d c

theorem onlyReads_nothing {call : TioCall} (hn : onlyReads call) (h : tioCall d c call = .ok d') :
    Step nothing d c d' := by
  cases call with
  | insnConfig data reads =>
    obtain ⟨r, hr, h⟩ := bind_eq_ok (x := niTioInsnConfig d c data reads) h
    cases h
    exact insnConfig_nothing hn hr
  | rinsn insn reads =>
    obtain ⟨r, hr, h⟩ := bind_eq_ok (x := niTioRinsn d c insn reads) h
    cases h
    exact rinsn_nothing hn hr
  | setMiteChannel miteChan =>
    cases h
    exact step_setCounter _ d c rfl rfl fun _ => rfl
  | _ => exact absurd hn id

/-- A board with one chip. -/
def OneChip (d : NiGpctDevice) : Prop :=
  d.variant ≠ .ni660x ∧ (∀ c, (d.counters c).chipIndex = 0) ∧
    ∀ chip r, chip ≠ 0 → d.written chip r = none

theorem OneChip.step {call : Nat × TioCall} (h : OneChip d) (hs : tioStep d call = .ok d') :
    OneChip d' := by
  obtain ⟨F, ht⟩ := tioCall_touches hs
  obtain ⟨hv, hchip, hwritten⟩ := h
  refine ⟨by rw [ht.variant]; exact hv, fun c => (ht.chipIndex c).trans (hchip c),
    fun chip r hc => ?_⟩
  rw [ht.otherChips chip (by rw [hchip]; exact hc)]
  exact hwritten chip r hc

/-- No polarity is lost where each second gate, if any, has a code. -/
theorem OneChip.not_loses (h : OneChip d) (c : Nat) (call : TioCall) : ¬ loses d c call := by
  cases call with
  | insnConfig data reads =>
    rintro ⟨-, -, hp, -, hs, -⟩
    cases hv : d.variant with
    | eSeries =>
      rw [hv] at hp
      cases hp
    | mSeries =>
      rw [hv] at hs
      cases hs
    | ni660x => exact h.1 hv
  | _ => exact id

theorem writes_of_oneChip {d₀ : NiGpctDevice} (h₀ : Constructed d₀) (hv : d₀.variant ≠ .ni660x)
    (calls : List (Nat × TioCall)) : AllFit tioStep Writes d₀ calls := by
  have hinv : OneChip d₀ := ⟨hv, h₀.chip hv, fun chip r _ => h₀.written chip r⟩
  refine AllFit.of_invariant OneChip (fun _ _ _ h _ hs => h.step hs) (fun d call h _ => ?_) hinv
    (AllFit.of_forall (fun _ _ _ => trivial) d₀ : AllFit tioStep (fun _ _ => True) d₀ calls)
  refine .inr ⟨fun chip r hc _ _ => ?_, h.not_loses _ _⟩
  rw [h.2.1] at hc
  exact h.2.2 chip r hc

theorem coherent_tioStep {call : Nat × TioCall} (hd : Coherent d) (hw : Writes d call)
    (h : tioStep d call = .ok d') : Coherent d' := by
  obtain hn | ⟨hu, hl⟩ := hw
  · exact hd.step_of_nothing (onlyReads_nothing hn h)
  · exact hd.step_of_unshared ((tioCall_acts h).step hl) hu

/-- On a board whose chips do not share copies, no call but the refusal of a second gate leaves a
register without its copy. -/
theorem coherent_run {d₀ : NiGpctDevice} (h₀ : Constructed d₀) {calls : List (Nat × TioCall)}
    (hw : AllFit tioStep Writes d₀ calls) (h : run tioStep d₀ calls = .ok d) : Coherent d := by
  refine run_keeps Coherent (fun _ _ _ hd hw h => coherent_tioStep hd hw h) ?_ hw h
  intro chip r v _ hv
  rw [h₀.written chip r] at hv
  cases hv

theorem coherent_run_newBoard : ∃ d, run tioStep (newBoard .mSeries) [(1, .initCounter),
    (1, config insnConfigSetGateSrc 1 (crInvert ||| 5))] = .ok d ∧ Coherent d := by
  obtain ⟨d, h⟩ : ∃ d, run tioStep (newBoard .mSeries) [(1, .initCounter),
      (1, config insnConfigSetGateSrc 1 (crInvert ||| 5))] = .ok d := ⟨_, rfl⟩
  exact ⟨d, h, coherent_run (constructed_newBoard .mSeries)
    (writes_of_oneChip (constructed_newBoard .mSeries) (by decide) _) h⟩

/-- A second gate of an NI 660x that is refused, inverted. -/
def refusedGate : List (Nat × TioCall) :=
  [(0, .initCounter), (0, config insnConfigSetGateSrc 1 (crInvert ||| 5))]

theorem refusedGate_not_coherent : ∃ d, run tioStep (newBoard .ni660x) refusedGate = .ok d ∧
    ¬ Coherent d := by
  refine ⟨_, rfl, fun h => ?_⟩
  exact absurd (h 0 ⟨.secondGate, 0⟩ 0 rfl rfl) (by decide)

end Comedi.NiTioShadow
