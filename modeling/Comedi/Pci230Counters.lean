import Comedi.CommandEnds
import Comedi.Pci230

namespace Comedi.Pci230Counters

open AsyncBuffer RunState Requests CommandSteps CommandStarts CommandEnds LifeCycle GuardedRuns
open Pci230
open RtTimer (trigNone trigNow trigTimer trigInt)

structure Pci230State where
  board : Board
  dev : Private
  ai : Subdevice
  ao : Subdevice

/-- Requests, the ends of requests, and interrupts. `release` is `do_become_nonbusy` where a
reader, a writer or `COMEDI_BUFINFO` finds that the command has stopped. -/
inductive Pci230Step where
  | aiCmd (req : CmdReq) (file : File)
  | aoCmd (req : CmdReq) (file : File)
  | aiInttrig (trigNum : U32)
  | aoInttrig (trigNum : U32) (r : AoReading)
  | aiCancel (file : File)
  | aoCancel (file : File)
  | aiClose (file : File)
  | aoClose (file : File)
  | aiRelease
  | aoRelease
  | interrupt (statusInt : Byte) (ai : AiReading) (ao : AoReading)

def aiRequest (st : Pci230State) (req : CmdReq) (file : File) : Result Pci230State := do
  let (left, r) ← commandIoctl (fun cmd => .ok (aiCmd st.dev cmd)) st.board st.ai req file
  return match left with
    | none => { st with board := r.2.1, ai := r.2.2.1 }
    | some x => { st with board := r.2.1, dev := x.dev, ai := afterEvents r.2.1 r.2.2.1 x.events }

def aoRequest (st : Pci230State) (req : CmdReq) (file : File) : Result Pci230State := do
  let (left, r) ← commandIoctl (fun cmd => .ok (aoCmd st.dev cmd)) st.board st.ao req file
  return match left with
    | none => { st with board := r.2.1, ao := r.2.2.1 }
    | some x => { st with board := r.2.1, dev := x.dev, ao := afterEvents r.2.1 r.2.2.1 x.events }

def aiTriggered (st : Pci230State) (trigNum : U32) : Pci230State :=
  match st.ai.async.bind (·.inttrig) with
  | none => st
  | some fn =>
    let x := aiInttrig st.dev (commandOf st.ai) fn trigNum
    { st with dev := x.2.dev, ai := afterEvents st.board (setInttrig st.ai x.1.inttrig) x.2.events }

def aoTriggered (st : Pci230State) (trigNum : U32) (r : AoReading) : Pci230State :=
  match st.ao.async.bind (·.inttrig) with
  | none => st
  | some fn =>
    let x := aoInttrig st.dev (commandOf st.ao) (pending st.ao) r fn trigNum
    { st with dev := x.2.dev, ao := afterEvents st.board (setInttrig st.ao x.1.inttrig) x.2.events }

/-- A request that may have called `pci230_ai_cancel`. -/
def aiEnded (st : Pci230State) (r : Board × Subdevice × List Call) : Pci230State :=
  { st with board := r.1, ai := r.2.1, dev := if callsCancel r.2.2 then aiStop st.dev else st.dev }

def aoEnded (st : Pci230State) (r : Board × Subdevice × List Call) : Pci230State :=
  { st with board := r.1, ao := r.2.1, dev := if callsCancel r.2.2 then aoStop st.dev else st.dev }

def aoNofifoIsr (st : Pci230State) (r : AoReading) : Pci230State :=
  let h := handleAoNofifo st.dev (commandOf st.ao) (pending st.ao) r
  { st with dev := h.dev, ao := afterEvents st.board st.ao (some h.raised) }

def aoFifoIsr (st : Pci230State) (r : AoReading) : Pci230State :=
  let h := (handleAoFifo st.dev (commandOf st.ao) (pending st.ao) r).2
  { st with dev := h.dev, ao := afterEvents st.board st.ao (some h.raised) }

def aiIsr (st : Pci230State) (r : AiReading) : Pci230State :=
  let h := handleAi st.dev (commandOf st.ai) (pending st.ai) r
  { st with dev := h.dev, ai := afterEvents st.board st.ai (some h.raised) }

/-- `pci230_interrupt`. -/
def pci230Interrupt (st : Pci230State) (statusInt : Byte) (ai : AiReading) (ao : AoReading) :
    Pci230State :=
  let valid := st.dev.intEn &&& statusInt
  let st := if valid &&& intZclkCt1 ≠ 0 then aoNofifoIsr st ao else st
  let st := if valid &&& intDac ≠ 0 then aoFifoIsr st ao else st
  if valid &&& intAdc ≠ 0 then aiIsr st ai else st

def pci230Step (st : Pci230State) : Pci230Step → Result Pci230State
  | .aiCmd req file => aiRequest st req file
  | .aoCmd req file => aoRequest st req file
  | .aiInttrig trigNum => .ok (aiTriggered st trigNum)
  | .aoInttrig trigNum r => .ok (aoTriggered st trigNum r)
  | .aiCancel file => .ok (aiEnded st (doCancelIoctl st.board st.ai {} file).2)
  | .aoCancel file => .ok (aoEnded st (doCancelIoctl st.board st.ao {} file).2)
  | .aiClose file => .ok (aiEnded st (closeSubdevice st.board st.ai {} file))
  | .aoClose file => .ok (aoEnded st (closeSubdevice st.board st.ao {} file))
  | .aiRelease =>
    let r := release st.board st.ai
    .ok { st with board := r.1, ai := r.2 }
  | .aoRelease =>
    let r := release st.board st.ao
    .ok { st with board := r.1, ao := r.2 }
  | .interrupt statusInt ai ao => .ok (pci230Interrupt st statusInt ai ao)

/-- Each counter is with a command that is set up or running, the interrupt of a subdevice without
one is off, and such a subdevice does not keep the other from starting a command. -/
structure Clean (st : Pci230State) : Prop where
  aiOwns : ∀ r, st.dev.resOwner r = .aiCmd → Running st.ai
  aoOwns : ∀ r, st.dev.resOwner r = .aoCmd → Running st.ao
  aiInt : ¬ Running st.ai → st.dev.intEn &&& intAdc = 0
  aoInt : ¬ Running st.ao → st.dev.intEn &&& (intZclkCt1 ||| intDac) = 0
  aoFree : ¬ Running st.ai → ∀ cmd, (aoCmd st.dev cmd).1.ret = 0
  aiFree : ¬ Running st.ao → ∀ cmd, (aiCmd st.dev cmd).1.ret = 0

def Proper (st : Pci230State) (x : Pci230Step) : Prop := ∃ st', pci230Step st x = .ok st' ∧ Clean st'

/-- The counters that a subdevice owns have been taken by a command that waits for its trigger. -/
def aiWaits (st : Pci230State) : Prop :=
  st.dev.aiCmdStarted = false ∧ ∃ r, st.dev.resOwner r = .aiCmd

def aoWaits (st : Pci230State) : Prop :=
  st.dev.aoCmdStarted = false ∧ ∃ r, st.dev.resOwner r = .aoCmd

/-- No command that owns a counter is given up before its start trigger. -/
def Fits (st : Pci230State) : Pci230Step → Prop
  | .aiCancel file => ¬ (Cancels st.ai file ∧ aiWaits st)
  | .aoCancel file => ¬ (Cancels st.ao file ∧ aoWaits st)
  | .aiClose file => ¬ (st.ai.busy = some (.file file) ∧ aiWaits st)
  | .aoClose file => ¬ (st.ao.busy = some (.file file) ∧ aoWaits st)
  | _ => True

section Claims

variable {owner : ResOwner} {owners : Res → ResOwner} {mask claimed : U32} {r : Res}

def Masked (mask : U32) (r : Res) : Prop := mask.getLsbD r = true

instance (mask : U32) (r : Res) : Decidable (Masked mask r) := inferInstanceAs (Decidable (_ = _))

@[simp] theorem masked_zero (r : Res) : ¬ Masked 0#32 r := by simp [Masked]

theorem bit_and (mask : U32) (r : Res) : mask &&& bit r ≠ 0 ↔ Masked mask r := by
  unfold bit Masked
  rw [BitVec.and_twoPow]
  split
  · next h =>
    refine ⟨fun _ => h, fun _ hz => ?_⟩
    have hb := congrArg (·.getLsbD r) hz
    simp [show (r : Nat) < 32 by omega] at hb
  · next h => exact ⟨fun hz => absurd rfl hz, fun hb => absurd hb h⟩

theorem bit_cleared (mask : U32) (r r' : Res) :
    Masked (mask &&& ~~~bit r) r' ↔ Masked mask r' ∧ r' ≠ r := by
  unfold bit Masked
  rw [BitVec.getLsbD_and, BitVec.getLsbD_not, BitVec.getLsbD_twoPow]
  by_cases h : r' = r
  · subst h
    simp [show (r' : Nat) < 32 by omega]
  · have h' : (r : Nat) ≠ r' := fun hn => h (Fin.ext hn).symm
    simp [show (r' : Nat) < 32 by omega, show (r : Nat) < 32 by omega, h, h']

theorem bit_set (mask : U32) (r r' : Res) :
    Masked (mask ||| bit r) r' ↔ Masked mask r' ∨ r' = r := by
  unfold bit Masked
  rw [BitVec.getLsbD_or, BitVec.getLsbD_twoPow]
  by_cases h : r' = r
  · subst h
    simp [show (r' : Nat) < 32 by omega]
  · have h' : (r : Nat) ≠ r' := fun hn => h (Fin.ext hn).symm
    simp [show (r : Nat) < 32 by omega, h, h']

/-- The loop leaves out the owners that are not in the mask or not in the list. -/
theorem sweep_spec (f : ResOwner → ResOwner) {rs : List Res} (hnd : rs.Nodup) :
    sweep f rs mask owners =
      fun r => if r ∈ rs ∧ Masked mask r then f (owners r) else owners r := by
  induction rs generalizing mask owners with
  | nil => simp [sweep]
  | cons r rs ih =>
    rw [List.nodup_cons] at hnd
    unfold sweep
    split
    · next hz =>
      subst hz
      simp
    split
    · next hb =>
      rw [bit_and] at hb
      rw [ih hnd.2]
      funext r'
      by_cases h : r' = r
      · subst h
        simp [hnd.1, hb]
      · simp [h, bit_cleared]
    · next hb =>
      rw [bit_and] at hb
      rw [ih hnd.2]
      funext r'
      by_cases h : r' = r
      · subst h
        simp [hb]
      · simp [h]

theorem putResources_spec (mask : U32) (owner : ResOwner) (owners : Res → ResOwner) (r : Res) :
    putResources mask owner owners r =
      if Masked mask r ∧ owners r = owner then .none else owners r := by
  unfold putResources
  rw [sweep_spec _ (List.nodup_finRange 3)]
  simp only [List.mem_finRange, true_and]
  split <;> split <;> simp_all

theorem putAllResources_spec (owner : ResOwner) (owners : Res → ResOwner) (r : Res) :
    putAllResources owner owners r = if owners r = owner then .none else owners r := by
  unfold putAllResources
  have h : Masked 7 r := by
    revert r
    decide
  simp only [putResources_spec, h, true_and]

/-- The counter is free for the owner. -/
def FreeFor (owner : ResOwner) (owners : Res → ResOwner) (r : Res) : Prop :=
  owners r = .none ∨ owners r = owner

instance (owner : ResOwner) (owners : Res → ResOwner) (r : Res) :
    Decidable (FreeFor owner owners r) := inferInstanceAs (Decidable (_ ∨ _))

/-- What has been claimed so far was free, and lies behind in the list. -/
theorem claim_spec (owners₀ : Res → ResOwner) {rs : List Res}
    (hnd : rs.Nodup)
    (howners : ∀ r, owners r = if Masked claimed r then owner else owners₀ r)
    (hclaimed : ∀ r, Masked claimed r → owners₀ r = .none ∧ r ∉ rs) :
    claim owner rs mask claimed owners =
      if ∀ r ∈ rs, Masked mask r → FreeFor owner owners₀ r then
        (true, fun r => if r ∈ rs ∧ Masked mask r then owner else owners r)
      else (false, owners₀) := by
  induction rs generalizing mask claimed owners with
  | nil => simp [claim]
  | cons r rs ih =>
    rw [List.nodup_cons] at hnd
    have hr : owners r = owners₀ r := by
      rw [howners, if_neg fun h => (hclaimed r h).2 (List.mem_cons_self ..)]
    have hclaimed' : ∀ r', Masked claimed r' → owners₀ r' = .none ∧ r' ∉ rs :=
      fun r' h => ⟨(hclaimed r' h).1, fun hm => (hclaimed r' h).2 (List.mem_cons_of_mem r hm)⟩
    unfold claim
    split
    · next hz =>
      subst hz
      simp
    split
    · next hb =>
      rw [bit_and] at hb
      have hrest : ∀ r' ∈ rs, (Masked (mask &&& ~~~bit r) r' ↔ Masked mask r') := by
        intro r' hm
        rw [bit_cleared]
        simp [show r' ≠ r from fun h => hnd.1 (h ▸ hm)]
      have hall : FreeFor owner owners₀ r →
          ((∀ r' ∈ rs, Masked (mask &&& ~~~bit r) r' → FreeFor owner owners₀ r') ↔
            ∀ r' ∈ r :: rs, Masked mask r' → FreeFor owner owners₀ r') := by
        intro hfree
        rw [List.forall_mem_cons]
        exact ⟨fun h => ⟨fun _ => hfree, fun r' hm hb => h r' hm ((hrest r' hm).mpr hb)⟩,
          fun h r' hm hb => h.2 r' hm ((hrest r' hm).mp hb)⟩
      have hsame : ∀ owners' : Res → ResOwner, owners' r = owner →
          (∀ r', r' ≠ r → owners' r' = owners r') →
          (fun r' => if r' ∈ rs ∧ Masked (mask &&& ~~~bit r) r' then owner else owners' r') =
            fun r' => if r' ∈ r :: rs ∧ Masked mask r' then owner else owners r' := by
        intro owners' heq hkeep
        funext r'
        by_cases h : r' = r
        · subst h
          simp [hnd.1, hb, heq]
        · simp [h, bit_cleared, hkeep r' h]
      split
      · next hnone =>
        have hfree : FreeFor owner owners₀ r := .inl (hr ▸ hnone)
        rw [ih hnd.2 (fun r' => ?_) (fun r' hc => ?_)]
        · rw [hsame _ (Function.update_self ..) fun r' h => Function.update_of_ne h ..]
          simp only [hall hfree]
        · by_cases h : r' = r
          · subst h
            simp [bit_set]
          · simp [h, howners, bit_set]
        · rw [bit_set] at hc
          by_cases h : r' = r
          · subst h
            exact ⟨hr ▸ hnone, hnd.1⟩
          · exact hclaimed' r' (by simpa [h] using hc)
      split
      · next hnone hother =>
        have hbad : ¬ FreeFor owner owners₀ r := by
          rintro (h | h)
          · exact hnone (hr.trans h)
          · exact hother (hr.trans h)
        rw [if_neg fun h => hbad (h r (List.mem_cons_self ..) hb),
          sweep_spec _ (List.nodup_finRange 3)]
        congr 1
        funext r'
        by_cases h : Masked claimed r'
        · simp [h, (hclaimed r' h).1]
        · simp [h, howners]
      · next hnone hown =>
        rw [not_not] at hown
        rw [ih hnd.2 howners hclaimed', hsame owners hown fun _ _ => rfl]
        simp only [hall (.inr (hr ▸ hown))]
    · next hb =>
      rw [bit_and] at hb
      rw [ih hnd.2 howners hclaimed']
      have hall : (∀ r' ∈ rs, Masked mask r' → FreeFor owner owners₀ r') ↔
          ∀ r' ∈ r :: rs, Masked mask r' → FreeFor owner owners₀ r' := by
        rw [List.forall_mem_cons]
        exact ⟨fun h => ⟨fun h' => absurd h' hb, h⟩, fun h => h.2⟩
      simp only [hall]
      congr 2
      funext r'
      by_cases h : r' = r
      · subst h
        simp [hb]
      · simp [h]

/-- The resources in the mask are claimed all or none. -/
theorem getResources_spec (owner : ResOwner) (mask : U32) (owners : Res → ResOwner) :
    getResources mask owner owners =
      if ∀ r : Res, Masked mask r → FreeFor owner owners r then
        (true, fun r => if Masked mask r then owner else owners r)
      else (false, owners) := by
  have h : claim owner (List.finRange 3) mask 0 owners = _ :=
    claim_spec owners (List.nodup_finRange 3) (fun r => by simp) fun r h => absurd h (masked_zero r)
  rw [getResources, h]
  simp only [List.mem_finRange, true_and, forall_const]

end Claims

/-- What both subdevices use. -/
structure Shared where
  hwver : U16
  aiCmdStarted : Bool
  aoCmdStarted : Bool
  intEn : Byte
  resOwner : Res → ResOwner

def shared (p : Private) : Shared := ⟨p.hwver, p.aiCmdStarted, p.aoCmdStarted, p.intEn, p.resOwner⟩

/-- One of the two subdevices, as far as it shares. -/
structure Role where
  own : ResOwner
  started : Shared → Bool
  ints : Byte
  start : Nat

def aiRole : Role := ⟨.aiCmd, (·.aiCmdStarted), intAdc, aiInttrigStart⟩

def aoRole : Role := ⟨.aoCmd, (·.aoCmdStarted), intZclkCt1 ||| intDac, aoInttrigStart⟩

/-- No command of the role. -/
structure Gone (ρ : Role) (x : Shared) : Prop where
  owns : ∀ r, x.resOwner r ≠ ρ.own
  started : ρ.started x = false
  int : x.intEn &&& ρ.ints = 0

/-- Nothing that the role shares changes, except that it may give counters back. -/
structure Leaves (ρ : Role) (x x' : Shared) : Prop where
  owns : ∀ r, x'.resOwner r = ρ.own → x.resOwner r = ρ.own
  started : ρ.started x' = ρ.started x
  int : x'.intEn &&& ρ.ints = x.intEn &&& ρ.ints

/-- The version of the hardware stays, and so does the interrupt that it does not use. -/
structure SameBoard (x x' : Shared) : Prop where
  hwver : x'.hwver = x.hwver
  other : x'.intEn &&& ~~~(intAdc ||| aoIntsrc x.hwver) = x.intEn &&& ~~~(intAdc ||| aoIntsrc x.hwver)

def Ends (events : Option U32) : Prop := ∃ e, events = some e ∧ e &&& endMask ≠ 0

/-- What a step of the role's own command leaves: nothing, if it ends the command, and else no
interrupt unless the command has started. -/
structure Follows (ρ : Role) (x : Shared) (events : Option U32) : Prop where
  int : x.intEn &&& ρ.ints ≠ 0 → ρ.started x = true
  ends : Ends events → Gone ρ x

section Effects

variable {p p' : Private} {x x' x'' : Shared} {ρ : Role} {cmd : Cmd}

theorem Leaves.refl (ρ : Role) (x : Shared) : Leaves ρ x x := ⟨fun _ h => h, rfl, rfl⟩

theorem SameBoard.refl (x : Shared) : SameBoard x x := ⟨rfl, rfl⟩

theorem intEn_adc : ∀ b : Byte, (b ||| intAdc) &&& aoRole.ints = b &&& aoRole.ints ∧
    b &&& ~~~intAdc &&& aoRole.ints = b &&& aoRole.ints ∧ b &&& ~~~intAdc &&& intAdc = 0 := by
  decide

theorem intEn_other (hwver : U16) : ∀ b : Byte,
    (b ||| intAdc) &&& ~~~(intAdc ||| aoIntsrc hwver) = b &&& ~~~(intAdc ||| aoIntsrc hwver) ∧
    b &&& ~~~intAdc &&& ~~~(intAdc ||| aoIntsrc hwver) = b &&& ~~~(intAdc ||| aoIntsrc hwver) ∧
    (b ||| aoIntsrc hwver) &&& ~~~(intAdc ||| aoIntsrc hwver) =
      b &&& ~~~(intAdc ||| aoIntsrc hwver) ∧
    b &&& ~~~aoIntsrc hwver &&& ~~~(intAdc ||| aoIntsrc hwver) =
      b &&& ~~~(intAdc ||| aoIntsrc hwver) := by
  unfold aoIntsrc
  split <;> decide

theorem intEn_ao (hwver : U16) : ∀ b : Byte,
    (b ||| aoIntsrc hwver) &&& intAdc = b &&& intAdc ∧
    b &&& ~~~aoIntsrc hwver &&& intAdc = b &&& intAdc ∧
    (b &&& ~~~(intAdc ||| aoIntsrc hwver) = 0 →
      b &&& ~~~aoIntsrc hwver &&& aoRole.ints = 0) := by
  unfold aoIntsrc
  split <;> decide

theorem putAllResources_ne (owner : ResOwner) (hne : owner ≠ .none) (owners : Res → ResOwner)
    (r : Res) : putAllResources owner owners r ≠ owner := by
  rw [putAllResources_spec]
  split
  · exact Ne.symm hne
  · assumption

theorem putAllResources_of_eq {owner other : ResOwner} (hne : other ≠ .none)
    {owners : Res → ResOwner} {r : Res} (h : putAllResources owner owners r = other) :
    owners r = other := by
  rw [putAllResources_spec] at h
  split at h
  · exact absurd h.symm hne
  · exact h

theorem aiStop_idle (h : p.aiCmdStarted = false) : aiStop p = p := by
  rw [aiStop, h]
  rfl

theorem aiStop_gone (h : p.aiCmdStarted = true) : Gone aiRole (shared (aiStop p)) := by
  rw [aiStop, if_pos h]
  exact ⟨putAllResources_ne .aiCmd nofun p.resOwner, rfl, (intEn_adc p.intEn).2.2⟩

theorem aiStop_leaves (p : Private) : Leaves aoRole (shared p) (shared (aiStop p)) := by
  unfold aiStop
  split
  · exact ⟨fun _ => putAllResources_of_eq (by decide), rfl,
      (intEn_adc p.intEn).2.1⟩
  · exact .refl ..

theorem aiStop_sameBoard (p : Private) : SameBoard (shared p) (shared (aiStop p)) := by
  unfold aiStop
  split
  · exact ⟨rfl, (intEn_other p.hwver p.intEn).2.1⟩
  · exact .refl _

theorem aoStop_idle (h : p.aoCmdStarted = false) : aoStop p = p := by
  rw [aoStop, h]
  rfl

theorem aoStop_gone (h : p.aoCmdStarted = true)
    (hb : p.intEn &&& ~~~(intAdc ||| aoIntsrc p.hwver) = 0) : Gone aoRole (shared (aoStop p)) := by
  rw [aoStop, if_pos h]
  exact ⟨putAllResources_ne .aoCmd nofun p.resOwner, rfl, (intEn_ao p.hwver p.intEn).2.2 hb⟩

theorem aoStop_leaves (p : Private) : Leaves aiRole (shared p) (shared (aoStop p)) := by
  unfold aoStop
  split
  · exact ⟨fun _ => putAllResources_of_eq (by decide), rfl,
      (intEn_ao p.hwver p.intEn).2.1⟩
  · exact .refl ..

theorem aoStop_sameBoard (p : Private) : SameBoard (shared p) (shared (aoStop p)) := by
  unfold aoStop
  split
  · exact ⟨rfl, (intEn_other p.hwver p.intEn).2.2.2⟩
  · exact .refl _

theorem aiUpdate_shared (p : Private) (cmd : Cmd) :
    shared (aiUpdateFifoTriggerLevel p cmd) = shared p := by
  unfold aiUpdateFifoTriggerLevel
  dsimp only
  split
  · rfl
  · split <;> rfl

theorem aiStop_shared {q : Private} (h : shared q = shared p) :
    shared (aiStop q) = shared (aiStop p) := by
  have hown : q.resOwner = p.resOwner := congrArg Shared.resOwner h
  have hint : q.intEn = p.intEn := congrArg Shared.intEn h
  have hver : q.hwver = p.hwver := congrArg Shared.hwver h
  have hst : q.aiCmdStarted = p.aiCmdStarted := congrArg Shared.aiCmdStarted h
  have hao : q.aoCmdStarted = p.aoCmdStarted := congrArg Shared.aoCmdStarted h
  unfold aiStop
  rw [hst]
  split
  · simp only [shared, hown, hint, hver, hao]
  · exact h

theorem aoStop_shared {q : Private} (h : shared q = shared p) :
    shared (aoStop q) = shared (aoStop p) := by
  have hown : q.resOwner = p.resOwner := congrArg Shared.resOwner h
  have hint : q.intEn = p.intEn := congrArg Shared.intEn h
  have hver : q.hwver = p.hwver := congrArg Shared.hwver h
  have hst : q.aoCmdStarted = p.aoCmdStarted := congrArg Shared.aoCmdStarted h
  have hai : q.aiCmdStarted = p.aiCmdStarted := congrArg Shared.aiCmdStarted h
  unfold aoStop
  rw [hst]
  split
  · simp only [shared, hown, hint, hver, hai]
  · exact h

/-- What an interrupt of analog input does to what is shared is to stop the command, or nothing. -/
theorem handleAi_shared (p : Private) (cmd : Cmd) (raised : U32) (r : AiReading) :
    shared (handleAi p cmd raised r).dev = shared p ∧
        ((handleAi p cmd raised r).raised &&& endMask = 0 ∨
          (handleAi p cmd raised r).raised = raised) ∨
      shared (handleAi p cmd raised r).dev = shared (aiStop p) := by
  unfold handleAi
  extract_lets todo l q events raised'
  split
  · exact .inl ⟨rfl, .inr rfl⟩
  dsimp only
  split
  · exact .inr (aiStop_shared rfl)
  · next h => exact .inl ⟨(aiUpdate_shared q cmd).trans rfl, .inl (not_not.mp h)⟩

theorem aoCountDown_shared (p : Private) (moved : U32) : shared (aoCountDown p moved) = shared p := by
  unfold aoCountDown
  split
  · rfl
  · split <;> rfl

theorem handleAoNofifo_shared (p : Private) (cmd : Cmd) {raised : U32} (r : AoReading)
    (hr : raised &&& endMask = 0) :
    shared (handleAoNofifo p cmd raised r).dev = shared p ∧
        (handleAoNofifo p cmd raised r).raised &&& endMask = 0 ∨
      shared (handleAoNofifo p cmd raised r).dev = shared (aoStop p) := by
  have hr' : (raised ||| (comediCbBlock ||| comediCbEos)) &&& endMask = 0 := by
    rw [BitFlags.and_or_of_disjoint (by decide), hr]
  unfold handleAoNofifo
  split
  · exact .inl ⟨rfl, hr⟩
  dsimp only
  split
  · exact .inr rfl
  split
  · exact .inl ⟨rfl, hr'⟩
  split
  · exact .inr (aoStop_shared rfl)
  · exact .inl ⟨rfl, hr'⟩

theorem handleAoFifo_shared (p : Private) (cmd : Cmd) {raised : U32} (r : AoReading)
    (hr : raised &&& endMask = 0) :
    (handleAoFifo p cmd raised r).1 = true ∧ shared (handleAoFifo p cmd raised r).2.dev = shared p ∧
        (handleAoFifo p cmd raised r).2.raised &&& endMask = 0 ∨
      (handleAoFifo p cmd raised r).1 = false ∧
        shared (handleAoFifo p cmd raised r).2.dev = shared (aoStop p) := by
  unfold handleAoFifo
  dsimp only
  split
  · exact .inr ⟨rfl, rfl⟩
  split
  · exact .inr ⟨rfl, aoStop_shared (aoCountDown_shared p _)⟩
  · refine .inl ⟨rfl, aoCountDown_shared p _, ?_⟩
    rw [BitFlags.and_or_of_disjoint (by decide), hr]

theorem Follows.of_gone {events : Option U32} (h : Gone ρ x) : Follows ρ x events :=
  ⟨fun hi => absurd h.int hi, fun _ => h⟩

theorem Follows.same {events : Option U32} (hs : x' = x) (hst : ρ.started x = true)
    (hn : ¬ Ends events) : Follows ρ x' events := by
  subst hs
  exact ⟨fun _ => hst, fun he => absurd he hn⟩

theorem not_ends {e : U32} (h : e &&& endMask = 0) : ¬ Ends (some e) := by
  rintro ⟨e', he, hne⟩
  cases he
  exact hne h

theorem not_ends_none : ¬ Ends none := fun ⟨_, he, _⟩ => nomatch he

theorem handleAi_follows (hst : p.aiCmdStarted = true) {raised : U32}
    (hr : raised &&& endMask = 0) (cmd : Cmd) (r : AiReading) :
    Follows aiRole (shared (handleAi p cmd raised r).dev)
      (some (handleAi p cmd raised r).raised) := by
  obtain ⟨hs, he⟩ | hs := handleAi_shared p cmd raised r
  · refine .same hs hst (not_ends ?_)
    obtain he | he := he
    · exact he
    · rw [he, hr]
  · rw [hs]
    exact .of_gone (aiStop_gone hst)

theorem handleAi_leaves (p : Private) (cmd : Cmd) (raised : U32) (r : AiReading) :
    Leaves aoRole (shared p) (shared (handleAi p cmd raised r).dev) ∧
      SameBoard (shared p) (shared (handleAi p cmd raised r).dev) := by
  obtain ⟨hs, -⟩ | hs := handleAi_shared p cmd raised r
  · rw [hs]
    exact ⟨.refl .., .refl _⟩
  · rw [hs]
    exact ⟨aiStop_leaves p, aiStop_sameBoard p⟩

/-- The interrupt that the hardware does not use is off. -/
def OtherOff (x : Shared) : Prop := x.intEn &&& ~~~(intAdc ||| aoIntsrc x.hwver) = 0

theorem handleAoNofifo_follows (hst : p.aoCmdStarted = true) (hb : OtherOff (shared p))
    {raised : U32} (hr : raised &&& endMask = 0) (cmd : Cmd) (r : AoReading) :
    Follows aoRole (shared (handleAoNofifo p cmd raised r).dev)
      (some (handleAoNofifo p cmd raised r).raised) := by
  obtain ⟨hs, he⟩ | hs := handleAoNofifo_shared p cmd r hr
  · exact .same hs hst (not_ends he)
  · rw [hs]
    exact .of_gone (aoStop_gone hst hb)

theorem handleAoFifo_follows (hst : p.aoCmdStarted = true) (hb : OtherOff (shared p))
    {raised : U32} (hr : raised &&& endMask = 0) (cmd : Cmd) (r : AoReading) :
    Follows aoRole (shared (handleAoFifo p cmd raised r).2.dev)
      (some (handleAoFifo p cmd raised r).2.raised) := by
  obtain ⟨-, hs, he⟩ | ⟨-, hs⟩ := handleAoFifo_shared p cmd r hr
  · exact .same hs hst (not_ends he)
  · rw [hs]
    exact .of_gone (aoStop_gone hst hb)

theorem handleAoNofifo_leaves (p : Private) (cmd : Cmd) {raised : U32} (r : AoReading)
    (hr : raised &&& endMask = 0) :
    Leaves aiRole (shared p) (shared (handleAoNofifo p cmd raised r).dev) ∧
      SameBoard (shared p) (shared (handleAoNofifo p cmd raised r).dev) := by
  obtain ⟨hs, -⟩ | hs := handleAoNofifo_shared p cmd r hr
  · rw [hs]
    exact ⟨.refl .., .refl _⟩
  · rw [hs]
    exact ⟨aoStop_leaves p, aoStop_sameBoard p⟩

theorem handleAoFifo_leaves (p : Private) (cmd : Cmd) {raised : U32} (r : AoReading)
    (hr : raised &&& endMask = 0) :
    Leaves aiRole (shared p) (shared (handleAoFifo p cmd raised r).2.dev) ∧
      SameBoard (shared p) (shared (handleAoFifo p cmd raised r).2.dev) := by
  obtain ⟨-, hs, -⟩ | ⟨-, hs⟩ := handleAoFifo_shared p cmd r hr
  · rw [hs]
    exact ⟨.refl .., .refl _⟩
  · rw [hs]
    exact ⟨aoStop_leaves p, aoStop_sameBoard p⟩

/-- The start of an input command. -/
theorem aiStart_follows (p : Private) (cmd : Cmd) :
    Follows aiRole (shared (aiStart p cmd).dev) (aiStart p cmd).events ∧
      Leaves aoRole (shared p) (shared (aiStart p cmd).dev) ∧
      SameBoard (shared p) (shared (aiStart p cmd).dev) := by
  have hadc := intEn_adc p.intEn
  have hoth := intEn_other p.hwver p.intEn
  unfold aiStart
  extract_lets p₁ p₂ q
  split
  · have hl := aiStop_leaves p₁
    have hb := aiStop_sameBoard p₁
    exact ⟨.of_gone (aiStop_gone rfl), ⟨hl.owns, hl.started, hl.int⟩, ⟨hb.hwver, hb.other⟩⟩
  have hq : shared q = { shared p with aiCmdStarted := true, intEn := p.intEn ||| intAdc } :=
    (aiUpdate_shared _ cmd).trans rfl
  have hown : q.resOwner = p.resOwner := congrArg Shared.resOwner hq
  have hkeep : Follows aiRole (shared q) none ∧ Leaves aoRole (shared p) (shared q) ∧
      SameBoard (shared p) (shared q) := by
    rw [hq]
    exact ⟨⟨fun _ => rfl, fun he => absurd he not_ends_none⟩,
      ⟨fun _ h => h, rfl, hadc.1⟩, ⟨rfl, hoth.1⟩⟩
  split
  · exact hkeep
  split
  · exact hkeep
  · obtain ⟨hf, hl, hb⟩ := hkeep
    have hput : ∀ r, putResources (bit 2) .aiCmd q.resOwner r = .aoCmd → p.resOwner r = .aoCmd := by
      intro r h
      rw [putResources_spec] at h
      split at h
      · cases h
      · rw [← hown]
        exact h
    exact ⟨⟨hf.int, fun he => absurd he not_ends_none⟩,
      ⟨hput, hl.started, hl.int⟩, ⟨hb.hwver, hb.other⟩⟩

theorem aoEnable_shared (p : Private) (cmd : Cmd) (events : Option U32) (written : List U32) :
    shared (aoEnable p cmd events written).dev = shared p ∨
      shared (aoEnable p cmd events written).dev =
        { shared p with intEn := p.intEn ||| aoIntsrc p.hwver } := by
  unfold aoEnable aoIntsrc
  dsimp only
  split
  · next h => exact .inr (by rw [if_neg (BitVec.not_lt.mpr h)]; rfl)
  · next h =>
    split
    · exact .inr (by rw [if_pos (BitVec.not_le.mp h)]; rfl)
    · exact .inl rfl

/-- A command that goes on after its start. -/
theorem aoEnable_follows {q : Private} {events : Option U32} (written : List U32)
    (hq : shared q = { shared p with aoCmdStarted := true }) (he : ¬ Ends events) :
    Follows aoRole (shared (aoEnable q cmd events written).dev) events ∧
      Leaves aiRole (shared p) (shared (aoEnable q cmd events written).dev) ∧
      SameBoard (shared p) (shared (aoEnable q cmd events written).dev) := by
  have hint : q.intEn = p.intEn := congrArg Shared.intEn hq
  have hver : q.hwver = p.hwver := congrArg Shared.hwver hq
  obtain h | h := aoEnable_shared q cmd events written
  · rw [h, hq]
    exact ⟨⟨fun _ => rfl, fun h => absurd h he⟩, ⟨fun _ h => h, rfl, rfl⟩, ⟨rfl, rfl⟩⟩
  · rw [h, hq, hint, hver]
    exact ⟨⟨fun _ => rfl, fun h => absurd h he⟩,
      ⟨fun _ h => h, rfl, (intEn_ao p.hwver p.intEn).1⟩,
      ⟨rfl, (intEn_other p.hwver p.intEn).2.2.1⟩⟩

/-- The start of an output command. -/
theorem aoStart_follows (hb : OtherOff (shared p)) (cmd : Cmd) (r : AoReading) :
    Follows aoRole (shared (aoStart p cmd r).dev) (aoStart p cmd r).events ∧
      Leaves aiRole (shared p) (shared (aoStart p cmd r).dev) ∧
      SameBoard (shared p) (shared (aoStart p cmd r).dev) := by
  unfold aoStart
  extract_lets p₁
  have hstop : ∀ x', x' = shared (aoStop p₁) → ∀ events, Follows aoRole x' events ∧
      Leaves aiRole (shared p) x' ∧ SameBoard (shared p) x' := by
    rintro x' rfl events
    have hl := aoStop_leaves p₁
    have hs := aoStop_sameBoard p₁
    exact ⟨.of_gone (aoStop_gone rfl hb), ⟨hl.owns, hl.started, hl.int⟩, ⟨hs.hwver, hs.other⟩⟩
  split
  · exact hstop _ rfl _
  split
  · have hz : (0 : U32) &&& endMask = 0 := by decide
    have hh := handleAoFifo_shared p₁ cmd r hz
    generalize handleAoFifo p₁ cmd 0 r = x at hh ⊢
    obtain ⟨run, h⟩ := x
    obtain ⟨rfl, hs, he⟩ | ⟨rfl, hs⟩ := hh
    · exact aoEnable_follows _ (Eq.trans rfl hs) (not_ends he)
    · exact hstop _ hs _
  · exact aoEnable_follows [] rfl not_ends_none

/-- A failed claim leaves the counters with whom they were. -/
theorem getResources_fails {mask : U32} {owner : ResOwner} {owners : Res → ResOwner}
    (h : (getResources mask owner owners).1 = false) :
    (getResources mask owner owners).2 = owners := by
  rw [getResources_spec] at h ⊢
  split at h
  · cases h
  · next hn => rw [if_neg hn]

theorem getResources_other {mask : U32} {owner other : ResOwner} (hne : other ≠ owner)
    {owners : Res → ResOwner} {r : Res} (h : (getResources mask owner owners).2 r = other) :
    owners r = other := by
  rw [getResources_spec] at h
  split at h
  · dsimp only at h
    split at h
    · exact absurd h.symm hne
    · exact h
  · exact h

theorem getResources_ok {mask : U32} {owner : ResOwner} {owners : Res → ResOwner}
    (h : ∀ r, FreeFor owner owners r) : (getResources mask owner owners).1 = true := by
  rw [getResources_spec, if_pos fun r _ => h r]

end Effects

/-- The subdevice and what it shares fit: only a command that has not ended owns counters, and
only one that has started has its interrupt on. -/
structure SideOk (ρ : Role) (s : Subdevice) (x : Shared) : Prop extends Base s where
  armed : ∀ a, s.async = some a → a.inttrig = some ρ.start → Running s ∧ ρ.started x = false
  owns : ∀ r, x.resOwner r = ρ.own → Running s
  started : ρ.started x = true → Running s
  int : x.intEn &&& ρ.ints ≠ 0 → ρ.started x = true

section Sides

variable {p : Private} {x x' : Shared} {ρ : Role} {s s' : Subdevice} {b : Board} {file : File}

theorem SideOk.not_armed (h : SideOk ρ s x) (hst : ρ.started x = true) {a : Async}
    (ha : s.async = some a) : a.inttrig ≠ some ρ.start := by
  intro hat
  rw [(h.armed a ha hat).2] at hst
  cases hst

theorem SideOk.gone (h : SideOk ρ s x) (hn : ¬ Running s) : Gone ρ x := by
  have hst : ρ.started x = false := Bool.eq_false_iff.mpr fun hs => hn (h.started hs)
  refine ⟨fun r hr => hn (h.owns r hr), hst, ?_⟩
  by_contra hi
  rw [h.int hi] at hst
  cases hst

theorem SideOk.leaves (h : SideOk ρ s x) (hl : Leaves ρ x x') : SideOk ρ s x' := by
  obtain ⟨hb, ha, ho, hs, hi⟩ := h
  refine ⟨hb, fun a has hat => ?_, fun r hr => ho r (hl.owns r hr), fun hst => ?_, fun hint => ?_⟩
  · rw [hl.started]
    exact ha a has hat
  · rw [hl.started] at hst
    exact hs hst
  · rw [hl.int] at hint
    rw [hl.started]
    exact hi hint

/-- A subdevice that is not busy. -/
theorem SideOk.of_idle (hb : Base s) (hidle : s.busy = none) (hg : Gone ρ x) : SideOk ρ s x := by
  obtain ⟨issuer, ho⟩ := hb.orderly
  refine ⟨hb, fun a ha hat => ?_, fun r hr => absurd hr (hg.owns r), fun hst => ?_,
    fun hi => absurd hg.int hi⟩
  · rw [((ho.idle hidle).2 a ha).1.inttrig] at hat
    cases hat
  · rw [hg.started] at hst
    cases hst

/-- `comedi_event` of a command that the driver has let go on or has ended. -/
theorem SideOk.afterEvents {events : Option U32} (hb : Base s) (hrun : Running s)
    (hf : Follows ρ x events)
    (harm : ∀ a, s.async = some a → a.inttrig = some ρ.start →
      ¬ Ends events ∧ ρ.started x = false) : SideOk ρ (afterEvents b s events) x := by
  obtain ⟨a, ha, hz⟩ := hb.quiet hrun
  have hstay : ∀ s', Base s' → Running s' → (∀ a', s'.async = some a' → a'.inttrig = a.inttrig) →
      SideOk ρ s' x := fun s' hb' hr' hat =>
    ⟨hb', fun a' ha' ht => ⟨hr', (harm a ha (hat a' ha' ▸ ht)).2⟩, fun _ _ => hr', fun _ => hr',
      hf.int⟩
  cases events with
  | none =>
    refine hstay s hb hrun fun a' ha' => ?_
    rw [ha] at ha'
    cases ha'
    rfl
  | some e =>
    have hraise : (raised s e).async = some { a with events := e } := by
      simp [raised, ha, raiseEvents, hz]
    obtain ⟨r, hr, hr'⟩ := comediEvent_running b hraise hrun
    obtain ⟨issuer, ho⟩ := hb.orderly
    have ho' := ho.event e (b := b)
    change SideOk ρ (comediEvent b (raised s e)).1 x
    rw [hr] at ho' ⊢
    have hb' : Base { raised s e with async := some { a with events := 0 }, runflags := r } :=
      ⟨⟨issuer, ho'⟩, hb.cancel, fun _ => ⟨_, rfl, rfl⟩⟩
    by_cases he : e &&& endMask ≠ 0
    · have hg : Gone ρ x := hf.ends ⟨e, rfl, he⟩
      refine ⟨hb', fun a' ha' ht => ?_, fun r hr => absurd hr (hg.owns r), fun hst => ?_,
        fun hi => absurd hg.int hi⟩
      · cases ha'
        exact absurd ⟨e, rfl, he⟩ (harm a ha ht).1
      · rw [hg.started] at hst
        cases hst
    · refine hstay _ hb' ?_ fun a' ha' => ?_
      · unfold Running
        rw [hr', if_neg he]
        exact hrun
      · cases ha'
        rfl

/-- What the driver answers to a command: it refuses it and nothing has changed, or it accepts
it, and the command waits, runs or has ended. -/
structure Answers (ρ : Role) (p : Private) (x : Answer × Started) : Prop where
  refused : x.1.ret ≠ 0 → shared x.2.dev = shared p ∧ x.2.events = none
  accepted : x.1.ret = 0 → Follows ρ (shared x.2.dev) x.2.events
  armed : x.1.ret = 0 → x.1.inttrig = some ρ.start →
    ¬ Ends x.2.events ∧ ρ.started (shared x.2.dev) = false

theorem SideOk.request {start : Cmd → Answer × Started} (h : SideOk ρ s (shared p)) (req : CmdReq)
    (hstart : s.busy = none → ∀ cmd, Answers ρ p (start cmd))
    {y : Result (Option Started × CmdResult)}
    (ho : Outcome (fun cmd => .ok (start cmd)) s file y) :
    (∃ r, y = .ok (none, r) ∧ SideOk ρ r.2.2.1 (shared p)) ∨
      ∃ r cmd, y = .ok (some (start cmd).2, r) ∧ s.busy = none ∧
        SideOk ρ (CommandEnds.afterEvents r.2.1 r.2.2.1 (start cmd).2.events)
          (shared (start cmd).2.dev) := by
  cases ho with
  | short r hq he hidle hrun =>
    refine .inl ⟨r, rfl, ?_⟩
    by_cases hb : s.busy = none
    · exact .of_idle (h.toBase.cmd he req) (hidle.trans hb) (h.gone (h.toBase.not_running hb))
    · have hsame : r.2.2.1 = s := he.same_or_free.resolve_right hb
      rw [hsame]
      exact h
  | fault cmd e hl hs => cases hs
  | refused cmd ans left r hl hs hret hr hb hidle hrun he =>
    have hs' := Except.ok.inj hs
    have hans := hstart hb cmd
    rw [hs'] at hans
    obtain ⟨hsame, hnone⟩ := hans.refused hret
    refine .inr ⟨r, cmd, by rw [hs'], hb, ?_⟩
    rw [hs', hnone, hsame]
    exact .of_idle (h.toBase.cmd he req) hidle (h.gone (h.toBase.not_running hb))
  | started cmd ans left r a' hl hs hret hr hb hbusy hrun ha hcmd htrig he =>
    have hs' := Except.ok.inj hs
    have hans := hstart hb cmd
    rw [hs'] at hans
    refine .inr ⟨r, cmd, by rw [hs'], hb, ?_⟩
    rw [hs']
    refine .afterEvents (h.toBase.cmd he req) hrun (hans.accepted hret) fun a ha' hat => ?_
    rw [ha] at ha'
    cases ha'
    exact hans.armed hret (htrig.symm.trans hat)

end Sides

section Answers

variable {p : Private} {x x' : Shared}

theorem OtherOff.of_same (h : OtherOff x) (hs : SameBoard x x') : OtherOff x' := by
  unfold OtherOff
  rw [hs.hwver]
  exact hs.other.trans h

theorem ebusy_ne : (-ebusy : Int) ≠ 0 := by decide

/-- A command that has started does not wait for its start any more. -/
theorem aiStart_inttrig (p : Private) (cmd : Cmd) : (aiStart p cmd).inttrig ≠ some aiInttrigStart := by
  unfold aiStart
  extract_lets p₁ p₂ q
  split
  · nofun
  split
  · dsimp only
    split <;> simp [aiInttrigScanBegin, aiInttrigStart]
  split <;> simp [aiInttrigConvert, aiInttrigStart]

theorem aoEnable_inttrig (p : Private) (cmd : Cmd) (events : Option U32) (written : List U32) :
    (aoEnable p cmd events written).inttrig ≠ some aoInttrigStart := by
  unfold aoEnable
  dsimp only
  split <;> simp [aoInttrigScanBegin, aoInttrigStart]

theorem aoStart_inttrig (p : Private) (cmd : Cmd) (r : AoReading) :
    (aoStart p cmd r).inttrig ≠ some aoInttrigStart := by
  unfold aoStart
  extract_lets p₁
  split
  · nofun
  split
  · generalize handleAoFifo p₁ cmd 0 r = y
    obtain ⟨run, h⟩ := y
    cases run with
    | true => exact aoEnable_inttrig _ _ _ _
    | false => nofun
  · exact aoEnable_inttrig _ _ _ _

theorem aiCmd_refused {cmd : Cmd} (h : (getResources (aiResMask cmd) .aiCmd p.resOwner).1 = false) :
    aiCmd p cmd = ({ ret := -ebusy }, { dev := p }) := by
  have hsame := getResources_fails h
  unfold aiCmd
  generalize getResources (aiResMask cmd) .aiCmd p.resOwner = y at h hsame
  obtain ⟨ok, owners⟩ := y
  cases h
  cases hsame
  rfl

theorem aiCmd_accepted {cmd : Cmd}
    (h : (getResources (aiResMask cmd) .aiCmd p.resOwner).1 = true) :
    aiCmd p cmd =
      let q := aiSetUp
        { p with resOwner := (getResources (aiResMask cmd) .aiCmd p.resOwner).2 } cmd
      if cmd.startSrc = trigInt then
        ({ inttrig := some aiInttrigStart }, { dev := q, inttrig := some aiInttrigStart })
      else ({ inttrig := (aiStart q cmd).inttrig }, aiStart q cmd) := by
  unfold aiCmd
  generalize getResources (aiResMask cmd) .aiCmd p.resOwner = y at h
  obtain ⟨ok, owners⟩ := y
  cases h
  rfl

theorem aiCmd_answers (hg : Gone aiRole (shared p)) (cmd : Cmd) :
    Answers aiRole p (aiCmd p cmd) ∧ Leaves aoRole (shared p) (shared (aiCmd p cmd).2.dev) ∧
      SameBoard (shared p) (shared (aiCmd p cmd).2.dev) := by
  cases hok : (getResources (aiResMask cmd) .aiCmd p.resOwner).1 with
  | false =>
    rw [aiCmd_refused hok]
    exact ⟨⟨fun _ => ⟨rfl, rfl⟩, fun h => absurd h ebusy_ne, fun h => absurd h ebusy_ne⟩,
      .refl .., .refl _⟩
  | true =>
    have hother : ∀ r, (getResources (aiResMask cmd) .aiCmd p.resOwner).2 r = .aoCmd →
        p.resOwner r = .aoCmd := fun r => getResources_other (by decide)
    rw [aiCmd_accepted hok]
    generalize (getResources (aiResMask cmd) .aiCmd p.resOwner).2 = owners at hother
    let q := aiSetUp { p with resOwner := owners } cmd
    by_cases hint : cmd.startSrc = trigInt
    · rw [if_pos hint]
      have hst : q.aiCmdStarted = false := hg.started
      refine ⟨⟨fun h => absurd rfl h, fun _ => ⟨fun h => absurd hg.int h,
        fun h => absurd h not_ends_none⟩, fun _ _ => ⟨not_ends_none, hst⟩⟩, ⟨hother, rfl, rfl⟩,
        ⟨rfl, rfl⟩⟩
    · rw [if_neg hint]
      obtain ⟨hf, hl, hb⟩ := aiStart_follows q cmd
      refine ⟨⟨fun h => absurd rfl h, fun _ => hf, fun _ h => ?_⟩,
        ⟨fun r hr => hother r (hl.owns r hr), hl.started, hl.int⟩, ⟨hb.hwver, hb.other⟩⟩
      exact absurd h (aiStart_inttrig q cmd)

theorem aoClaim_other (cmd : Cmd) {r : Res}
    (h : (if cmd.scanBeginSrc = trigTimer then getResources (bit 1) .aoCmd p.resOwner
      else (true, p.resOwner)).2 r = .aiCmd) : p.resOwner r = .aiCmd := by
  split at h
  · exact getResources_other (by decide) h
  · exact h

theorem aoCmd_answers (hg : Gone aoRole (shared p)) (cmd : Cmd) :
    Answers aoRole p (aoCmd p cmd) ∧ Leaves aiRole (shared p) (shared (aoCmd p cmd).2.dev) ∧
      SameBoard (shared p) (shared (aoCmd p cmd).2.dev) := by
  have hother := fun r => aoClaim_other (p := p) cmd (r := r)
  have hfail : (if cmd.scanBeginSrc = trigTimer then getResources (bit 1) .aoCmd p.resOwner
      else (true, p.resOwner)).1 = false →
      (if cmd.scanBeginSrc = trigTimer then getResources (bit 1) .aoCmd p.resOwner
        else (true, p.resOwner)).2 = p.resOwner := by
    split
    · exact getResources_fails
    · exact nofun
  unfold aoCmd
  generalize (if cmd.scanBeginSrc = trigTimer then getResources (bit 1) .aoCmd p.resOwner
    else (true, p.resOwner)) = y at hother hfail ⊢
  obtain ⟨ok, owners⟩ := y
  cases ok with
  | false =>
    cases hfail rfl
    exact ⟨⟨fun _ => ⟨rfl, rfl⟩, fun h => absurd h ebusy_ne, fun h => absurd h ebusy_ne⟩,
      .refl .., .refl _⟩
  | true =>
    have hst : p.aoCmdStarted = false := hg.started
    exact ⟨⟨fun h => absurd rfl h, fun _ => ⟨fun h => absurd hg.int h,
      fun h => absurd h not_ends_none⟩, fun _ _ => ⟨not_ends_none, hst⟩⟩, ⟨hother, rfl, rfl⟩,
      ⟨rfl, rfl⟩⟩

end Answers

structure Inv (st : Pci230State) : Prop where
  ai : SideOk aiRole st.ai (shared st.dev)
  ao : SideOk aoRole st.ao (shared st.dev)
  other : OtherOff (shared st.dev)

section Steps

variable {st st' : Pci230State} {p : Private} {ai ao s : Subdevice} {b : Board} {file : File}

theorem Inv.ai_step (h : Inv st) (b : Board) (hs : SideOk aiRole ai (shared p))
    (hl : Leaves aoRole (shared st.dev) (shared p)) (hb : SameBoard (shared st.dev) (shared p)) :
    Inv { st with board := b, dev := p, ai := ai } :=
  ⟨hs, h.ao.leaves hl, h.other.of_same hb⟩

theorem Inv.ao_step (h : Inv st) (b : Board) (hs : SideOk aoRole ao (shared p))
    (hl : Leaves aiRole (shared st.dev) (shared p)) (hb : SameBoard (shared st.dev) (shared p)) :
    Inv { st with board := b, dev := p, ao := ao } :=
  ⟨h.ai.leaves hl, hs, h.other.of_same hb⟩

theorem aiRequest_inv (h : Inv st) (req : CmdReq) (file : File) :
    ∃ st', aiRequest st req file = .ok st' ∧ Inv st' := by
  have hans := fun hb : st.ai.busy = none => aiCmd_answers (h.ai.gone (h.ai.toBase.not_running hb))
  unfold aiRequest
  obtain ⟨r, hr, hs⟩ | ⟨r, cmd, hr, hb, hs⟩ := h.ai.request req (fun hb cmd => (hans hb cmd).1)
    (commandIoctl_outcome (fun cmd => .ok (aiCmd st.dev cmd)) st.board st.ai req file)
  · rw [hr]
    exact ⟨_, rfl, h.ai_step _ hs (.refl ..) (.refl _)⟩
  · rw [hr]
    exact ⟨_, rfl, h.ai_step _ hs (hans hb cmd).2.1 (hans hb cmd).2.2⟩

theorem aoRequest_inv (h : Inv st) (req : CmdReq) (file : File) :
    ∃ st', aoRequest st req file = .ok st' ∧ Inv st' := by
  have hans := fun hb : st.ao.busy = none => aoCmd_answers (h.ao.gone (h.ao.toBase.not_running hb))
  unfold aoRequest
  obtain ⟨r, hr, hs⟩ | ⟨r, cmd, hr, hb, hs⟩ := h.ao.request req (fun hb cmd => (hans hb cmd).1)
    (commandIoctl_outcome (fun cmd => .ok (aoCmd st.dev cmd)) st.board st.ao req file)
  · rw [hr]
    exact ⟨_, rfl, h.ao_step _ hs (.refl ..) (.refl _)⟩
  · rw [hr]
    exact ⟨_, rfl, h.ao_step _ hs (hans hb cmd).2.1 (hans hb cmd).2.2⟩

theorem aiTriggered_inv (h : Inv st) (trigNum : U32) : Inv (aiTriggered st trigNum) := by
  unfold aiTriggered
  split
  · exact h
  next fn hfn =>
  obtain ⟨a, ha, hat⟩ := armed_fn hfn
  have hsame : Inv { st with ai := setInttrig st.ai (some fn) } := by
    rw [setInttrig_same ha hat]
    exact h
  unfold aiInttrig
  split
  · exact hsame
  split
  · next hstart =>
    obtain ⟨hf, hl, hb⟩ := aiStart_follows st.dev (commandOf st.ai)
    obtain ⟨hrun, -⟩ := h.ai.armed a ha (hat.trans (congrArg some hstart))
    refine h.ai_step st.board (.afterEvents (h.ai.toBase.setInttrig ha hat _) hrun hf ?_) hl hb
    intro a' ha' hat'
    rw [setInttrig_async ha'] at hat'
    exact absurd hat' (aiStart_inttrig st.dev (commandOf st.ai))
  · exact hsame

theorem aoTriggered_inv (h : Inv st) (trigNum : U32) (r : AoReading) :
    Inv (aoTriggered st trigNum r) := by
  unfold aoTriggered
  split
  · exact h
  next fn hfn =>
  obtain ⟨a, ha, hat⟩ := armed_fn hfn
  have hsame : Inv { st with ao := setInttrig st.ao (some fn) } := by
    rw [setInttrig_same ha hat]
    exact h
  unfold aoInttrig
  split
  · exact hsame
  split
  · next hstart =>
    obtain ⟨hf, hl, hb⟩ := aoStart_follows h.other (commandOf st.ao) r
    obtain ⟨hrun, -⟩ := h.ao.armed a ha (hat.trans (congrArg some hstart))
    refine h.ao_step st.board (.afterEvents (h.ao.toBase.setInttrig ha hat _) hrun hf ?_) hl hb
    intro a' ha' hat'
    rw [setInttrig_async ha'] at hat'
    exact absurd hat' (aoStart_inttrig st.dev (commandOf st.ao) r)
  split
  · next hstart hscan =>
    have hrun : Running st.ao := h.ao.started hscan.1
    have hz := pending_zero h.ao.toBase hrun
    have hf := handleAoNofifo_follows hscan.1 h.other hz (commandOf st.ao) r
    obtain ⟨hl, hb⟩ := handleAoNofifo_leaves st.dev (commandOf st.ao) r hz
    refine h.ao_step st.board (.afterEvents (h.ao.toBase.setInttrig ha hat _) hrun hf ?_) hl hb
    intro a' ha' hat'
    rw [setInttrig_async ha'] at hat'
    exact absurd (Option.some.inj hat') hstart
  · exact hsame

/-- A subdevice that has been given up, where no command was left waiting. -/
theorem ended_inv {ρ : Role} {stop : Private → Private}
    (hstop : ρ.started (shared p) = true → Gone ρ (shared (stop p)))
    (hidle : ρ.started (shared p) = false → stop p = p) (h : SideOk ρ s (shared p))
    (hfit : ¬ (ρ.started (shared p) = false ∧ ∃ r, p.resOwner r = ρ.own)) {lock : Option Owner}
    {called : Bool} (hcalled : Running s → called = true) :
    SideOk ρ { released s with lock := lock } (shared (if called then stop p else p)) := by
  have hbase : Base { released s with lock := lock } := by
    obtain ⟨⟨issuer, ho⟩, hc, hq⟩ := h.toBase.released
    exact ⟨⟨issuer, ho.of_lock⟩, hc, hq⟩
  refine .of_idle hbase rfl ?_
  cases hst : ρ.started (shared p) with
  | true =>
    rw [hcalled (h.started hst), if_pos rfl]
    exact hstop hst
  | false =>
    rw [hidle hst, ite_self]
    refine ⟨fun r hr => hfit ⟨hst, r, hr⟩, hst, ?_⟩
    by_contra hi
    rw [h.int hi] at hst
    cases hst

theorem SideOk.of_lock {ρ : Role} {x : Shared} (h : SideOk ρ s x) (lock : Option Owner) :
    SideOk ρ { s with lock := lock } x := by
  obtain ⟨⟨⟨issuer, ho⟩, hc, hq⟩, ha, hw, hs, hi⟩ := h
  exact ⟨⟨⟨issuer, ho.of_lock⟩, hc, hq⟩, ha, hw, hs, hi⟩

/-- What a request leaves that may give a subdevice up, if then no command was waiting. -/
def GivenUp (s s' : Subdevice) (calls : List Call) (waits : Prop) : Prop :=
  (∃ lock, s' = { s with lock := lock }) ∧ callsCancel calls = false ∨
    ¬ waits ∧ (∃ lock, s' = { released s with lock := lock }) ∧
      (Running s → callsCancel calls = true)

theorem GivenUp.of_cancel (b : Board) (hc : s.cancel = true) (file : File) {waits : Prop}
    (hfit : ¬ (Cancels s file ∧ waits)) :
    GivenUp s (doCancelIoctl b s {} file).2.2.1 (doCancelIoctl b s {} file).2.2.2 waits := by
  obtain ⟨hs, hcall⟩ | ⟨hcan, hs, hcall⟩ := cancel_cases b hc file
  · exact .inl ⟨⟨s.lock, hs⟩, hcall⟩
  · exact .inr ⟨fun hw => hfit ⟨hcan, hw⟩, ⟨s.lock, hs⟩, hcall⟩

theorem GivenUp.of_close (b : Board) (hc : s.cancel = true) (file : File) {waits : Prop}
    (hfit : ¬ (s.busy = some (.file file) ∧ waits)) :
    GivenUp s (closeSubdevice b s {} file).2.1 (closeSubdevice b s {} file).2.2 waits := by
  obtain ⟨hs, hcall⟩ | ⟨hbusy, hs, hcall⟩ := close_cases b hc file
  · exact .inl ⟨hs, hcall⟩
  · exact .inr ⟨fun hw => hfit ⟨hbusy, hw⟩, hs, hcall⟩

theorem aiEnded_inv (h : Inv st) {r : Board × Subdevice × List Call}
    (hr : GivenUp st.ai r.2.1 r.2.2 (aiWaits st)) : Inv (aiEnded st r) := by
  unfold aiEnded
  obtain ⟨⟨lock, hs⟩, hcall⟩ | ⟨hfit, ⟨lock, hs⟩, hcall⟩ := hr
  · rw [hs, hcall]
    exact h.ai_step _ (h.ai.of_lock lock) (.refl ..) (.refl _)
  · rw [hs]
    refine h.ai_step _ (ended_inv aiStop_gone aiStop_idle h.ai hfit hcall) ?_ ?_
    · split
      · exact aiStop_leaves st.dev
      · exact .refl ..
    · split
      · exact aiStop_sameBoard st.dev
      · exact .refl _

theorem aoEnded_inv (h : Inv st) {r : Board × Subdevice × List Call}
    (hr : GivenUp st.ao r.2.1 r.2.2 (aoWaits st)) : Inv (aoEnded st r) := by
  unfold aoEnded
  obtain ⟨⟨lock, hs⟩, hcall⟩ | ⟨hfit, ⟨lock, hs⟩, hcall⟩ := hr
  · rw [hs, hcall]
    exact h.ao_step _ (h.ao.of_lock lock) (.refl ..) (.refl _)
  · rw [hs]
    refine h.ao_step _ (ended_inv (fun hst => aoStop_gone hst h.other) aoStop_idle h.ao hfit hcall)
      ?_ ?_
    · split
      · exact aoStop_leaves st.dev
      · exact .refl ..
    · split
      · exact aoStop_sameBoard st.dev
      · exact .refl _

theorem SideOk.release {ρ : Role} {x : Shared} (h : SideOk ρ s x) (b : Board) :
    SideOk ρ (CommandEnds.release b s).2 x := by
  unfold CommandEnds.release
  split
  · exact h
  · next hr =>
    rw [doBecomeNonbusy_released]
    exact .of_idle h.toBase.released rfl (h.gone hr)

/-- An interrupt is handled for a command that has started. -/
theorem aiIsr_inv (h : Inv st) (hst : st.dev.aiCmdStarted = true) (r : AiReading) :
    Inv (aiIsr st r) := by
  have hrun : Running st.ai := h.ai.started hst
  have hz := pending_zero h.ai.toBase hrun
  have hf := handleAi_follows hst hz (commandOf st.ai) r
  obtain ⟨hl, hb⟩ := handleAi_leaves st.dev (commandOf st.ai) (pending st.ai) r
  refine h.ai_step st.board (.afterEvents h.ai.toBase hrun hf fun a ha hat => ?_) hl hb
  exact absurd hat (h.ai.not_armed hst ha)

theorem aoNofifoIsr_inv (h : Inv st) (hst : st.dev.aoCmdStarted = true) (r : AoReading) :
    Inv (aoNofifoIsr st r) := by
  have hrun : Running st.ao := h.ao.started hst
  have hz := pending_zero h.ao.toBase hrun
  have hf := handleAoNofifo_follows hst h.other hz (commandOf st.ao) r
  obtain ⟨hl, hb⟩ := handleAoNofifo_leaves st.dev (commandOf st.ao) r hz
  refine h.ao_step st.board (.afterEvents h.ao.toBase hrun hf fun a ha hat => ?_) hl hb
  exact absurd hat (h.ao.not_armed hst ha)

theorem aoFifoIsr_inv (h : Inv st) (hst : st.dev.aoCmdStarted = true) (r : AoReading) :
    Inv (aoFifoIsr st r) := by
  have hrun : Running st.ao := h.ao.started hst
  have hz := pending_zero h.ao.toBase hrun
  have hf := handleAoFifo_follows hst h.other hz (commandOf st.ao) r
  obtain ⟨hl, hb⟩ := handleAoFifo_leaves st.dev (commandOf st.ao) r hz
  refine h.ao_step st.board (.afterEvents h.ao.toBase hrun hf fun a ha hat => ?_) hl hb
  exact absurd hat (h.ao.not_armed hst ha)

theorem enabled_of_valid {intEn status m : Byte} (h : intEn &&& status &&& m ≠ 0) :
    intEn &&& m ≠ 0 := by
  intro hz
  apply h
  rw [BitVec.and_assoc, BitVec.and_comm status, ← BitVec.and_assoc, hz]
  exact BitVec.zero_and

theorem aoInts_ne : ∀ b : Byte, (b &&& intZclkCt1 ≠ 0 → b &&& aoRole.ints ≠ 0) ∧
    (b &&& intDac ≠ 0 → b &&& aoRole.ints ≠ 0) := by
  decide

/-- The hardware uses one of the two interrupts of analog output. -/
theorem OtherOff.one {x : Shared} (h : OtherOff x) (hz : x.intEn &&& intZclkCt1 ≠ 0) :
    x.intEn &&& intDac = 0 := by
  have key : ∀ b : Byte, b &&& ~~~(intAdc ||| aoIntsrc x.hwver) = 0 → b &&& intZclkCt1 ≠ 0 →
      b &&& intDac = 0 := by
    unfold aoIntsrc
    split <;> decide
  exact key x.intEn h hz

theorem interrupt_ao_inv (h : Inv st) (statusInt : Byte) (r : AoReading) :
    let valid := st.dev.intEn &&& statusInt
    let st₁ := if valid &&& intZclkCt1 ≠ 0 then aoNofifoIsr st r else st
    let st₂ := if valid &&& intDac ≠ 0 then aoFifoIsr st₁ r else st₁
    Inv st₂ ∧ st₂.dev.aiCmdStarted = st.dev.aiCmdStarted := by
  intro valid
  by_cases hz : valid &&& intZclkCt1 ≠ 0
  · have hen := enabled_of_valid hz
    have hst : st.dev.aoCmdStarted = true := h.ao.int ((aoInts_ne _).1 hen)
    have hd : ¬ valid &&& intDac ≠ 0 := fun hd => enabled_of_valid hd (h.other.one hen)
    dsimp only
    rw [if_pos hz, if_neg hd]
    have hz' := pending_zero h.ao.toBase (h.ao.started hst)
    exact ⟨aoNofifoIsr_inv h hst r, (handleAoNofifo_leaves st.dev (commandOf st.ao) r hz').1.started⟩
  · dsimp only
    rw [if_neg hz]
    split
    · next hd =>
      have hst : st.dev.aoCmdStarted = true := h.ao.int ((aoInts_ne _).2 (enabled_of_valid hd))
      have hz' := pending_zero h.ao.toBase (h.ao.started hst)
      exact ⟨aoFifoIsr_inv h hst r, (handleAoFifo_leaves st.dev (commandOf st.ao) r hz').1.started⟩
    · exact ⟨h, rfl⟩

theorem interrupt_inv (h : Inv st) (statusInt : Byte) (ai : AiReading) (ao : AoReading) :
    Inv (pci230Interrupt st statusInt ai ao) := by
  obtain ⟨h₂, hst₂⟩ := interrupt_ao_inv h statusInt ao
  unfold pci230Interrupt
  dsimp only at h₂ hst₂ ⊢
  split
  · next hv =>
    have hst : st.dev.aiCmdStarted = true := h.ai.int (enabled_of_valid hv)
    exact aiIsr_inv h₂ (hst₂.trans hst) ai
  · exact h₂

theorem step_inv (h : Inv st) (x : Pci230Step) (hfit : Fits st x) :
    ∃ st', pci230Step st x = .ok st' ∧ Inv st' := by
  cases x with
  | aiCmd req file => exact aiRequest_inv h req file
  | aoCmd req file => exact aoRequest_inv h req file
  | aiInttrig trigNum => exact ⟨_, rfl, aiTriggered_inv h trigNum⟩
  | aoInttrig trigNum r => exact ⟨_, rfl, aoTriggered_inv h trigNum r⟩
  | aiCancel file => exact ⟨_, rfl, aiEnded_inv h (.of_cancel st.board h.ai.cancel file hfit)⟩
  | aoCancel file => exact ⟨_, rfl, aoEnded_inv h (.of_cancel st.board h.ao.cancel file hfit)⟩
  | aiClose file => exact ⟨_, rfl, aiEnded_inv h (.of_close st.board h.ai.cancel file hfit)⟩
  | aoClose file => exact ⟨_, rfl, aoEnded_inv h (.of_close st.board h.ao.cancel file hfit)⟩
  | aiRelease => exact ⟨_, rfl, h.ai_step _ (h.ai.release st.board) (.refl ..) (.refl _)⟩
  | aoRelease => exact ⟨_, rfl, h.ao_step _ (h.ao.release st.board) (.refl ..) (.refl _)⟩
  | interrupt statusInt ai ao => exact ⟨_, rfl, interrupt_inv h statusInt ai ao⟩

theorem aiCmd_ret {cmd : Cmd} (h : ∀ r, FreeFor .aiCmd p.resOwner r) :
    (aiCmd p cmd).1.ret = 0 := by
  rw [aiCmd_accepted (getResources_ok h)]
  dsimp only
  split <;> rfl

theorem aoCmd_ret {cmd : Cmd} (h : ∀ r, FreeFor .aoCmd p.resOwner r) :
    (aoCmd p cmd).1.ret = 0 := by
  have hok : (if cmd.scanBeginSrc = trigTimer then getResources (bit 1) .aoCmd p.resOwner
      else (true, p.resOwner)).1 = true := by
    split
    · exact getResources_ok h
    · rfl
  unfold aoCmd
  generalize (if cmd.scanBeginSrc = trigTimer then getResources (bit 1) .aoCmd p.resOwner
    else (true, p.resOwner)) = y at hok ⊢
  obtain ⟨ok, owners⟩ := y
  cases hok
  rfl

theorem Inv.clean (h : Inv st) : Clean st where
  aiOwns := h.ai.owns
  aoOwns := h.ao.owns
  aiInt hn := (h.ai.gone hn).int
  aoInt hn := (h.ao.gone hn).int
  aoFree hn cmd := by
    have hg := (h.ai.gone hn).owns
    refine aoCmd_ret fun r => ?_
    cases hr : st.dev.resOwner r with
    | none => exact .inl hr
    | aiCmd => exact absurd hr (hg r)
    | aoCmd => exact .inr hr
  aiFree hn cmd := by
    have hg := (h.ao.gone hn).owns
    refine aiCmd_ret fun r => ?_
    cases hr : st.dev.resOwner r with
    | none => exact .inl hr
    | aiCmd => exact .inr hr
    | aoCmd => exact absurd hr (hg r)

/-- A waiting command that is given up keeps its counters. -/
theorem aiEnded_keeps (hw : aiWaits st) {r : Board × Subdevice × List Call} (hr : ¬ Running r.2.1) :
    ¬ Clean (aiEnded st r) := by
  obtain ⟨hst, res, hres⟩ := hw
  unfold aiEnded
  rw [aiStop_idle hst, ite_self]
  exact fun hc => hr (hc.aiOwns res hres)

theorem aoEnded_keeps (hw : aoWaits st) {r : Board × Subdevice × List Call} (hr : ¬ Running r.2.1) :
    ¬ Clean (aoEnded st r) := by
  obtain ⟨hst, res, hres⟩ := hw
  unfold aoEnded
  rw [aoStop_idle hst, ite_self]
  exact fun hc => hr (hc.aoOwns res hres)

theorem proper_fits {x : Pci230Step} (hp : Proper st x) : Fits st x := by
  obtain ⟨st', hok, hc⟩ := hp
  cases x with
  | aiCancel file =>
    rintro ⟨hcan, hw⟩
    cases hok
    exact aiEnded_keeps hw (cancel_released st.board hcan) hc
  | aoCancel file =>
    rintro ⟨hcan, hw⟩
    cases hok
    exact aoEnded_keeps hw (cancel_released st.board hcan) hc
  | aiClose file =>
    rintro ⟨hbusy, hw⟩
    cases hok
    exact aiEnded_keeps hw (close_released st.board hbusy) hc
  | aoClose file =>
    rintro ⟨hbusy, hw⟩
    cases hok
    exact aoEnded_keeps hw (close_released st.board hbusy) hc
  | _ => trivial

end Steps

/-- The board as `pci230_attach` leaves it. -/
structure Attached (st : Pci230State) : Prop where
  ai : Untouched st.ai
  ao : Untouched st.ao
  aiCancel : st.ai.cancel = true
  aoCancel : st.ao.cancel = true
  owners : ∀ r, st.dev.resOwner r = .none
  started : st.dev.aiCmdStarted = false ∧ st.dev.aoCmdStarted = false
  intEn : st.dev.intEn = 0

theorem Attached.inv {st : Pci230State} (h : Attached st) : Inv st := by
  have hside : ∀ (ρ : Role) (s : Subdevice), Untouched s → s.cancel = true → ρ.own ≠ .none →
      ρ.started (shared st.dev) = false → SideOk ρ s (shared st.dev) := by
    intro ρ s hs hc hown hst
    have hzero : st.dev.intEn &&& ρ.ints = 0 := by
      rw [h.intEn]
      exact BitVec.zero_and
    exact .of_idle ⟨⟨none, hs.orderly⟩, hc, fun hr => absurd hs.running hr⟩ hs.busy
      ⟨fun r hr => hown (hr.symm.trans (h.owners r)), hst, hzero⟩
  refine ⟨hside aiRole st.ai h.ai h.aiCancel nofun h.started.1,
    hside aoRole st.ao h.ao h.aoCancel nofun h.started.2, ?_⟩
  unfold OtherOff
  change st.dev.intEn &&& _ = 0
  rw [h.intEn]
  exact BitVec.zero_and

/-- A claim that fails changes no owner, and a run leaves the counters and the interrupts with the
commands that use them if and only if in it no command that owns a counter is given up before its
start trigger. -/
theorem counters_kept (st : Pci230State) (hst : Attached st) (xs : List Pci230Step) :
    (∀ mask owner owners, (getResources mask owner owners).1 = false →
        (getResources mask owner owners).2 = owners) ∧
      (AllFit pci230Step Proper st xs ↔ AllFit pci230Step Fits st xs) := by
  refine ⟨fun _ _ _ => getResources_fails, ?_, ?_⟩
  · intro h
    exact AllFit.of_invariant (fun _ => True) (fun _ _ _ _ _ _ => trivial)
      (fun _ _ _ => proper_fits) trivial h
  · have hkeep : ∀ st x st', Inv st → Fits st x → pci230Step st x = .ok st' → Inv st' := by
      intro st x st' h hfit hok
      obtain ⟨st₁, hok₁, h₁⟩ := step_inv h x hfit
      rw [hok] at hok₁
      cases hok₁
      exact h₁
    refine AllFit.of_invariant Inv hkeep (fun st x h hfit => ?_) hst.inv
    obtain ⟨st₁, hok, h₁⟩ := step_inv h x hfit
    exact ⟨st₁, hok, h₁.clean⟩

def freshBoard : Pci230State := ⟨{}, {}, duplex, duplex⟩

theorem freshBoard_attached : Attached freshBoard :=
  ⟨duplex_untouched, duplex_untouched, rfl, rfl, fun _ => rfl, ⟨rfl, rfl⟩, rfl⟩

/-- A command with timed scans and conversions. -/
def timed (startSrc : U32) : CmdReq where
  cmd :=
    { startSrc := startSrc
      scanBeginSrc := trigTimer
      convertSrc := trigTimer
      scanEndArg := 1
      stopSrc := trigNone
      chanlistLen := 1 }
  entries := some fun _ => 0
  test := .accepting

theorem counters_kept_started :
    AllFit pci230Step Proper freshBoard [.aiCmd (timed trigNow) 0, .aiCancel 0] := by
  refine ((counters_kept freshBoard freshBoard_attached _).2).mpr ?_
  refine AllFit.cons trivial rfl (AllFit.cons ?_ rfl trivial)
  rintro ⟨-, hst, -⟩
  cases hst

/-- The counters of an input command that is cancelled before its start trigger stay with it, and
timed output is refused. -/
theorem cancelled_before_trigger :
    ∃ st, run pci230Step freshBoard [.aiCmd (timed trigInt) 0, .aiCancel 0] = .ok st ∧
      ¬ Running st.ai ∧ (∀ r, st.dev.resOwner r = .aiCmd) ∧
      (aoCmd st.dev (timed trigInt).cmd).1.ret = -ebusy := by
  refine ⟨_, rfl, fun h => h rfl, ?_, rfl⟩
  decide

end Comedi.Pci230Counters
