import Comedi.RequestEffects
import Comedi.DeviceSteps

namespace Comedi.LockExclusion

open RunState Requests Instructions ReadWrite Bufinfo CommandSteps RequestEffects Kcomedilib Poll
open DeviceSteps GuardedRuns

/-- A subdevice that a file has locked is busy with no other file. -/
def Guarded (s : Subdevice) : Prop :=
  ∀ holder owner, s.lock = some (.file holder) → s.busy = some (.file owner) → owner = holder

variable {b b' : Board} {s s' : Subdevice} {file : File} {ans : Answer}

theorem Guarded.of_idle (h : s.busy = none) : Guarded s := by
  intro holder owner _ hb
  rw [h] at hb
  cases hb

theorem Guarded.of_same (h : Guarded s) (hl : s'.lock = s.lock) (hb : s'.busy = s.busy) :
    Guarded s' := by
  intro holder owner hl' hb'
  exact h holder owner (hl ▸ hl') (hb ▸ hb')

theorem Guarded.of_open (h : s.lock = none) : Guarded s := by
  intro holder owner hl _
  rw [h] at hl
  cases hl

theorem Guarded.of_kernel (h : s.busy = some .kernel) : Guarded s := by
  intro holder owner _ hb
  rw [h] at hb
  cases hb

theorem Guarded.stirred (h : Guarded s) (hs : Stirred s s') : Guarded s' := by
  obtain ⟨a, a', -, -⟩ := hs
  exact h.of_same rfl rfl

theorem Guarded.io (h : Guarded s) (hs : IoEffect s file s') : Guarded s' := by
  cases hs with
  | nothing => exact h
  | used s' hb hs => exact h.stirred hs

theorem Guarded.bufinfo {bi : Info} (h : Guarded s) (hs : BufinfoEffect s bi file s') :
    Guarded s' := by
  cases hs with
  | nothing => exact h
  | used s' hb hl hs => exact h.stirred hs
  | freed s' hb hl hf hs => exact .of_idle rfl
  | usedFreed s' hb hl hw hs =>
    obtain ⟨s₁, -, hs⟩ := hs
    exact (Guarded.of_idle (released_busy s₁)).stirred hs

theorem lock_of_not_lockedOut {o : Owner} (hl : s.lockedOut file = false) (h : s.lock = some o) :
    o = .file file := by
  simpa [Subdevice.lockedOut, h] using hl

theorem Guarded.cmd {calls : List Call} (h : Guarded s) (hs : CmdEffect s file calls s') :
    Guarded s' := by
  cases hs with
  | refused => exact h
  | noMemory a a' hs hb ha hc => exact h.of_same rfl rfl
  | failed a a' r calls hs hb ha hc => exact .of_idle rfl
  | started a a' r s₀ cmd hs hb hl ha hr he hc =>
    intro holder owner hlock howner
    cases lock_of_not_lockedOut hl hlock
    cases howner
    rfl

theorem Guarded.cancel (h : Guarded s) (b : Board) (ans : Answer) (file : File) :
    Guarded (doCancelIoctl b s ans file).2.2.1 := by
  rcases doCancelIoctl_cases b s ans file with he | ⟨-, -, he⟩ <;> rw [he]
  · exact h
  · exact .of_idle rfl

theorem Guarded.lock (h : Guarded s) : Guarded (doLockIoctl s file).2 := by
  unfold doLockIoctl
  split
  · exact h
  · next hb =>
    rw [not_or, Option.not_isSome_iff_eq_none] at hb
    exact .of_idle hb.1

theorem Guarded.unlock (h : Guarded s) : Guarded (doUnlockIoctl s file).2 := by
  unfold doUnlockIoctl
  split
  · exact h
  split
  · exact h
  split
  · exact .of_open rfl
  · exact h

theorem closeSubdevice_cases (b : Board) (s : Subdevice) (ans : Answer) (file : File) :
    (closeSubdevice b s ans file).2.1.busy = none ∨
      (closeSubdevice b s ans file).2.1.busy = s.busy ∧
        ((closeSubdevice b s ans file).2.1.lock = s.lock ∨
          (closeSubdevice b s ans file).2.1.lock = none) := by
  have hd := doCancel_released b s ans
  unfold closeSubdevice
  by_cases hb : s.busy = some (.file file)
  · simp only [if_pos hb]
    left
    split
    · change (doCancel b s ans).2.2.1.busy = none
      rw [hd]
      rfl
    · rw [hd]
      rfl
  · simp only [if_neg hb]
    right
    split
    · exact ⟨rfl, .inr rfl⟩
    · exact ⟨rfl, .inl rfl⟩

theorem Guarded.close (h : Guarded s) : Guarded (closeSubdevice b s ans file).2.1 := by
  rcases closeSubdevice_cases b s ans file with hb | ⟨hb, hl | hl⟩
  · exact .of_idle hb
  · exact h.of_same hl hb
  · exact .of_open hl

theorem Guarded.event (h : Guarded s) : Guarded (comediEvent b s).1 := by
  unfold comediEvent
  split
  · exact h
  split
  · exact h
  · exact h.of_same rfl rfl

theorem Guarded.subdeviceInsn {req : InsnReq} {data : Nat → U32} (h : Guarded s) :
    Guarded (subdeviceInsn s req data file).2.2.1 := by
  unfold Instructions.subdeviceInsn
  split
  · exact h
  split
  · exact h
  split
  · exact h
  split
  · exact h
  · exact .of_idle rfl

theorem Guarded.inttrigInsn {x : U32} (h : Guarded s) : Guarded (inttrigInsn s x ans).2.1 := by
  unfold Instructions.inttrigInsn
  split
  · exact h
  split
  · exact h
  · exact h.of_same rfl rfl

theorem Guarded.clientInsn {req : InsnReq} {data : Nat → U32} (h : Guarded s) :
    Guarded (clientInsn s req data).2.2.1 := by
  unfold Kcomedilib.clientInsn
  split
  · exact h
  split
  · exact h
  split
  · exact h
  · exact .of_idle rfl

theorem Guarded.command (h : Guarded s) (b : Board) (cmd : Cmd) (ans : Answer) :
    Guarded (comediCommand b s cmd ans).2.2.1 := by
  unfold comediCommand
  split
  · exact h
  split
  · exact h
  split
  · exact h
  · exact .of_kernel rfl

theorem Guarded.comediCancel (h : Guarded s) (b : Board) (ans : Answer) :
    Guarded (comediCancel b s ans).2.2.1 := by
  unfold Kcomedilib.comediCancel
  split
  · exact h
  split
  · exact h
  split
  · exact h.of_same rfl rfl
  · exact .of_idle rfl

theorem Guarded.comediLock (h : Guarded s) : Guarded (comediLock s).2 := by
  unfold Kcomedilib.comediLock
  split
  · exact h
  · next hb =>
    rw [not_or, Option.not_isSome_iff_eq_none] at hb
    exact .of_idle hb.1

theorem Guarded.comediUnlock (h : Guarded s) : Guarded (comediUnlock s).2 := by
  unfold Kcomedilib.comediUnlock
  split
  · exact h
  split
  · exact h
  · exact .of_open rfl

/-- All subdevices of the device are guarded. -/
def AllGuarded (dev : Device) : Prop := ∀ s ∈ dev.subdevices, Guarded s

variable {dev dev' : Device} {k : Nat} {calls : List (Nat × Call)}

theorem AllGuarded.set (h : AllGuarded dev) (hs : Guarded s') : AllGuarded (dev.set k s') := by
  intro s hm
  rcases List.mem_or_eq_of_mem_set hm with hm | rfl
  · exact h s hm
  · exact hs

theorem AllGuarded.get (h : AllGuarded dev) (hk : dev.subdevices[k]? = some s) : Guarded s :=
  h s (List.mem_of_getElem? hk)

/-- What keeps a subdevice guarded keeps the device guarded. -/
theorem AllGuarded.onSubdevice {f : Effect} (h : AllGuarded dev)
    (hf : ∀ b s b' s' calls, Guarded s → f b s = .ok (b', s', calls) → Guarded s')
    (hr : onSubdevice dev k f = .ok (dev', calls)) : AllGuarded dev' := by
  unfold DeviceSteps.onSubdevice at hr
  split at hr
  · cases hr
    exact h
  · next s hk =>
    obtain ⟨⟨b', s', calls'⟩, he, hr⟩ := bind_eq_ok hr
    cases hr
    exact h.set (hf _ _ _ _ _ (h.get hk) he)

theorem AllGuarded.parseInsn {req : InsnReq} {data : Nat → U32} (h : AllGuarded dev) :
    AllGuarded (parseInsn dev req data file).dev := by
  unfold Instructions.parseInsn specialInsn ordinaryInsn
  split
  · dsimp only
    split
    · split <;> exact h
    split
    · split <;> exact h
    split
    · split
      · exact h
      split
      · exact h
      · next s hk => exact h.set (h.get hk).inttrigInsn
    · exact h
  · dsimp only
    split
    · exact h
    · next s hk => exact h.set (h.get hk).subdeviceInsn

theorem AllGuarded.comediDoInsn {req : InsnReq} {data : Nat → U32} (h : AllGuarded dev) :
    AllGuarded (comediDoInsn dev req data).dev := by
  unfold Kcomedilib.comediDoInsn clientSpecial
  split
  · dsimp only
    split
    · exact h
    split
    · split <;> exact h
    split
    · split
      · exact h
      split
      · exact h
      · next s hk => exact h.set (h.get hk).inttrigInsn
    · exact h
  · dsimp only
    split
    · exact h
    · next s hk => exact h.set (h.get hk).clientInsn

theorem AllGuarded.doInsnIoctl {req : InsnReq} {allocOk : Bool} {mem : Nat → U32}
    (h : AllGuarded dev) : AllGuarded (doInsnIoctl dev req allocOk file mem).dev := by
  unfold Instructions.doInsnIoctl
  split
  · exact h
  split
  · exact h
  dsimp only
  split
  · exact h.parseInsn
  split <;> exact h.parseInsn

theorem AllGuarded.insnlistLoop (reqs : List InsnReq) (i : Nat) (data : Nat → U32)
    (h : AllGuarded dev) : AllGuarded (insnlistLoop file reqs i dev data).dev := by
  induction reqs generalizing i dev data with
  | nil => exact h
  | cons req reqs ih =>
    unfold Instructions.insnlistLoop
    split
    · exact h
    dsimp only
    split
    · exact h.parseInsn
    split
    · exact h.parseInsn
    · exact ih _ _ h.parseInsn

theorem AllGuarded.doInsnlistIoctl {insns : Option (List InsnReq)} {allocInsns allocData : Bool}
    {mem : Nat → U32} (h : AllGuarded dev) :
    AllGuarded (doInsnlistIoctl dev insns allocInsns allocData file mem).dev := by
  unfold Instructions.doInsnlistIoctl
  split
  · exact h
  split
  · exact h
  split
  · exact h
  · exact h.insnlistLoop _ _ _

theorem AllGuarded.perform {r : Request} (h : AllGuarded dev)
    (hr : perform dev file r = .ok (dev', calls)) : AllGuarded dev' := by
  cases r with
  | insn req allocOk mem =>
    cases hr
    exact h.doInsnIoctl
  | insnlist insns allocInsns allocData mem =>
    cases hr
    exact h.doInsnlistIoctl
  | cmd req =>
    simp only [DeviceSteps.perform] at hr
    refine h.onSubdevice (fun b s b' s' calls hs he => ?_) hr
    have := hs.cmd (doCmdIoctl_effect b s req file)
    injection he with he
    rwa [he] at this
  | cancel k ans =>
    simp only [DeviceSteps.perform] at hr
    refine h.onSubdevice (fun b s b' s' calls hs he => ?_) hr
    have := hs.cancel b ans file
    injection he with he
    rwa [he] at this
  | poll k ret =>
    simp only [DeviceSteps.perform] at hr
    refine h.onSubdevice (fun b s b' s' calls hs he => ?_) hr
    cases he
    exact hs
  | bufinfo bi copyTo =>
    simp only [DeviceSteps.perform] at hr
    refine h.onSubdevice (fun b s b' s' calls hs he => ?_) hr
    obtain ⟨⟨ret, out, b₁, s₁⟩, hb, he⟩ := bind_eq_ok he
    cases he
    exact hs.bufinfo (doBufinfoIoctl_effect hb)
  | lock k =>
    simp only [DeviceSteps.perform] at hr
    refine h.onSubdevice (fun b s b' s' calls hs he => ?_) hr
    cases he
    exact hs.lock
  | unlock k =>
    simp only [DeviceSteps.perform] at hr
    refine h.onSubdevice (fun b s b' s' calls hs he => ?_) hr
    cases he
    exact hs.unlock
  | read k nbytes nonblock missed =>
    simp only [DeviceSteps.perform] at hr
    refine h.onSubdevice (fun b s b' s' calls hs he => ?_) hr
    obtain ⟨⟨pc, bytes, s₁⟩, hb, he⟩ := bind_eq_ok he
    cases he
    exact hs.io (readEnter_effect hb)
  | write k nbytes nonblock missed data =>
    simp only [DeviceSteps.perform] at hr
    refine h.onSubdevice (fun b s b' s' calls hs he => ?_) hr
    obtain ⟨⟨pc, s₁⟩, hb, he⟩ := bind_eq_ok he
    cases he
    exact hs.io (writeEnter_effect hb)

theorem fst_ok {x : Result (Device × List (Nat × Call))} (h : (·.1) <$> x = .ok dev') :
    ∃ calls, x = .ok (dev', calls) := by
  cases x with
  | error e => cases h
  | ok r =>
    cases h
    exact ⟨r.2, rfl⟩

theorem AllGuarded.close (h : AllGuarded dev) (ans : Nat → Answer) :
    AllGuarded (comediClose dev file ans) := by
  have hloop : ∀ (ss : List Subdevice) (i : Nat) (b : Board), (∀ s ∈ ss, Guarded s) →
      ∀ s ∈ (closeLoop file ans i b ss).2, Guarded s := by
    intro ss
    induction ss with
    | nil => exact fun _ _ h => h
    | cons s ss ih =>
      intro i b hss
      rw [List.forall_mem_cons] at hss
      exact List.forall_mem_cons.mpr ⟨hss.1.close, ih _ _ hss.2⟩
  exact hloop dev.subdevices 0 dev.board h

theorem AllGuarded.comediPoll (h : AllGuarded dev) (info : FileInfo) :
    AllGuarded (comediPoll dev info).2 := by
  rw [comediPoll_snd]
  split
  · rcases pollWrite_snd dev info with he | ⟨w, s, -, hs, he⟩ <;> rw [he]
    · exact h
    · refine h.set ((h.get hs).of_same ?_ ?_) <;> unfold pollWriteSubdevice <;> split <;> rfl
  · exact h

theorem step_guarded (dev : Device) (x : Step) (dev' : Device) (h : AllGuarded dev)
    (hx : step dev x = .ok dev') : AllGuarded dev' := by
  cases x with
  | request file r =>
    obtain ⟨calls, hr⟩ := fst_ok hx
    exact h.perform hr
  | readWake k call signal =>
    obtain ⟨calls, hr⟩ := fst_ok hx
    refine h.onSubdevice (fun b s b' s' calls hs he => ?_) hr
    obtain ⟨⟨pc, bytes, s₁⟩, hb, he⟩ := bind_eq_ok he
    cases he
    exact hs.io (readWake_effect hb)
  | readRelease k =>
    obtain ⟨calls, hr⟩ := fst_ok hx
    refine h.onSubdevice (fun b s b' s' calls hs he => ?_) hr
    injection he with he
    have := readRelease_released b s
    rw [he] at this
    exact .of_idle (congrArg Subdevice.busy this)
  | readPost k ret =>
    obtain ⟨calls, hr⟩ := fst_ok hx
    refine h.onSubdevice (fun b s b' s' calls hs he => ?_) hr
    injection he with he
    rcases readPost_effect b s ret with hp | hp <;> rw [he] at hp
    · exact hs.of_same (congrArg Subdevice.lock hp) (congrArg Subdevice.busy hp)
    · exact .of_idle (congrArg Subdevice.busy hp)
  | writeWake k call data signal =>
    obtain ⟨calls, hr⟩ := fst_ok hx
    refine h.onSubdevice (fun b s b' s' calls hs he => ?_) hr
    obtain ⟨⟨pc, s₁⟩, hb, he⟩ := bind_eq_ok he
    cases he
    exact hs.io (writeWake_effect hb)
  | writeRelease k =>
    obtain ⟨calls, hr⟩ := fst_ok hx
    refine h.onSubdevice (fun b s b' s' calls hs he => ?_) hr
    injection he with he
    have := writeRelease_released b s
    rw [he] at this
    exact .of_idle (congrArg Subdevice.busy this)
  | close file ans =>
    cases hx
    exact h.close ans
  | pollFile info =>
    cases hx
    exact h.comediPoll info
  | driver k f =>
    obtain ⟨calls, hr⟩ := fst_ok hx
    refine h.onSubdevice (fun b s b' s' calls hs he => ?_) hr
    cases he
    exact hs.of_same rfl rfl
  | event k =>
    obtain ⟨calls, hr⟩ := fst_ok hx
    refine h.onSubdevice (fun b s b' s' calls hs he => ?_) hr
    have := hs.event (b := b)
    injection he with he
    injection he with _ he
    rwa [he] at this
  | kernelCommand k cmd ans =>
    obtain ⟨calls, hr⟩ := fst_ok hx
    refine h.onSubdevice (fun b s b' s' calls hs he => ?_) hr
    have := hs.command b cmd ans
    injection he with he
    rwa [he] at this
  | kernelCancel k ans =>
    obtain ⟨calls, hr⟩ := fst_ok hx
    refine h.onSubdevice (fun b s b' s' calls hs he => ?_) hr
    have := hs.comediCancel b ans
    injection he with he
    rwa [he] at this
  | kernelInsn req data =>
    cases hx
    exact h.comediDoInsn
  | kernelLock k =>
    obtain ⟨calls, hr⟩ := fst_ok hx
    refine h.onSubdevice (fun b s b' s' calls hs he => ?_) hr
    cases he
    exact hs.comediLock
  | kernelUnlock k =>
    obtain ⟨calls, hr⟩ := fst_ok hx
    refine h.onSubdevice (fun b s b' s' calls hs he => ?_) hr
    cases he
    exact hs.comediUnlock

/-- On every device that can be reached, a locked subdevice is busy with no other file. -/
theorem reachable_guarded (h : Reachable dev) : AllGuarded dev := by
  obtain ⟨dev₀, steps, hfresh, hrun⟩ := h
  have hall : AllFit step (fun _ _ => True) dev₀ steps := .of_forall (fun _ _ _ => trivial) _
  refine run_keeps AllGuarded ?_ (fun s hs => ?_) hall hrun
  · exact fun dev x dev' h _ hx => step_guarded dev x dev' h hx
  · exact .of_idle (hfresh s hs).2

/-- Nothing is called for subdevice `k`, and nothing in it changes. -/
def Spared (k : Nat) (dev dev' : Device) (calls : List (Nat × Call)) : Prop :=
  (∀ c, (k, c) ∉ calls) ∧ dev'.subdevices[k]? = dev.subdevices[k]?

/-- An `INSN_INTTRIG` for subdevice `k` whose trigger is armed. -/
def Triggers (k : Nat) (dev : Device) (insn : Insn) : Prop :=
  insn.insn = insnInttrig ∧ insn.n = 1 ∧ insn.subdev.toNat = k ∧
    ∃ s a fn, dev.subdevices[k]? = some s ∧ s.async = some a ∧ a.inttrig = some fn

/-- The loop over a list of instructions comes to one that triggers. -/
def FiresIn (k : Nat) (file : File) : List InsnReq → Device → (Nat → U32) → Prop
  | [], _, _ => False
  | req :: reqs, dev, data =>
    ∃ data', fillData req data = some data' ∧
      (Triggers k dev req.insn ∨
        0 ≤ (parseInsn dev req data' file).ret ∧
          ¬ (asksRead req.insn ∧ req.takes < req.insn.n.toNat) ∧
          FiresIn k file reqs (parseInsn dev req data' file).dev (parseInsn dev req data' file).data)

/-- The request gets to an instruction that triggers. -/
def Fires (k : Nat) (file : File) (dev : Device) : Request → Prop
  | .insn req allocOk mem =>
    allocOk = true ∧ (fillData req mem).isSome = true ∧ Triggers k dev req.insn
  | .insnlist insns allocInsns allocData mem =>
    allocInsns = true ∧ ∃ reqs, insns = some reqs ∧
      ¬ ((∃ req ∈ reqs, req.insn.n ≠ 0) ∧ ¬ allocData) ∧ FiresIn k file reqs dev mem
  | _ => False

/-- The requests that can concern subdevice `k`. -/
def On (k : Nat) : Request → Prop
  | .insn _ _ _ | .insnlist _ _ _ _ => True
  | .cmd req => req.cmd.subdev.toNat = k
  | .bufinfo bi _ => bi.subdevice.toNat = k
  | .cancel j _ | .poll j _ | .lock j | .unlock j | .read j _ _ _ | .write j _ _ _ _ => j = k

section Exclusion

variable {dev₁ dev₂ : Device} {calls₁ calls₂ : List (Nat × Call)}

theorem Spared.refl (k : Nat) (dev : Device) : Spared k dev dev [] := ⟨by simp, rfl⟩

theorem Spared.trans (h₁ : Spared k dev dev₁ calls₁) (h₂ : Spared k dev₁ dev₂ calls₂) :
    Spared k dev dev₂ (calls₁ ++ calls₂) := by
  refine ⟨fun c hc => ?_, h₂.2.trans h₁.2⟩
  rcases List.mem_append.mp hc with hc | hc
  · exact h₁.1 c hc
  · exact h₂.1 c hc

theorem Spared.set {j : Nat} (hj : j ≠ k) (s : Subdevice) (calls : List Call) :
    Spared k dev (dev.set j s) (calls.map (j, ·)) := by
  refine ⟨fun c hc => ?_, List.getElem?_set_ne hj⟩
  obtain ⟨c', -, he⟩ := List.mem_map.mp hc
  exact hj (congrArg Prod.fst he)

theorem Spared.same (hk : dev.subdevices[k]? = some s) : Spared k dev (dev.set k s) [] := by
  refine ⟨by simp, ?_⟩
  rw [hk]
  exact List.getElem?_set_self (List.getElem?_eq_some_iff.mp hk).1

variable {req : InsnReq} {data : Nat → U32}

theorem subdeviceInsn_lockedOut (hl : s.lockedOut file = true) :
    (subdeviceInsn s req data file).2.2 = (s, []) := by
  unfold subdeviceInsn
  split
  · rfl
  · rfl

/-- An instruction spares a subdevice that its file is locked out of, unless it triggers. -/
theorem parseInsn_spared (data : Nat → U32) (hk : dev.subdevices[k]? = some s) (hl : s.lockedOut file = true)
    (ht : ¬ Triggers k dev req.insn) :
    Spared k dev (parseInsn dev req data file).dev (parseInsn dev req data file).calls := by
  unfold parseInsn specialInsn ordinaryInsn
  split
  · dsimp only
    split
    · split <;> exact .refl k dev
    split
    · split <;> exact .refl k dev
    split
    · next htrig =>
      split
      · exact .refl k dev
      next hn =>
      split
      · exact .refl k dev
      next s' hs' =>
      by_cases hj : req.insn.subdev.toNat = k
      · rw [hj] at hs'
        cases hk.symm.trans hs'
        have hnone : inttrigInsn s (data 0) req.trig = ((inttrigInsn s (data 0) req.trig).1, s, []) := by
          unfold inttrigInsn
          split
          · rfl
          split
          · rfl
          next a ha _ fn hfn =>
          exact absurd ⟨htrig, not_not.mp hn, hj, s, a, fn, hk, ha, hfn⟩ ht
        rw [hnone, hj]
        exact .same hk
      · exact .set hj _ _
    · exact .refl k dev
  · dsimp only
    split
    · exact .refl k dev
    next s' hs' =>
    by_cases hj : req.insn.subdev.toNat = k
    · rw [hj] at hs'
      cases hk.symm.trans hs'
      rw [subdeviceInsn_lockedOut hl, hj]
      exact .same hk
    · exact .set hj _ _

/-- An instruction that triggers calls the driver. -/
theorem parseInsn_triggers (file : File) (data : Nat → U32) (ht : Triggers k dev req.insn) :
    ∃ c, c.isDriver = true ∧ (k, c) ∈ (parseInsn dev req data file).calls := by
  obtain ⟨hi, hn, hj, s, a, fn, hk, ha, hfn⟩ := ht
  have hspecial : req.insn.insn &&& insnMaskSpecial ≠ 0 := by
    rw [hi]
    decide
  have hg : req.insn.insn ≠ insnGtod := by
    rw [hi]
    decide
  have hw : req.insn.insn ≠ insnWait := by
    rw [hi]
    decide
  refine ⟨.inttrig fn (data 0), rfl, ?_⟩
  unfold parseInsn specialInsn
  simp only [if_pos hspecial, if_neg hg, if_neg hw, if_pos hi, if_neg (not_not.mpr hn), hj, hk,
    inttrigInsn, ha, hfn]
  simp

theorem insnlistLoop_spared (reqs : List InsnReq) (i : Nat) (data : Nat → U32)
    (hk : dev.subdevices[k]? = some s) (hl : s.lockedOut file = true)
    (hf : ¬ FiresIn k file reqs dev data) :
    Spared k dev (insnlistLoop file reqs i dev data).dev (insnlistLoop file reqs i dev data).calls := by
  induction reqs generalizing i dev data with
  | nil => exact .refl k dev
  | cons req reqs ih =>
    unfold insnlistLoop
    split
    · exact .refl k dev
    next data' hd =>
    have hone := parseInsn_spared data' hk hl fun ht =>
      hf ⟨data', hd, .inl ht⟩
    dsimp only
    split
    · exact hone
    next hret =>
    split
    · exact hone
    next hread =>
    refine hone.trans (ih _ _ (hone.2.trans hk) fun hrest => hf ⟨data', hd, .inr ⟨?_, hread, hrest⟩⟩)
    omega

theorem insnlistLoop_fires (reqs : List InsnReq) (i : Nat) (data : Nat → U32)
    (hf : FiresIn k file reqs dev data) :
    ∃ c, c.isDriver = true ∧ (k, c) ∈ (insnlistLoop file reqs i dev data).calls := by
  induction reqs generalizing i dev data with
  | nil => exact hf.elim
  | cons req reqs ih =>
    obtain ⟨data', hd, ht | ⟨hret, hread, hrest⟩⟩ := hf
    · obtain ⟨c, hc, hm⟩ := parseInsn_triggers file data' ht
      refine ⟨c, hc, ?_⟩
      simp only [insnlistLoop, hd]
      split
      · exact hm
      split
      · exact hm
      · exact List.mem_append_left _ hm
    · obtain ⟨c, hc, hm⟩ := ih (i + 1) _ hrest
      refine ⟨c, hc, ?_⟩
      simp only [insnlistLoop, hd, if_neg (not_lt.mpr hret), if_neg hread]
      exact List.mem_append_right _ hm

theorem doInsnIoctl_spared {allocOk : Bool} {mem : Nat → U32}
    (hk : dev.subdevices[k]? = some s) (hl : s.lockedOut file = true)
    (hf : ¬ Fires k file dev (.insn req allocOk mem)) :
    Spared k dev (doInsnIoctl dev req allocOk file mem).dev
      (doInsnIoctl dev req allocOk file mem).calls := by
  unfold doInsnIoctl
  split
  · exact .refl k dev
  next halloc =>
  split
  · exact .refl k dev
  next data hd =>
  have hone := parseInsn_spared data hk hl fun ht => by
    refine hf ⟨?_, by rw [hd]; rfl, ht⟩
    by_contra ha
    refine halloc ⟨?_, by simpa using ha⟩
    rw [ht.2.1]
    decide
  dsimp only
  split
  · exact hone
  split <;> exact hone

theorem doInsnIoctl_fires {allocOk : Bool} {mem : Nat → U32}
    (hf : Fires k file dev (.insn req allocOk mem)) :
    ∃ c, c.isDriver = true ∧ (k, c) ∈ (doInsnIoctl dev req allocOk file mem).calls := by
  obtain ⟨ha, hd, ht⟩ := hf
  obtain ⟨data, hd⟩ := Option.isSome_iff_exists.mp hd
  obtain ⟨c, hc, hm⟩ := parseInsn_triggers file data ht
  refine ⟨c, hc, ?_⟩
  simp only [doInsnIoctl, ha, hd, not_true_eq_false, and_false, if_false]
  split
  · exact hm
  split <;> exact hm

theorem doInsnlistIoctl_spared {insns : Option (List InsnReq)} {allocInsns allocData : Bool}
    {mem : Nat → U32} (hk : dev.subdevices[k]? = some s) (hl : s.lockedOut file = true)
    (hf : ¬ Fires k file dev (.insnlist insns allocInsns allocData mem)) :
    Spared k dev (doInsnlistIoctl dev insns allocInsns allocData file mem).dev
      (doInsnlistIoctl dev insns allocInsns allocData file mem).calls := by
  unfold doInsnlistIoctl
  split
  · exact .refl k dev
  next ha =>
  split
  · exact .refl k dev
  next reqs =>
  split
  · exact .refl k dev
  next hd =>
  exact insnlistLoop_spared reqs 0 mem hk hl fun h => hf ⟨by simpa using ha, reqs, rfl, hd, h⟩

theorem doInsnlistIoctl_fires {insns : Option (List InsnReq)} {allocInsns allocData : Bool}
    {mem : Nat → U32} (hf : Fires k file dev (.insnlist insns allocInsns allocData mem)) :
    ∃ c, c.isDriver = true ∧
      (k, c) ∈ (doInsnlistIoctl dev insns allocInsns allocData file mem).calls := by
  obtain ⟨ha, reqs, rfl, hd, h⟩ := hf
  simp only [doInsnlistIoctl, ha, not_true_eq_false, if_false, if_neg hd]
  exact insnlistLoop_fires reqs 0 mem h

theorem onSubdevice_spared {f : Effect} (hk : dev.subdevices[k]? = some s)
    (hf : f dev.board s = .ok (dev.board, s, [])) :
    ∃ dev' calls, onSubdevice dev k f = .ok (dev', calls) ∧ Spared k dev dev' calls := by
  refine ⟨{ dev.set k s with board := dev.board }, [], ?_, (Spared.same hk).1, (Spared.same hk).2⟩
  simp only [onSubdevice, hk, hf]
  rfl

theorem readEnter_refused (call : IoCall) (hb : s.busy ≠ some (.file call.file)) :
    ∃ pc, readEnter s call = .ok (pc, [], s) := by
  unfold readEnter
  split
  · exact ⟨_, rfl⟩
  split
  · exact ⟨_, rfl⟩
  split
  · exact ⟨_, rfl⟩
  next o ho =>
  rw [if_pos fun h => hb (by rw [ho, h])]
  exact ⟨_, rfl⟩

theorem writeEnter_refused (call : IoCall) (data : List Byte)
    (hb : s.busy ≠ some (.file call.file)) : ∃ pc, writeEnter s call data = .ok (pc, s) := by
  unfold writeEnter
  split
  · exact ⟨_, rfl⟩
  split
  · exact ⟨_, rfl⟩
  split
  · exact ⟨_, rfl⟩
  next o ho =>
  rw [if_pos fun h => hb (by rw [ho, h])]
  exact ⟨_, rfl⟩

theorem doCmdIoctl_lockedOut {req : CmdReq} (hl : s.lockedOut file = true) :
    (doCmdIoctl b s req file).2 = (b, s, []) := by
  have hr : cmdRefusal s req.cmd file ≠ none := fun h => by
    rw [(cmdRefusal_none h).1] at hl
    cases hl
  unfold doCmdIoctl
  split
  · rfl
  · rfl
  · next h _ => exact absurd h hr

theorem doCancelIoctl_lockedOut (hl : s.lockedOut file = true) :
    (doCancelIoctl b s ans file).2 = (b, s, []) := by
  unfold doCancelIoctl
  split
  · rfl
  · rfl

theorem lock_isSome (hl : s.lockedOut file = true) : s.lock.isSome = true := by
  unfold Subdevice.lockedOut at hl
  split at hl
  · cases hl
  · next h =>
    rw [h]
    rfl

theorem doUnlockIoctl_lockedOut (hl : s.lockedOut file = true) :
    (doUnlockIoctl s file).2 = s := by
  unfold doUnlockIoctl
  split
  · rfl
  · rfl

/-- Every request on a subdevice is answered, and spares the subdevice while the file is locked
out of it and does not own its command, unless it triggers. -/
theorem perform_spared {r : Request} (hk : dev.subdevices[k]? = some s)
    (hl : s.lockedOut file = true) (hb : s.busy ≠ some (.file file)) (hon : On k r)
    (hf : ¬ Fires k file dev r) :
    ∃ dev' calls, perform dev file r = .ok (dev', calls) ∧ Spared k dev dev' calls := by
  cases r with
  | insn req allocOk mem => exact ⟨_, _, rfl, doInsnIoctl_spared hk hl hf⟩
  | insnlist insns allocInsns allocData mem => exact ⟨_, _, rfl, doInsnlistIoctl_spared hk hl hf⟩
  | cmd req =>
    obtain rfl : req.cmd.subdev.toNat = k := hon
    simp only [perform]
    refine onSubdevice_spared hk ?_
    rw [doCmdIoctl_lockedOut hl]
  | cancel j ans =>
    obtain rfl : j = k := hon
    simp only [perform]
    refine onSubdevice_spared hk ?_
    rw [doCancelIoctl_lockedOut hl]
  | poll j ret =>
    obtain rfl : j = k := hon
    simp only [perform]
    refine onSubdevice_spared hk ?_
    simp only [doPollIoctl, hl, if_true]
  | bufinfo bi copyTo =>
    obtain rfl : bi.subdevice.toNat = k := hon
    refine onSubdevice_spared hk ?_
    simp only [bufinfoEffect, doBufinfoIoctl, hl, if_true]
    rfl
  | lock j =>
    obtain rfl : j = k := hon
    simp only [perform]
    refine onSubdevice_spared hk ?_
    simp only [doLockIoctl, lock_isSome hl, or_true, if_true]
  | unlock j =>
    obtain rfl : j = k := hon
    simp only [perform]
    refine onSubdevice_spared hk ?_
    rw [doUnlockIoctl_lockedOut hl]
  | read j nbytes nonblock missed =>
    obtain rfl : j = k := hon
    obtain ⟨pc, he⟩ := readEnter_refused ⟨file, nbytes, nonblock, missed⟩ hb
    refine onSubdevice_spared hk ?_
    simp only [readEffect, he]
    rfl
  | write j nbytes nonblock missed data =>
    obtain rfl : j = k := hon
    obtain ⟨pc, he⟩ := writeEnter_refused ⟨file, nbytes, nonblock, missed⟩ data hb
    refine onSubdevice_spared hk ?_
    simp only [writeEffect, he]
    rfl

/-- A request that gets to an armed trigger calls the driver, whoever has locked what. -/
theorem perform_fires {r : Request} (hf : Fires k file dev r) :
    ∃ dev' calls c, perform dev file r = .ok (dev', calls) ∧ c.isDriver = true ∧ (k, c) ∈ calls := by
  cases r with
  | insn req allocOk mem =>
    obtain ⟨c, hc, hm⟩ := doInsnIoctl_fires hf
    exact ⟨_, _, c, rfl, hc, hm⟩
  | insnlist insns allocInsns allocData mem =>
    obtain ⟨c, hc, hm⟩ := doInsnlistIoctl_fires hf
    exact ⟨_, _, c, rfl, hc, hm⟩
  | _ => exact hf.elim

end Exclusion

/-- On a device that can be reached, a subdevice that another file has locked is spared by
exactly the requests that do not get to an armed trigger. -/
theorem lock_exclusion {holder : File} (hr : Reachable dev) (hk : dev.subdevices[k]? = some s)
    (hlock : s.lock = some (.file holder)) (hne : file ≠ holder) (r : Request) (hon : On k r) :
    ∃ dev' calls, perform dev file r = .ok (dev', calls) ∧
      (Spared k dev dev' calls ↔ ¬ Fires k file dev r) := by
  have hl : s.lockedOut file = true := by
    simp only [Subdevice.lockedOut, hlock]
    simpa using fun h => hne h.symm
  have hb : s.busy ≠ some (.file file) := fun h =>
    hne ((reachable_guarded hr).get hk holder file hlock h)
  by_cases hf : Fires k file dev r
  · obtain ⟨dev', calls, c, he, -, hm⟩ := perform_fires hf
    exact ⟨dev', calls, he, fun hs => absurd hm (hs.1 c), fun h => absurd hf h⟩
  · obtain ⟨dev', calls, he, hs⟩ := perform_spared hk hl hb hon hf
    exact ⟨dev', calls, he, fun _ => hf, fun _ => hs⟩

/-- A device with one input subdevice, before anybody has used it. -/
def unused : Device where
  subdevices := [{
    subdevFlags := sdfCmdRead
    nChan := 1
    rangeTable := some { length := 1 }
    async := some { preallocBufsz := 4096 } }]

/-- A command that waits for an internal trigger. -/
def waiting : CmdReq where
  cmd := { chanlistLen := 1 }
  entries := some fun _ => 0
  test := .accepting
  start := { inttrig := some 7 }

/-- File 0 has locked the subdevice and has started its command. -/
def armed : Device :=
  match GuardedRuns.run step unused [.request 0 (.lock 0), .request 0 (.cmd waiting)] with
  | .ok dev => dev
  | .error _ => unused

theorem armed_reachable : Reachable armed :=
  ⟨unused, [.request 0 (.lock 0), .request 0 (.cmd waiting)],
    fun s hs => by
      rw [List.mem_singleton.mp hs]
      exact ⟨rfl, rfl⟩,
    rfl⟩

theorem lock_exclusion_unlock :
    ∃ dev' calls, perform armed 1 (.unlock 0) = .ok (dev', calls) ∧
      (Spared 0 armed dev' calls ↔ ¬ Fires 0 1 armed (.unlock 0)) :=
  lock_exclusion armed_reachable (k := 0) rfl rfl (by decide) (.unlock 0) rfl

def trigger : InsnReq where
  insn := { insn := insnInttrig, n := 1 }

theorem trigger_in_lock :
    Reachable armed ∧ (∃ s, armed.subdevices[0]? = some s ∧ s.lock = some (.file 0)) ∧
    ∃ dev' calls, perform armed 1 (.insn trigger true fun _ => 0) = .ok (dev', calls) ∧
      (0, .inttrig 7 0) ∈ calls ∧ ¬ Spared 0 armed dev' calls := by
  refine ⟨armed_reachable, ⟨_, rfl, rfl⟩, _, _, rfl, .head _, ?_⟩
  exact fun h => h.1 _ (.head _)

end Comedi.LockExclusion
