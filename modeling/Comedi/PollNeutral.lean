import Comedi.CfcWrites
import Comedi.Poll
import Comedi.ReadSpecs

namespace Comedi.PollNeutral

open AsyncBuffer RingMarks RingCounters MungeBlocks BufinfoOrder Fc ReadWrite Poll CfcWrites
open ReadSpecs SerialCounter GuardedRuns

variable {k : Nat} {dev dev' : Device} {s s' : Subdevice} {a a' : Async} {out : List Written}

/-- An input subdevice with a running command and a buffer in order. -/
structure Acquires (s : Subdevice) (a : Async) : Prop where
  input : s.subdevFlags &&& sdfCmdRead ≠ 0
  running : s.runflags &&& srfRunning ≠ 0
  async : s.async = some a
  ringed : InRing s a
  readPtr_lt : a.bufReadPtr < a.preallocBufsz

/-- Unless an overflow is pending, all that was allocated is written. -/
def Settled (a : Async) : Prop :=
  a.events &&& comediCbOverflow = 0 → a.bufWriteAllocCount = a.bufWriteCount

/-- The bytes that are written and not read. -/
def unread (a : Async) : Nat := (a.bufWriteCount - a.bufReadCount).toNat

def withoutPolls (steps : List AcqStep) : List AcqStep := steps.filter fun x => ¬ x.isPoll

/-- All the polls of a run are made on files of a certain kind. -/
def PollsOn (files : FileInfo → Prop) (steps : List AcqStep) : Prop :=
  ∀ info, .poll info ∈ steps → files info

/-- Polling on such files changes nothing that the driver's writes return or raise, in any run
on a device with the write subdevice `wr`. -/
def Unnoticed (k : Nat) (wr : Option Nat) (files : FileInfo → Prop) : Prop :=
  ∀ dev s a steps, dev.writeSubdev = wr → dev.subdevices[k]? = some s → Acquires s a →
    PollsOn files steps →
    (·.2) <$> acqRun k dev steps = (·.2) <$> acqRun k dev (withoutPolls steps)

/-- Among such polls an overflow is raised only by bytes that do not fit behind the unread. -/
def OverflowsJustified (k : Nat) (wr : Option Nat) (files : FileInfo → Prop) : Prop :=
  ∀ dev s a steps dev' out s' a' data r a'', dev.writeSubdev = wr → dev.subdevices[k]? = some s →
    Acquires s a → Settled a → PollsOn files steps →
    (∀ data, .write data ∈ steps → data.length < 2 ^ 31) → data.length < 2 ^ 31 →
    acqRun k dev steps = .ok (dev', out) → dev'.subdevices[k]? = some s' → s'.async = some a' →
    a'.events &&& comediCbOverflow = 0 → cfcWriteArrayToBuffer s' a' data = .ok (r, a'') →
    a''.events &&& comediCbOverflow ≠ 0 → a'.preallocBufsz.toNat < unread a' + data.length

section Polling

variable {info : FileInfo}

theorem comediPoll_writeSubdev (dev : Device) (info : FileInfo) :
    (comediPoll dev info).2.writeSubdev = dev.writeSubdev := by
  rw [comediPoll_snd]
  split
  · rcases pollWrite_snd dev info with he | ⟨w, s, -, -, he⟩ <;> rw [he]
    rfl
  · rfl

/-- A poll touches the write subdevice of its file and no other. -/
theorem comediPoll_subdevice (h : comediGetWriteSubdevice info dev ≠ some k) :
    (comediPoll dev info).2.subdevices[k]? = dev.subdevices[k]? := by
  rw [comediPoll_snd]
  split
  · rcases pollWrite_snd dev info with he | ⟨w, s, hw, -, he⟩ <;> rw [he]
    have hne : w ≠ k := by
      rintro rfl
      exact h hw
    exact List.getElem?_set_ne hne
  · rfl

end Polling

theorem set_subdevice (h : dev.subdevices[k]? = some s) (s' : Subdevice) :
    (dev.set k s').subdevices[k]? = some s' := by
  have hk : k < dev.subdevices.length := (List.getElem?_eq_some_iff.mp h).1
  exact List.getElem?_set_self hk

/-- A step that is no poll sees of the device its own subdevice only. -/
theorem acqStep_of_not_poll {x : AcqStep} (hx : x.isPoll = false)
    (h : dev.subdevices[k]? = some s) :
    acqStep k dev x = (do
      let (s, out) ← subdeviceStep s x
      return (dev.set k s, out)) := by
  cases x with
  | poll info => cases hx
  | write data | read call | wake call signal => simp only [acqStep, h]

theorem acqRun_of_error {x : AcqStep} {xs : List AcqStep} {e : Fault}
    (h : acqStep k dev x = .error e) : acqRun k dev (x :: xs) = .error e := by
  rw [acqRun, h]

theorem acqRun_of_ok {x : AcqStep} {xs : List AcqStep} (h : acqStep k dev x = .ok (dev', out)) :
    (·.2) <$> acqRun k dev (x :: xs) = (out ++ ·) <$> ((·.2) <$> acqRun k dev' xs) := by
  cases hr : acqRun k dev' xs with
  | error e =>
    simp only [acqRun, h, hr]
    rfl
  | ok r =>
    simp only [acqRun, h, hr]
    rfl

/-- A run in which the polls leave the subdevice alone goes like the one without them. -/
theorem acqRun_withoutPolls {wr : Option Nat} {files : FileInfo → Prop}
    (hfiles : ∀ info, files info → (info.writeSubdevice <|> wr) ≠ some k)
    (steps : List AcqStep) (hpolls : PollsOn files steps) {dev₁ dev₂ : Device}
    (hwr : dev₁.writeSubdev = wr) (h₁ : dev₁.subdevices[k]? = some s)
    (h₂ : dev₂.subdevices[k]? = some s) :
    (·.2) <$> acqRun k dev₁ steps = (·.2) <$> acqRun k dev₂ (withoutPolls steps) := by
  induction steps generalizing dev₁ dev₂ s with
  | nil => rfl
  | cons x xs ih =>
    have hxs : PollsOn files xs := fun info hi => hpolls info (List.mem_cons_of_mem _ hi)
    cases hx : x.isPoll with
    | true =>
      cases x with
      | poll info =>
        have hne : comediGetWriteSubdevice info dev₁ ≠ some k := by
          rw [comediGetWriteSubdevice, hwr]
          exact hfiles info (hpolls info List.mem_cons_self)
        have hstep : acqStep k dev₁ (.poll info) = .ok ((comediPoll dev₁ info).2, []) := rfl
        have hrest := ih hxs ((comediPoll_writeSubdev dev₁ info).trans hwr)
          ((comediPoll_subdevice hne).trans h₁) h₂
        rw [acqRun_of_ok hstep, hrest]
        change _ = (·.2) <$> acqRun k dev₂ (withoutPolls xs)
        cases acqRun k dev₂ (withoutPolls xs) with
        | error e => rfl
        | ok r => rfl
      | write data | read call | wake call signal => cases hx
    | false =>
      have hw : withoutPolls (x :: xs) = x :: withoutPolls xs := by simp [withoutPolls, hx]
      rw [hw]
      have hs₁ := acqStep_of_not_poll hx h₁
      have hs₂ := acqStep_of_not_poll hx h₂
      cases hsub : subdeviceStep s x with
      | error e =>
        rw [hsub] at hs₁ hs₂
        rw [acqRun_of_error hs₁, acqRun_of_error hs₂]
      | ok r =>
        rw [hsub] at hs₁ hs₂
        rw [acqRun_of_ok hs₁, acqRun_of_ok hs₂]
        have hwr' : (dev₁.set k r.1).writeSubdev = wr := hwr
        have hrest := ih hxs hwr' (set_subdevice h₁ r.1) (set_subdevice h₂ r.1)
        rw [hrest]

theorem Acquires.set (h : Acquires s a) (hr : InRing s a') (hptr : a'.bufReadPtr < a'.preallocBufsz) :
    Acquires { s with async := some a' } a' :=
  ⟨h.input, h.running, rfl, hr.congr rfl rfl, hptr⟩

theorem Settled.kept (h : Settled a) (hk : Kept a a') : Settled a' := by
  intro he
  rw [hk.events] at he
  rw [hk.writeAllocCount, hk.writeCount]
  exact h he

theorem Settled.leaves (h : Settled a) (hl : Leaves a a') : Settled a' := by
  intro he
  rw [hl.events] at he
  have hz : a'.bufWriteAllocCount - a'.bufWriteCount = 0 := by
    rw [hl.owed, h he]
    exact BitVec.sub_self _
  exact sub_eq_zero.mp hz

theorem subdeviceStep_acquires {x : AcqStep} (h : Acquires s a) (hs : Settled a)
    (hlen : ∀ data, x = .write data → data.length < 2 ^ 31)
    (hx : subdeviceStep s x = .ok (s', out)) : ∃ a', Acquires s' a' ∧ Settled a' := by
  cases x with
  | write data =>
    simp only [subdeviceStep, h.async] at hx
    obtain ⟨⟨r, a'⟩, hw, hx⟩ := bind_eq_ok hx
    cases hx
    rcases cfcWrite_cases h.ringed (hlen data rfl) hw with
      rfl | ⟨-, hr, hl, he⟩ | ⟨-, hr, hl⟩
    · exact ⟨a', h.set h.ringed h.readPtr_lt, hs⟩
    · exact ⟨a', h.set hr (hl.readPtr_lt h.readPtr_lt), fun he' => absurd he' he⟩
    · exact ⟨a', h.set hr (hl.readPtr_lt h.readPtr_lt), hs.leaves hl⟩
  | read call =>
    obtain ⟨⟨pc, bytes, s₁⟩, he, hx⟩ := bind_eq_ok hx
    cases hx
    rcases readEnter_cases h.async he with ⟨rfl, -⟩ | ⟨-, -, a', hl, rfl⟩
    · exact ⟨a, h, hs⟩
    · obtain ⟨hr, hp, hk⟩ := readLoop_order h.ringed h.readPtr_lt hl
      exact ⟨a', h.set hr hp, hs.kept hk⟩
  | wake call signal =>
    obtain ⟨⟨pc, bytes, s₁⟩, he, hx⟩ := bind_eq_ok hx
    cases hx
    rcases readWake_cases h.async he with ⟨rfl, -⟩ | ⟨-, a', hl, rfl⟩
    · exact ⟨a, h, hs⟩
    · obtain ⟨hr, hp, hk⟩ := readLoop_order h.ringed h.readPtr_lt hl
      exact ⟨a', h.set hr hp, hs.kept hk⟩
  | poll info =>
    cases hx
    exact ⟨a, h, hs⟩

/-- Polls on other subdevices included, an acquisition stays one. -/
theorem acqRun_acquires {wr : Option Nat} {files : FileInfo → Prop}
    (hfiles : ∀ info, files info → (info.writeSubdevice <|> wr) ≠ some k)
    (steps : List AcqStep) (hpolls : PollsOn files steps)
    (hlen : ∀ data, .write data ∈ steps → data.length < 2 ^ 31)
    (hwr : dev.writeSubdev = wr) (hk : dev.subdevices[k]? = some s) (h : Acquires s a)
    (hs : Settled a) (hrun : acqRun k dev steps = .ok (dev', out)) :
    ∃ s' a', dev'.subdevices[k]? = some s' ∧ Acquires s' a' ∧ Settled a' := by
  induction steps generalizing dev s a out with
  | nil =>
    cases hrun
    exact ⟨s, a, hk, h, hs⟩
  | cons x xs ih =>
    have hxs : PollsOn files xs := fun info hi => hpolls info (List.mem_cons_of_mem _ hi)
    have hlens : ∀ data, .write data ∈ xs → data.length < 2 ^ 31 :=
      fun data hd => hlen data (List.mem_cons_of_mem _ hd)
    have hnext : ∃ dev₁ out₁ s₁ a₁ out₂, acqStep k dev x = .ok (dev₁, out₁) ∧
        dev₁.writeSubdev = wr ∧ dev₁.subdevices[k]? = some s₁ ∧ Acquires s₁ a₁ ∧ Settled a₁ ∧
        acqRun k dev₁ xs = .ok (dev', out₂) := by
      cases hstep : acqStep k dev x with
      | error e => simp [acqRun, hstep] at hrun
      | ok r =>
        obtain ⟨dev₁, out₁⟩ := r
        cases hrest : acqRun k dev₁ xs with
        | error e => simp [acqRun, hstep, hrest] at hrun
        | ok r =>
          obtain ⟨dev₂, out₂⟩ := r
          simp only [acqRun, hstep, hrest, Except.ok.injEq, Prod.mk.injEq] at hrun
          obtain ⟨rfl, -⟩ := hrun
          cases hx : x.isPoll with
          | true =>
            cases x with
            | poll info =>
              cases hstep
              have hne : comediGetWriteSubdevice info dev ≠ some k := by
                rw [comediGetWriteSubdevice, hwr]
                exact hfiles info (hpolls info List.mem_cons_self)
              exact ⟨_, _, s, a, out₂, rfl, (comediPoll_writeSubdev dev info).trans hwr,
                (comediPoll_subdevice hne).trans hk, h, hs, hrest⟩
            | write data | read call | wake call signal => cases hx
          | false =>
            rw [acqStep_of_not_poll hx hk] at hstep
            obtain ⟨⟨s₁, out'⟩, hsub, hstep⟩ := bind_eq_ok hstep
            cases hstep
            obtain ⟨a₁, h₁, hs₁⟩ := subdeviceStep_acquires h hs
              (fun data hd => hlen data (hd ▸ List.mem_cons_self)) hsub
            exact ⟨_, _, s₁, a₁, out₂, rfl, hwr, set_subdevice hk _, h₁, hs₁, hrest⟩
    obtain ⟨dev₁, out₁, s₁, a₁, out₂, -, hwr₁, hk₁, h₁, hs₁, hrest⟩ := hnext
    exact ih hxs hlens hwr₁ hk₁ h₁ hs₁ hrest

/-- Where all that was allocated is written, what is free is what is not unread. -/
theorem room_settled (h : InRing s a) (he : a.bufWriteAllocCount = a.bufWriteCount) :
    room a + unread a = a.preallocBufsz.toNat := by
  have hcap := h.munge.bufsz_lt
  obtain ⟨μ, hμ⟩ := h.order.exists_tracks
  have hc := μ.chain
  have hu : unread a = μ.written - μ.read := by
    rw [unread, hμ.writeCount, hμ.readCount, toNat_ofNat_sub (by omega) (by omega)]
  have hw : μ.writeAlloc - μ.written = 0 := by
    rw [← toNat_ofNat_sub (m := μ.writeAlloc) (n := μ.written) (by omega) (by omega),
      ← hμ.writeCount, ← hμ.writeAllocCount, he, BitVec.sub_self]
    rfl
  rw [tracks_room hcap hμ, hu, Marks.room]
  omega

/-- File 0 records on subdevice `k`, and everybody can see it. -/
def recorder (k : Nat) (wr : Option Nat) : Device where
  subdevices := List.replicate (k + 1) capture
  writeSubdev := wr

theorem recorder_acquires (k : Nat) (wr : Option Nat) :
    ∃ a, (recorder k wr).subdevices[k]? = some capture ∧ Acquires capture a ∧ Settled a := by
  obtain ⟨a, ha, hr⟩ := capture_ringed
  refine ⟨a, by simp [recorder], ⟨by decide, by decide, ha, hr, ?_⟩, ?_⟩
  · cases ha
    decide
  · cases ha
    exact fun _ => rfl

/-- A poll by a file that writes to the recording subdevice takes all of the space. -/
theorem recorder_poll {info : FileInfo} {wr : Option Nat}
    (h : (info.writeSubdevice <|> wr) = some k) :
    (·.2) <$> acqRun k (recorder k wr) [.poll info, .write [0, 0]] = .ok [⟨0, comediCbOverflow⟩] := by
  have hg : comediGetWriteSubdevice info (recorder k wr) = some k := h
  have hk : (recorder k wr).subdevices[k]? = some capture := by simp [recorder]
  have hp : (comediPoll (recorder k wr) info).2 =
      (recorder k wr).set k (pollWriteSubdevice capture).2 := by
    have hatt : (recorder k wr).attached = true := rfl
    rw [comediPoll_snd, if_pos hatt, pollWrite, hg]
    simp only [hk]
  have hpoll : acqStep k (recorder k wr) (.poll info) =
      .ok ((recorder k wr).set k (pollWriteSubdevice capture).2, []) := by
    rw [← hp]
    rfl
  have hwrite := acqStep_of_not_poll (x := .write [0, 0]) rfl
    (set_subdevice hk (pollWriteSubdevice capture).2)
  rw [acqRun_of_ok hpoll, acqRun_of_ok hwrite]
  rfl

theorem recorder_write (k : Nat) (wr : Option Nat) :
    (·.2) <$> acqRun k (recorder k wr) [.write [0, 0]] =
      .ok [⟨2, comediCbEos ||| comediCbBlock⟩] := by
  have hk : (recorder k wr).subdevices[k]? = some capture := by simp [recorder]
  have hwrite := acqStep_of_not_poll (x := .write [0, 0]) rfl hk
  rw [acqRun_of_ok hwrite]
  rfl

end Comedi.PollNeutral
