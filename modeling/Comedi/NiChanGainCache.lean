import Comedi.NiChanGain

namespace Comedi.NiChanGainCache

open NiChanGain ChanlistCheck

/-- What a call of `ni_load_channelgain_list` is for. -/
def visible (d : Dev) : List MemWrite × (Nat → U32) × U16 × List U16 :=
  (d.configurationMemory, d.aiOffset, d.calibrationChannelSelect611x, d.calibrationChannel6143)

variable (board : NiBoard)

/-- After each call what is visible is the same in the run `c`, that takes the early return, and
in the run `u`, that does not. -/
def Agrees : Dev → Dev → List Op → Prop
  | _, _, [] => True
  | c, u, op :: ops =>
    ((op.list c.irq).isSome → visible (step board true c op) = visible (step board false u op)) ∧
      Agrees (step board true c op) (step board false u op) ops

/-- The calibration source with which the memory was programmed, after an operation. -/
def nextSource (d : Dev) (source : U32) (op : Op) : U32 :=
  match op.list d.irq with
  | some list => if single board list ∧ ready d list then source else d.aiCalibSource
  | none => source

/-- An entry that asks for the calibration source is not found in the cache, or the source is the
one with which the memory was programmed. -/
def CallFits (d : Dev) (source : U32) (op : Op) : Prop :=
  ∀ list ∈ op.list d.irq, single board list → ready d list →
    list.headD 0 &&& crAltSource ≠ 0 → source = d.aiCalibSource

def AllFit : Dev → U32 → List Op → Prop
  | _, _, [] => True
  | d, source, op :: ops =>
    CallFits board d source op ∧ AllFit (step board true d op) (nextSource board d source op) ops

variable {board} {c u d : Dev} {source a b spec x : U32} {op : Op} {ops : List Op}
  {list : List U32}

/-- What relates the two runs, and the cache to the memory. -/
structure Inv (board : NiBoard) (c u : Dev) (source : U32) : Prop where
  irq : u.irq = c.irq
  calib : u.aiCalibSource = c.aiCalibSource
  calib_lt : c.aiCalibSource.toNat < 8
  source_lt : source.toNat < 8
  offset : u.aiOffset = c.aiOffset
  select : u.calibrationChannelSelect611x = c.calibrationChannelSelect611x
  channel : u.calibrationChannel6143 = c.calibrationChannel6143
  memory : c.changainState ≠ 0 → c.configurationMemory = entries board source [c.changainSpec]
  held : c.changainState ≠ 0 → c.aiOffset 0 = offsetOf board c.changainSpec

instance : Decidable (CallFits board d source op) :=
  match h : op.list d.irq with
  | none => isTrue fun list hlist => by simp [h] at hlist
  | some list => decidable_of_iff (single board list → ready d list →
      list.headD 0 &&& crAltSource ≠ 0 → source = d.aiCalibSource) (by simp [CallFits, h])

theorem aiConfigChannel_of_lt (h : x.toNat < 8) : aiConfigChannel x = x := by
  apply BitVec.eq_of_toNat_eq
  unfold aiConfigChannel
  rw [BitVec.toNat_and]
  exact (Nat.and_two_pow_sub_one_eq_mod x.toNat 6).trans (Nat.mod_eq_of_lt (by omega))

/-- On an e-series board the source shows in the memory just where an entry asks for it. -/
theorem entries_eq_iff (hreg : board.regType = .eSeries) (ha : a.toNat < 8) (hb : b.toNat < 8) :
    entries board a [spec] = entries board b [spec] ↔ (spec &&& crAltSource ≠ 0 → a = b) := by
  have hne : board.regType ≠ .reg6143 := by
    rw [hreg]
    decide
  by_cases halt : spec &&& crAltSource ≠ 0
  · have hhigh : ∀ y : U32, y.toNat < 8 → high board y spec = y := by
      intro y hy
      unfold high channel
      dsimp only
      rw [if_pos halt, if_pos ⟨hne, halt⟩, aiConfigChannel_of_lt hy]
      exact BitVec.zero_or
    constructor
    · intro h _
      have hhi := (List.cons.inj h).1
      rw [hhigh a ha, hhigh b hb] at hhi
      have hn := congrArg BitVec.toNat (MemWrite.high.inj hhi)
      rw [BitVec.toNat_setWidth, BitVec.toNat_setWidth, Nat.mod_eq_of_lt (by omega),
        Nat.mod_eq_of_lt (by omega)] at hn
      exact BitVec.eq_of_toNat_eq hn
    · intro h
      rw [h halt]
  · have hchan : ∀ y, channel board y spec = crChan spec := fun y => if_neg fun h => halt h.2
    have hhigh : high board a spec = high board b spec := by
      unfold high
      rw [hchan a, hchan b]
    refine iff_of_true ?_ (fun h => absurd h halt)
    unfold entries entry
    rw [hhigh]
    rfl

/-- Programming again what is in the cache leaves the offsets. -/
theorem setOffsets_held (hlen : list.length = 1) {f : Nat → U32}
    (hf : f 0 = offsetOf board (list.headD 0)) : setOffsets board list f = f := by
  obtain ⟨spec, rfl⟩ := List.length_eq_one_iff.mp hlen
  funext i
  unfold setOffsets
  cases i with
  | zero => exact hf.symm
  | succ i => rfl

theorem load_single (hs : single board list) :
    niLoadChannelgainList board false d list =
      program board { d with changainState := 1, changainSpec := list.headD 0 } list := by
  unfold niLoadChannelgainList
  rw [if_pos hs, if_neg (fun h => Bool.false_ne_true h.1)]

theorem load_ready (hs : single board list) (hr : ready d list) :
    niLoadChannelgainList board true d list = d := by
  unfold niLoadChannelgainList
  rw [if_pos hs, if_pos ⟨rfl, hr⟩]

theorem load_not_ready (hs : single board list) (hr : ¬ ready d list) :
    niLoadChannelgainList board true d list =
      program board { d with changainState := 1, changainSpec := list.headD 0 } list := by
  unfold niLoadChannelgainList
  rw [if_pos hs, if_neg (fun h => hr h.2)]

theorem load_many (hs : ¬ single board list) (cached : Bool) :
    niLoadChannelgainList board cached d list =
      program board { d with changainState := 0 } list := by
  unfold niLoadChannelgainList
  rw [if_neg hs]

section ESeries

variable (hreg : board.regType = .eSeries)

include hreg

theorem program_eq (d : Dev) (list : List U32) : program board d list = { d with
    configurationMemory := entries board d.aiCalibSource list
    aiOffset := setOffsets board list d.aiOffset } := by
  have h6143 : board.regType ≠ .reg6143 := by
    rw [hreg]
    decide
  have h611x : board.regType ≠ .reg611x := by
    rw [hreg]
    decide
  unfold program
  rw [if_neg h6143]
  dsimp only
  rw [if_neg h611x]

theorem single_iff : single board list ↔ list.length = 1 := by
  unfold single
  rw [hreg]
  exact and_iff_left ⟨by decide, by decide⟩

/-- A call in the two runs, from states that are related. -/
structure Called (board : NiBoard) (c u c' u' : Dev) (source source' : U32) (list : List U32) :
    Prop where
  inv : Inv board c' u' source'
  visible : visible c' = visible u' ↔ (single board list → ready c list →
    list.headD 0 &&& crAltSource ≠ 0 → source = c.aiCalibSource)

theorem load_called (h : Inv board c u source) (list : List U32) :
    Called board c u (niLoadChannelgainList board true c list)
      (niLoadChannelgainList board false u list) source
      (if single board list ∧ ready c list then source else c.aiCalibSource) list := by
  by_cases hs : single board list
  · have hlen := (single_iff hreg).mp hs
    rw [load_single hs, program_eq hreg]
    by_cases hr : ready c list
    · have hoff : setOffsets board list u.aiOffset = c.aiOffset := by
        rw [h.offset]
        exact setOffsets_held hlen (hr.2 ▸ h.held hr.1)
      have hlist : list = [list.headD 0] := by
        obtain ⟨spec, rfl⟩ := List.length_eq_one_iff.mp hlen
        rfl
      have hmem : c.configurationMemory = entries board u.aiCalibSource list ↔
          (list.headD 0 &&& crAltSource ≠ 0 → source = c.aiCalibSource) := by
        rw [h.memory hr.1, hr.2, h.calib]
        nth_rewrite 2 [hlist]
        exact entries_eq_iff hreg h.source_lt h.calib_lt
      rw [load_ready hs hr, if_pos ⟨hs, hr⟩]
      refine ⟨⟨h.irq, h.calib, h.calib_lt, h.source_lt, hoff, h.select, h.channel, h.memory,
        h.held⟩, ?_⟩
      constructor
      · intro hvis _ _
        exact hmem.mp (congrArg (·.1) hvis)
      · intro hfit
        unfold NiChanGainCache.visible
        dsimp only
        rw [hmem.mpr (hfit hs hr), hoff, h.select, h.channel]
    · rw [load_not_ready hs hr, if_neg (fun hand => hr hand.2), program_eq hreg]
      obtain ⟨spec, rfl⟩ := List.length_eq_one_iff.mp hlen
      refine ⟨⟨h.irq, h.calib, h.calib_lt, h.calib_lt, ?_, h.select, h.channel, fun _ => rfl,
        fun _ => rfl⟩, iff_of_true ?_ (fun _ hr' => absurd hr' hr)⟩
      · dsimp only
        rw [h.offset]
      · unfold NiChanGainCache.visible
        dsimp only
        rw [h.calib, h.offset, h.select, h.channel]
  · rw [load_many hs, load_many hs, if_neg (fun hand => hs hand.1), program_eq hreg,
      program_eq hreg]
    refine ⟨⟨h.irq, h.calib, h.calib_lt, h.calib_lt, ?_, h.select, h.channel,
      fun hz => absurd rfl hz, fun hz => absurd rfl hz⟩, iff_of_true ?_ (fun hs' => absurd hs' hs)⟩
    · dsimp only
      rw [h.offset]
    · unfold NiChanGainCache.visible
      dsimp only
      rw [h.calib, h.offset, h.select, h.channel]

theorem altSource_inv (h : Inv board c u source) (data1 : U32) :
    Inv board (altSource board c data1).2 (altSource board u data1).2 source := by
  have h6143 : board.regType ≠ .reg6143 := by
    rw [hreg]
    decide
  have h611x : board.regType ≠ .reg611x := by
    rw [hreg]
    decide
  unfold altSource
  dsimp only
  rw [if_neg h6143, if_neg h6143]
  by_cases hlt : 8 ≤ data1 &&& 0xf
  · rw [if_pos hlt, if_pos hlt]
    exact h
  · rw [if_neg hlt, if_neg hlt, if_neg h611x, if_neg h611x]
    have hlt' : (data1 &&& 0xf).toNat < 8 := Nat.not_le.mp hlt
    exact ⟨h.irq, rfl, hlt', h.source_lt, h.offset, h.select, h.channel, h.memory, h.held⟩

/-- An operation keeps the relation, and what is visible agrees after it just if it fits. -/
theorem step_called (h : Inv board c u source) (op : Op) :
    Inv board (step board true c op) (step board false u op) (nextSource board c source op) ∧
      (((op.list c.irq).isSome →
        visible (step board true c op) = visible (step board false u op)) ↔
        CallFits board c source op) := by
  have loaded : ∀ list, op.list c.irq = some list →
      (∀ cached d, d.irq = c.irq → step board cached d op =
        niLoadChannelgainList board cached d list) →
      Inv board (step board true c op) (step board false u op) (nextSource board c source op) ∧
        (((op.list c.irq).isSome →
          visible (step board true c op) = visible (step board false u op)) ↔
          CallFits board c source op) := by
    intro list hlist hstep
    have hcalled := load_called hreg h list
    rw [hstep true c rfl, hstep false u h.irq]
    unfold nextSource CallFits
    rw [hlist]
    refine ⟨hcalled.inv, ?_⟩
    constructor
    · rintro hvis _ ⟨⟩
      exact hcalled.visible.mp (hvis rfl)
    · exact fun hfit _ => hcalled.visible.mpr (hfit list rfl)
  cases op with
  | read chanspec => exact loaded [chanspec] rfl fun _ _ _ => rfl
  | cmd chanlist =>
    by_cases hirq : c.irq = 0
    · have hnone : ∀ d : Dev, d.irq = c.irq → (Op.cmd chanlist).list d.irq = none := by
        intro d hd
        exact if_pos (hd.trans hirq)
      have hstep : ∀ cached d, d.irq = c.irq → step board cached d (.cmd chanlist) = d := by
        intro cached d hd
        unfold step
        dsimp only
        rw [hnone d hd]
      unfold nextSource CallFits
      rw [hstep true c rfl, hstep false u h.irq, hnone c rfl]
      exact ⟨h, iff_of_true nofun nofun⟩
    · refine loaded chanlist (if_neg hirq) fun cached d hd => ?_
      have hlist : (Op.cmd chanlist).list d.irq = some chanlist := if_neg (hd ▸ hirq)
      unfold step
      dsimp only
      rw [hlist]
  | altSource data1 => exact ⟨altSource_inv hreg h data1, iff_of_true nofun nofun⟩

theorem agrees_iff (h : Inv board c u source) (ops : List Op) :
    Agrees board c u ops ↔ AllFit board c source ops := by
  induction ops generalizing c u source with
  | nil => exact Iff.rfl
  | cons op ops ih =>
    obtain ⟨hinv, hiff⟩ := step_called hreg h op
    exact and_congr hiff (ih hinv)

/-- From the attached device on, the early return goes unnoticed in a sequence of reads, commands
and calibration sources just if it is never taken for an entry that asks for the calibration
source after the source has changed. -/
theorem cache_agrees_iff (d : Dev) (hstate : d.changainState = 0) (hcalib : d.aiCalibSource = 0)
    (ops : List Op) : Agrees board d d ops ↔ AllFit board d 0 ops := by
  refine agrees_iff hreg ⟨rfl, rfl, ?_, by decide, rfl, rfl, rfl, fun h => absurd hstate h,
    fun h => absurd hstate h⟩ ops
  rw [hcalib]
  decide

end ESeries

def eSeries : NiBoard := ⟨.eSeries, 16, 0⟩

def attached : Dev := ⟨5, 0, 0, 0, 0, fun _ => 0, [], [], 0, 0⟩

/-- The references are read again, one after the other, with a channel in between. -/
theorem cache_agrees_references : Agrees eSeries attached attached
    [.altSource 1, .read crAltSource, .read crAltSource, .read 3, .altSource 2, .read 3,
      .cmd [crAltSource], .cmd [1, 2]] :=
  (@cache_agrees_iff eSeries rfl attached rfl rfl _).mpr
    ⟨by decide, by decide, by decide, by decide, by decide, by decide, by decide, by decide,
      trivial⟩

/-- After the other reference has been selected the memory still holds the first one. -/
theorem stale_reference : ¬ Agrees eSeries attached attached
    [.read crAltSource, .altSource 1, .read crAltSource] := by
  rintro ⟨-, -, h, -⟩
  exact absurd (congrArg (·.1) (h rfl)) (by decide)

end Comedi.NiChanGainCache
