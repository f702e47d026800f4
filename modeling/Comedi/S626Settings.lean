import Comedi.S626Counters
import Mathlib.Tactic.IntervalCases

namespace Comedi.S626Settings

open GuardedRuns S626Counters Function

inductive ClkSrc where
  | counter
  | timer
  | extender
  deriving DecidableEq

def ClkSrc.bits : ClkSrc → BitVec 2
  | .counter => 0
  | .timer => 2
  | .extender => 3

/-- What is set for one counter. `indxSrc` is true for an index by software only. -/
structure Settings where
  clkSrc : ClkSrc
  clkPol : Bool
  clkMult : BitVec 2
  clkEnab : Bool
  indxSrc : Bool
  indxPol : Bool
  loadSrc : BitVec 2
  intSrc : BitVec 2
  deriving DecidableEq

def two (lo hi : Bool) : BitVec 2 := BitVec.ofBool hi ++ BitVec.ofBool lo

variable (d d' : S626Counters.Device) (k k' : Counter) (cra crb setup : U16) (dis : Bool)

/-- The fields of a set-up word. A clock source of 1 is none of the named ones. -/
def fields : Settings where
  clkSrc := bif setup[5] then bif setup[4] then .extender else .timer else .counter
  clkPol := setup[3]
  clkMult := two setup[1] setup[2]
  clkEnab := setup[0]
  indxSrc := setup[7]
  indxPol := setup[6]
  loadSrc := two setup[9] setup[10]
  intSrc := two setup[13] setup[14]

/-- The set-up word with the fields of `s` and the latch source `latch`. -/
def Settings.word (s : Settings) (latch : BitVec 2) : U16 :=
  (s.intSrc.setWidth 16 <<< stdbitIntsrc) ||| (latch.setWidth 16 <<< stdbitLatchsrc) |||
    (s.loadSrc.setWidth 16 <<< stdbitLoadsrc) |||
    ((BitVec.ofBool s.indxSrc).setWidth 16 <<< stdbitIndxsrc) |||
    ((BitVec.ofBool s.indxPol).setWidth 16 <<< stdbitIndxpol) |||
    (s.clkSrc.bits.setWidth 16 <<< stdbitClksrc) |||
    ((BitVec.ofBool s.clkPol).setWidth 16 <<< stdbitClkpol) |||
    (s.clkMult.setWidth 16 <<< stdbitClkmult) |||
    ((BitVec.ofBool s.clkEnab).setWidth 16 <<< stdbitClkenab)

/-- What a counter of this side makes of the fields of a set-up. -/
def Settings.normal (s : Settings) (side : Side) : Settings :=
  { s with
    clkSrc := if side = .A ∧ s.clkSrc = .extender then .timer else s.clkSrc
    clkMult := if s.clkSrc = .counter ∧ s.clkMult ≠ 3 then s.clkMult else 2
    indxPol := s.indxPol && !s.indxSrc }

def settingsA : Settings where
  clkSrc := bif cra[1] then .timer else .counter
  clkPol := bif cra[1] then cra[0] else cra[4]
  clkMult := bif cra[1] || (cra[7] && cra[8]) then 2 else two cra[7] cra[8]
  clkEnab := crb[12]
  indxSrc := cra[3]
  indxPol := cra[11]
  loadSrc := two cra[9] cra[10]
  intSrc := two cra[5] cra[6]

def settingsB : Settings where
  clkSrc := bif crb[3] && crb[4] then .extender else bif cra[13] then .timer else .counter
  clkPol := bif (crb[3] && crb[4]) || cra[13] then cra[12] else crb[0]
  clkMult := bif (crb[3] && crb[4]) || cra[13] then 2 else two crb[3] crb[4]
  clkEnab := crb[2]
  indxSrc := cra[15]
  indxPol := crb[1]
  loadSrc := two crb[6] crb[7]
  intSrc := two crb[10] crb[11]

def latchOf : BitVec 2 := two crb[8] crb[9]

theorem ext_bits {x y : U16} : x = y ↔
    (x[0] = y[0] ∧ x[1] = y[1] ∧ x[2] = y[2] ∧ x[3] = y[3]) ∧
    (x[4] = y[4] ∧ x[5] = y[5] ∧ x[6] = y[6] ∧ x[7] = y[7]) ∧
    (x[8] = y[8] ∧ x[9] = y[9] ∧ x[10] = y[10] ∧ x[11] = y[11]) ∧
    x[12] = y[12] ∧ x[13] = y[13] ∧ x[14] = y[14] ∧ x[15] = y[15] := by
  constructor
  · rintro rfl
    simp only [and_self]
  · intro h
    apply BitVec.eq_of_getElem_eq
    intro i hi
    interval_cases i <;> simp only [h]

theorem getElem_ite {n : Nat} {c : Prop} [Decidable c] (x y : BitVec n) (i : Nat) (hi : i < n) :
    (if c then x else y)[i] = if c then x[i] else y[i] := by
  split
  · rfl
  · rfl

@[simp] theorem two_zero (lo hi : Bool) : (two lo hi)[0] = lo := by
  cases lo <;> cases hi <;> rfl

@[simp] theorem two_one (lo hi : Bool) : (two lo hi)[1] = hi := by
  cases lo <;> cases hi <;> rfl

theorem two_eq (e : BitVec 2) : two e[0] e[1] = e := by
  decide +revert

theorem timerA_iff : cra &&& ((2 : U16) <<< crabitClksrcA) ≠ 0 ↔ cra[1] = true := by
  simp [ext_bits]

theorem multX0A_iff :
    cra &&& cramskClkmultA = multX0 <<< crabitClkmultA ↔ cra[7] = true ∧ cra[8] = true := by
  simp [ext_bits]

theorem timerB_iff : cra &&& ((2 : U16) <<< crabitClksrcB) ≠ 0 ↔ cra[13] = true := by
  simp [ext_bits]

theorem multX0B_iff :
    crb &&& crbmskClkmultB = multX0 <<< crbbitClkmultB ↔ crb[3] = true ∧ crb[4] = true := by
  simp [ext_bits]

theorem getModeA_eq : getModeA cra crb = (settingsA cra crb).word (latchOf crb) := by
  unfold getModeA settingsA Settings.word latchOf
  rw [ext_bits]
  simp only [timerA_iff, multX0A_iff, getElem_ite, BitVec.getElem_or, Bool.cond_eq_ite,
    ClkSrc.bits]
  simp [getElem_ite]
  grind

theorem getModeB_eq : getModeB cra crb = (settingsB cra crb).word (latchOf crb) := by
  unfold getModeB settingsB Settings.word latchOf
  rw [ext_bits]
  simp only [timerB_iff, multX0B_iff, getElem_ite, BitVec.getElem_or, Bool.cond_eq_ite,
    ClkSrc.bits]
  simp [getElem_ite]
  grind

theorem extender_iff :
    (setup &&& stdmskClksrc) >>> stdbitClksrc = clksrcExtender ↔
      setup[4] = true ∧ setup[5] = true := by
  simp [ext_bits]

theorem timer_iff :
    (setup &&& stdmskClksrc) >>> stdbitClksrc = clksrcTimer ↔
      setup[4] = false ∧ setup[5] = true := by
  simp [ext_bits]

theorem multX0_iff :
    setup &&& stdmskClkmult = multX0 <<< stdbitClkmult ↔ setup[1] = true ∧ setup[2] = true := by
  simp [ext_bits]

theorem hard_iff : ~~~setup &&& stdmskIndxsrc ≠ 0 ↔ setup[7] = false := by
  simp [ext_bits]

theorem timed_iff :
    ((setup &&& stdmskClksrc) >>> stdbitClksrc = clksrcExtender ∨
      (setup &&& stdmskClksrc) >>> stdbitClksrc = clksrcTimer) ↔ setup[5] = true := by
  rw [extender_iff, timer_iff]
  cases setup[4] <;> simp

theorem timed_iff' :
    ((setup &&& stdmskClksrc) >>> stdbitClksrc = clksrcTimer ∨
      (setup &&& stdmskClksrc) >>> stdbitClksrc = clksrcExtender) ↔ setup[5] = true :=
  or_comm.trans (timed_iff setup)

theorem craOfModeA_bits :
    (craOfModeA setup dis)[0] = (setup[5] && setup[3]) ∧
    (craOfModeA setup dis)[1] = setup[5] ∧
    (craOfModeA setup dis)[3] = setup[7] ∧
    (craOfModeA setup dis)[4] = (setup[5] || setup[3]) ∧
    (craOfModeA setup dis)[5] = (!dis && setup[13]) ∧
    (craOfModeA setup dis)[6] = (!dis && setup[14]) ∧
    (craOfModeA setup dis)[7] = (!setup[5] && (setup[1] && !setup[2])) ∧
    (craOfModeA setup dis)[8] = (setup[5] || setup[2]) ∧
    (craOfModeA setup dis)[9] = setup[9] ∧
    (craOfModeA setup dis)[10] = setup[10] ∧
    (craOfModeA setup dis)[11] = (!setup[7] && setup[6]) ∧
    (craOfModeA setup dis)[12] = false ∧
    (craOfModeA setup dis)[13] = false ∧
    (craOfModeA setup dis)[15] = false := by
  simp only [craOfModeA, timed_iff, multX0_iff, hard_iff, getElem_ite, BitVec.getElem_or]
  simp
  grind

theorem crbOfModeA_bits :
    (crbOfModeA setup)[0] = false ∧ (crbOfModeA setup)[1] = false ∧
    (crbOfModeA setup)[2] = false ∧ (crbOfModeA setup)[3] = false ∧
    (crbOfModeA setup)[4] = false ∧ (crbOfModeA setup)[6] = false ∧
    (crbOfModeA setup)[7] = false ∧ (crbOfModeA setup)[8] = false ∧
    (crbOfModeA setup)[9] = false ∧ (crbOfModeA setup)[10] = false ∧
    (crbOfModeA setup)[11] = false ∧ (crbOfModeA setup)[12] = setup[0] := by
  simp only [crbOfModeA, BitVec.getElem_or, BitVec.getElem_shiftLeft, BitVec.getLsbD_and]
  simp

theorem craOfModeB_bits :
    (craOfModeB setup)[0] = false ∧ (craOfModeB setup)[1] = false ∧
    (craOfModeB setup)[3] = false ∧ (craOfModeB setup)[4] = false ∧
    (craOfModeB setup)[5] = false ∧ (craOfModeB setup)[6] = false ∧
    (craOfModeB setup)[7] = false ∧ (craOfModeB setup)[8] = false ∧
    (craOfModeB setup)[9] = false ∧ (craOfModeB setup)[10] = false ∧
    (craOfModeB setup)[11] = false ∧ (craOfModeB setup)[12] = (setup[5] && setup[3]) ∧
    (craOfModeB setup)[13] = setup[5] ∧ (craOfModeB setup)[15] = setup[7] := by
  simp only [craOfModeB, timed_iff', getElem_ite, BitVec.getElem_or]
  simp

theorem crbOfModeB_bits :
    (crbOfModeB setup dis)[0] = (setup[5] || setup[3]) ∧
    (crbOfModeB setup dis)[1] = (!setup[7] && setup[6]) ∧
    (crbOfModeB setup dis)[2] = setup[0] ∧
    (crbOfModeB setup dis)[3] = (if setup[5] then setup[4] else setup[1] && !setup[2]) ∧
    (crbOfModeB setup dis)[4] = (setup[5] || setup[2]) ∧
    (crbOfModeB setup dis)[6] = setup[9] ∧
    (crbOfModeB setup dis)[7] = setup[10] ∧
    (crbOfModeB setup dis)[8] = false ∧
    (crbOfModeB setup dis)[9] = false ∧
    (crbOfModeB setup dis)[10] = (!dis && setup[13]) ∧
    (crbOfModeB setup dis)[11] = (!dis && setup[14]) ∧
    (crbOfModeB setup dis)[12] = false := by
  simp only [crbOfModeB, extender_iff, timer_iff, multX0_iff, hard_iff, getElem_ite,
    BitVec.getElem_or]
  simp
  grind

/-- What the counter `k` is set to, read off the registers of its pair. -/
def settings : Settings :=
  match k.side with
  | .A => settingsA (readCra d k) (readCrb d k)
  | .B => settingsB (readCra d k) (readCrb d k)

/-- The latch source that the counter shares with its partner. -/
def latch : BitVec 2 := latchOf (readCrb d k)

theorem getMode_eq : getMode d k = (settings d k).word (latch d k) := by
  unfold getMode settings latch
  cases k.side with
  | A => exact getModeA_eq _ _
  | B => exact getModeB_eq _ _

theorem getEnable_eq : getEnable d k = (BitVec.ofBool (settings d k).clkEnab).setWidth 16 := by
  unfold getEnable settings
  cases k.side with
  | A => simp [ext_bits, settingsA]
  | B => simp [ext_bits, settingsB]

theorem getLoadTrig_eq : getLoadTrig d k = (settings d k).loadSrc.setWidth 16 := by
  unfold getLoadTrig settings
  cases k.side with
  | A => simp [ext_bits, settingsA]
  | B => simp [ext_bits, settingsB]

theorem getIntSrc_eq : getIntSrc d k = (settings d k).intSrc.setWidth 16 := by
  unfold getIntSrc settings
  cases k.side with
  | A => simp [ext_bits, settingsA]
  | B => simp [ext_bits, settingsB]

@[simp] theorem readCra_writeCra (w : U16) :
    readCra (writeCra d k w) k' = if k'.pair = k.pair then w else readCra d k' := by
  unfold readCra writeCra
  simp only [update_apply]

@[simp] theorem readCrb_writeCra (w : U16) : readCrb (writeCra d k w) k' = readCrb d k' := rfl

@[simp] theorem readCra_writeCrb (w : U16) : readCra (writeCrb d k w) k' = readCra d k' := rfl

@[simp] theorem readCrb_writeCrb (w : U16) :
    readCrb (writeCrb d k w) k' =
      if k'.pair = k.pair then w &&& ~~~crbmskIntctrl else readCrb d k' := by
  unfold readCrb writeCrb
  simp only [update_apply]
  split
  · rfl
  · rfl

theorem readCra_B (p : Fin 3) : readCra d ⟨p, .B⟩ = readCra d ⟨p, .A⟩ := rfl

theorem readCrb_B (p : Fin 3) : readCrb d ⟨p, .B⟩ = readCrb d ⟨p, .A⟩ := rfl

@[simp] theorem readCra_replaceCra (m w : U16) :
    readCra (replaceCra d k m w) k' =
      if k'.pair = k.pair then w ||| (readCra d k &&& m) else readCra d k' :=
  readCra_writeCra _ _ _ _

@[simp] theorem readCrb_replaceCra (m w : U16) :
    readCrb (replaceCra d k m w) k' = readCrb d k' := rfl

@[simp] theorem readCra_replaceCrb (m w : U16) :
    readCra (replaceCrb d k m w) k' = readCra d k' := rfl

@[simp] theorem readCrb_replaceCrb (m w : U16) :
    readCrb (replaceCrb d k m w) k' =
      if k'.pair = k.pair then (w ||| (readCrb d k &&& m)) &&& ~~~crbmskIntctrl
      else readCrb d k' :=
  readCrb_writeCrb _ _ _ _

/-- The fields that a set-up gives to the counter `k`. -/
def setTo : Settings :=
  { (fields setup).normal k.side with intSrc := if dis then 0 else (fields setup).intSrc }

theorem readCra_setMode :
    readCra (setMode d k setup dis) k' = if k'.pair = k.pair then
      match k.side with
      | .A => craOfModeA setup dis ||| (readCra d k &&& (cramskIndxsrcB ||| cramskClksrcB))
      | .B => craOfModeB setup ||| (readCra d k &&& ~~~(cramskIndxsrcB ||| cramskClksrcB))
      else readCra d k' := by
  unfold setMode setModeA setModeB replaceCra replaceCrb unlistEvents
  cases k.side <;> cases dis <;> simp only [readCra_writeCrb, readCra_writeCra] <;> rfl

theorem readCrb_setMode :
    readCrb (setMode d k setup dis) k' = if k'.pair = k.pair then
      (match k.side with
      | .A => crbOfModeA setup ||| (readCrb d k &&& ~~~(crbmskIntctrl ||| crbmskClkenabA))
      | .B => crbOfModeB setup dis ||| (readCrb d k &&& (crbmskClkenabA ||| crbmskLatchsrc))) &&&
        ~~~crbmskIntctrl
      else readCrb d k' := by
  unfold setMode setModeA setModeB replaceCra replaceCrb unlistEvents
  cases k.side <;> cases dis <;> simp only [readCrb_writeCrb, readCrb_writeCra] <;> rfl

theorem setMode_settings :
    settings (setMode d k setup dis) k' =
      if k' = k then setTo k setup dis else settings d k' := by
  obtain ⟨p, s⟩ := k
  obtain ⟨p', s'⟩ := k'
  unfold settings
  rw [readCra_setMode, readCrb_setMode]
  by_cases h : p' = p
  · subst h
    cases s <;> cases s'
    · simp [settingsA, setTo, Settings.normal, fields, craOfModeA_bits, crbOfModeA_bits]
      grind [two]
    · simp [settingsB, craOfModeA_bits, crbOfModeA_bits, readCra, readCrb]
    · simp [settingsA, craOfModeB_bits, crbOfModeB_bits, readCra, readCrb]
    · simp [settingsB, setTo, Settings.normal, fields, craOfModeB_bits, crbOfModeB_bits]
      grind [two]
  · simp only [Counter.mk.injEq, h, if_false, false_and]

theorem setMode_latch : latch (setMode d k setup dis) k' = latch d k' := by
  obtain ⟨p, s⟩ := k
  obtain ⟨p', s'⟩ := k'
  unfold latch
  rw [readCrb_setMode]
  by_cases h : p' = p
  · subst h
    cases s
    · simp [latchOf, crbOfModeA_bits, readCrb]
    · simp [latchOf, crbOfModeB_bits, readCrb]
  · simp only [h, if_false]

theorem exists_bool_of_lt {v : U16} (h : v < 2) : ∃ b : Bool, v = (BitVec.ofBool b).setWidth 16 := by
  have hlt : v.toNat < 2 := BitVec.lt_def.mp h
  refine ⟨v.toNat = 1, BitVec.eq_of_toNat_eq ?_⟩
  rw [BitVec.toNat_setWidth, BitVec.toNat_ofBool]
  obtain h0 | h1 : v.toNat = 0 ∨ v.toNat = 1 := by omega
  · simp [h0]
  · simp [h1]

theorem exists_two_of_lt {v : U16} (h : v < 4) : ∃ e : BitVec 2, v = e.setWidth 16 := by
  have hlt : v.toNat < 4 := BitVec.lt_def.mp h
  refine ⟨v.setWidth 2, BitVec.eq_of_toNat_eq ?_⟩
  rw [BitVec.toNat_setWidth, BitVec.toNat_setWidth]
  omega

theorem setEnable_settings (b : Bool) :
    settings (setEnable d k ((BitVec.ofBool b).setWidth 16)) k' =
      if k' = k then { settings d k with clkEnab := b } else settings d k' := by
  obtain ⟨p, s⟩ := k
  obtain ⟨p', s'⟩ := k'
  unfold settings setEnable
  by_cases h : p' = p
  · subst h
    cases s <;> cases s' <;> simp [settingsA, settingsB, readCra_B, readCrb_B, two_eq]
  · cases s <;> simp [h]

theorem setEnable_latch (b : Bool) :
    latch (setEnable d k ((BitVec.ofBool b).setWidth 16)) k' = latch d k' := by
  obtain ⟨p, s⟩ := k
  obtain ⟨p', s'⟩ := k'
  unfold latch setEnable
  by_cases h : p' = p
  · subst h
    cases s <;> cases s' <;> simp [latchOf, readCrb_B]
  · cases s <;> simp [h]

theorem setLatchSource_settings (e : BitVec 2) :
    settings (setLatchSource d k (e.setWidth 16)) k' = settings d k' := by
  obtain ⟨p, s⟩ := k
  obtain ⟨p', s'⟩ := k'
  unfold settings setLatchSource
  by_cases h : p' = p
  · subst h
    cases s <;> cases s' <;> simp [settingsA, settingsB, readCra_B, readCrb_B, two_eq]
  · simp [h]

theorem setLatchSource_latch (e : BitVec 2) :
    latch (setLatchSource d k (e.setWidth 16)) k' = if k'.pair = k.pair then e else latch d k' := by
  obtain ⟨p, s⟩ := k
  obtain ⟨p', s'⟩ := k'
  unfold latch setLatchSource
  by_cases h : p' = p
  · subst h
    cases s <;> cases s' <;> simp [latchOf, readCrb_B, two_eq]
  · simp [h]

theorem setLoadTrig_settings (e : BitVec 2) :
    settings (setLoadTrig d k (e.setWidth 16)) k' =
      if k' = k then { settings d k with loadSrc := e } else settings d k' := by
  obtain ⟨p, s⟩ := k
  obtain ⟨p', s'⟩ := k'
  unfold settings setLoadTrig
  by_cases h : p' = p
  · subst h
    cases s <;> cases s' <;> simp [settingsA, settingsB, readCra_B, readCrb_B, two_eq]
  · cases s <;> simp [h]

theorem setLoadTrig_latch (e : BitVec 2) :
    latch (setLoadTrig d k (e.setWidth 16)) k' = latch d k' := by
  obtain ⟨p, s⟩ := k
  obtain ⟨p', s'⟩ := k'
  unfold latch setLoadTrig
  by_cases h : p' = p
  · subst h
    cases s <;> cases s' <;> simp [latchOf, readCrb_B]
  · cases s <;> simp [h]

theorem pulseIndex_settings : settings (pulseIndex d k) k' = settings d k' := by
  obtain ⟨p, s⟩ := k
  obtain ⟨p', s'⟩ := k'
  unfold settings pulseIndex pulseIndexA pulseIndexB
  by_cases h : p' = p
  · subst h
    cases s <;> cases s' <;> simp [settingsA, settingsB, readCra_B, readCrb_B, two_eq]
  · cases s <;> simp [h]

theorem pulseIndex_latch : latch (pulseIndex d k) k' = latch d k' := by
  obtain ⟨p, s⟩ := k
  obtain ⟨p', s'⟩ := k'
  unfold latch pulseIndex pulseIndexA pulseIndexB
  by_cases h : p' = p
  · subst h
    cases s <;> cases s' <;> simp [latchOf, readCrb_B]
  · cases s <;> simp [h]

theorem resetCapFlags_settings : settings (resetCapFlags d k) k' = settings d k' := by
  obtain ⟨p, s⟩ := k
  obtain ⟨p', s'⟩ := k'
  unfold settings resetCapFlags
  by_cases h : p' = p
  · subst h
    cases s <;> cases s' <;> simp [settingsA, settingsB, readCra_B, readCrb_B]
  · cases s <;> simp [h]

theorem resetCapFlags_latch : latch (resetCapFlags d k) k' = latch d k' := by
  obtain ⟨p, s⟩ := k
  obtain ⟨p', s'⟩ := k'
  unfold latch resetCapFlags
  by_cases h : p' = p
  · subst h
    cases s <;> cases s' <;> simp [latchOf, readCrb_B]
  · cases s <;> simp [h]

def eventBits (intSource : U16) : U16 := (evbits k.number).getD intSource.toNat 0

theorem myEventBits_of_lt {intSource : U16} (h : intSource < 4) :
    myEventBits k intSource = .ok (eventBits k intSource) := by
  have hlt : intSource.toNat < (evbits k.number).length := BitVec.lt_def.mp h
  unfold myEventBits eventBits
  rw [List.getD, List.getElem?_eq_getElem hlt]
  rfl

theorem eventBits_and (e : BitVec 2) :
    eventBits k (e.setWidth 16) &&& eventMask k = eventBits k (e.setWidth 16) := by
  obtain ⟨p, s⟩ := k
  cases s <;> decide +revert

theorem eventMask_and_of_ne (h : k' ≠ k) : eventMask k &&& eventMask k' = 0 := by
  obtain ⟨p, s⟩ := k
  obtain ⟨p', s'⟩ := k'
  cases s <;> cases s' <;> decide +revert

/-- The registers after `SetIntSrc`. -/
def withIntSrc (intSource : U16) : S626Counters.Device :=
  match k.side with
  | .A => replaceCra (replaceCrb d k (~~~crbmskIntctrl) (crbmskIntresetcmd ||| crbmskIntresetA)) k
      (~~~cramskIntsrcA) (intSource <<< crabitIntsrcA)
  | .B =>
    let crb := readCrb d k &&& ~~~crbmskIntctrl
    writeCrb (writeCrb d k (crb ||| crbmskIntresetcmd ||| crbmskIntresetB)) k
      ((crb &&& ~~~crbmskIntsrcB) ||| (intSource <<< crbbitIntsrcB))

theorem setIntSrc_eq {intSource : U16} (h : intSource < 4) :
    setIntSrc d k intSource = .ok { withIntSrc d k intSource with
      counterIntEnabs := (d.counterIntEnabs &&& ~~~eventMask k) ||| eventBits k intSource } := by
  unfold setIntSrc setIntSrcA setIntSrcB listEvents withIntSrc
  rw [myEventBits_of_lt k h]
  cases k.side with
  | A => rfl
  | B => rfl

theorem withIntSrc_settings (e : BitVec 2) :
    settings (withIntSrc d k (e.setWidth 16)) k' =
      if k' = k then { settings d k with intSrc := e } else settings d k' := by
  obtain ⟨p, s⟩ := k
  obtain ⟨p', s'⟩ := k'
  unfold settings withIntSrc
  by_cases h : p' = p
  · subst h
    cases s <;> cases s' <;> simp [settingsA, settingsB, readCra_B, readCrb_B, two_eq]
  · cases s <;> simp [h]

theorem withIntSrc_latch (e : BitVec 2) :
    latch (withIntSrc d k (e.setWidth 16)) k' = latch d k' := by
  obtain ⟨p, s⟩ := k
  obtain ⟨p', s'⟩ := k'
  unfold latch withIntSrc
  by_cases h : p' = p
  · subst h
    cases s <;> cases s' <;> simp [latchOf, readCrb_B]
  · cases s <;> simp [h]

/-- What was last set for the counters of the board. `listed` says that the interrupt mask
was last told of the source that the counter has. -/
structure Panel where
  set : Counter → Settings
  latch : Fin 3 → BitVec 2
  listed : Counter → Bool

def apply (p : Panel) : Op → Panel
  | .setMode k setup dis =>
    { p with set := update p.set k (setTo k setup dis), listed := update p.listed k dis }
  | .setEnable k enab => { p with set := update p.set k { p.set k with clkEnab := enab = 1 } }
  | .setLatchSource k value => { p with latch := update p.latch k.pair (value.setWidth 2) }
  | .setLoadTrig k trig =>
    { p with set := update p.set k { p.set k with loadSrc := trig.setWidth 2 } }
  | .setIntSrc k intSource =>
    { p with
      set := update p.set k { p.set k with intSrc := intSource.setWidth 2 }
      listed := update p.listed k true }
  | .pulseIndex _ => p
  | .resetCapFlags _ => p

/-- The arguments are in the ranges that the comments give for them. -/
def InRange : Op → Prop
  | .setMode .. => True
  | .setEnable _ enab => enab < 2
  | .setLatchSource _ value => value < 4
  | .setLoadTrig _ trig => trig < 4
  | .setIntSrc _ intSource => intSource < 4
  | .pulseIndex _ => True
  | .resetCapFlags _ => True

instance (op : Op) : Decidable (InRange op) := by
  cases op <;> unfold InRange <;> infer_instance

def counterOf : Op → Counter
  | .setMode k _ _ => k
  | .setEnable k _ => k
  | .setLatchSource k _ => k
  | .setLoadTrig k _ => k
  | .setIntSrc k _ => k
  | .pulseIndex k => k
  | .resetCapFlags k => k

/-- The events of the interrupt source that the registers have for `k` are those in the mask. -/
def Listed : Prop := d.counterIntEnabs &&& eventMask k = eventBits k (getIntSrc d k)

instance : Decidable (Listed d k) := by unfold Listed; infer_instance

/-- The registers and the mask are as the panel says. -/
structure Shows (d : S626Counters.Device) (p : Panel) : Prop where
  settings_eq : ∀ k, settings d k = p.set k
  latch_eq : ∀ k, latch d k = p.latch k.pair
  mask_listed : ∀ k, p.listed k = true → Listed d k
  mask_rest : d.counterIntEnabs &&& 15 = 0

theorem setMode_mask : (setMode d k setup dis).counterIntEnabs =
    if dis then d.counterIntEnabs &&& ~~~eventMask k else d.counterIntEnabs := by
  unfold setMode setModeA setModeB unlistEvents
  cases k.side <;> cases dis <;> rfl

theorem setEnable_mask (v : U16) : (setEnable d k v).counterIntEnabs = d.counterIntEnabs := by
  unfold setEnable
  cases k.side <;> rfl

theorem setLoadTrig_mask (v : U16) : (setLoadTrig d k v).counterIntEnabs = d.counterIntEnabs := by
  unfold setLoadTrig
  cases k.side <;> rfl

theorem pulseIndex_mask : (pulseIndex d k).counterIntEnabs = d.counterIntEnabs := by
  unfold pulseIndex
  cases k.side <;> rfl

theorem resetCapFlags_mask : (resetCapFlags d k).counterIntEnabs = d.counterIntEnabs := by
  unfold resetCapFlags
  cases k.side <;> rfl

theorem and_not_and_of_ne (m : U16) (h : k' ≠ k) :
    m &&& ~~~eventMask k &&& eventMask k' = m &&& eventMask k' := by
  have hsub : ~~~eventMask k &&& eventMask k' = eventMask k' := by
    obtain ⟨p, s⟩ := k
    obtain ⟨p', s'⟩ := k'
    cases s <;> cases s' <;> decide +revert
  rw [BitVec.and_assoc, hsub]

theorem eventBits_and_of_ne (e : BitVec 2) (h : k' ≠ k) :
    eventBits k (e.setWidth 16) &&& eventMask k' = 0 := by
  rw [← eventBits_and, BitVec.and_assoc, eventMask_and_of_ne k k' h]
  exact BitVec.and_zero

/-- What `SetIntSrc` makes of the bits of another counter, and of its own. -/
theorem listed_and (m : U16) (e : BitVec 2) :
    ((m &&& ~~~eventMask k) ||| eventBits k (e.setWidth 16)) &&& eventMask k' =
      if k' = k then eventBits k (e.setWidth 16) else m &&& eventMask k' := by
  rw [BitVec.and_or_distrib_right]
  split
  · next h =>
    rw [h, BitVec.and_assoc, BitVec.not_and_self, eventBits_and]
    exact (congrArg (· ||| _) BitVec.and_zero).trans BitVec.zero_or
  · next h =>
    rw [and_not_and_of_ne k k' m h, eventBits_and_of_ne k k' e h]
    exact BitVec.or_zero

theorem eventBits_rest (e : BitVec 2) : eventBits k (e.setWidth 16) &&& 15 = 0 := by
  obtain ⟨p, s⟩ := k
  cases s <;> decide +revert

variable {d d' k k'} {p : Panel} {op : Op}

theorem Listed.congr (h : Listed d k) (hset : settings d' k = settings d k)
    (hmask : d'.counterIntEnabs &&& eventMask k = d.counterIntEnabs &&& eventMask k) :
    Listed d' k := by
  unfold Listed at h ⊢
  rw [hmask, h, getIntSrc_eq, getIntSrc_eq, hset]

/-- An operation that leaves the interrupt sources and the mask. -/
theorem Shows.of_mask (hs : Shows d p) {q : Panel} (hset : ∀ k, settings d' k = q.set k)
    (hlatch : ∀ k, latch d' k = q.latch k.pair) (hlisted : q.listed = p.listed)
    (hsrc : ∀ k, (q.set k).intSrc = (p.set k).intSrc)
    (hmask : d'.counterIntEnabs = d.counterIntEnabs) : Shows d' q := by
  refine ⟨hset, hlatch, fun k hk => ?_, by rw [hmask, hs.mask_rest]⟩
  rw [hlisted] at hk
  have h := hs.mask_listed k hk
  unfold Listed at h ⊢
  rw [hmask, h, getIntSrc_eq, getIntSrc_eq, hset, hs.settings_eq, hsrc]

theorem rest_and_not (hs : Shows d p) :
    d.counterIntEnabs &&& ~~~eventMask k &&& 15 = 0 := by
  rw [BitVec.and_assoc, BitVec.and_comm _ 15, ← BitVec.and_assoc, hs.mask_rest]
  exact BitVec.zero_and

theorem Shows.setMode (hs : Shows d p) (k : Counter) (setup : U16) (dis : Bool) :
    Shows (setMode d k setup dis) (apply p (.setMode k setup dis)) := by
  refine ⟨fun k' => ?_, fun k' => ?_, fun k' hk' => ?_, ?_⟩
  · dsimp only [apply]
    rw [setMode_settings, hs.settings_eq, update_apply]
  · rw [setMode_latch, hs.latch_eq, apply]
  · dsimp only [apply] at hk'
    rw [update_apply] at hk'
    by_cases hk : k' = k
    · subst hk
      rw [if_pos rfl] at hk'
      subst hk'
      unfold Listed
      rw [setMode_mask, if_pos rfl, getIntSrc_eq, setMode_settings, if_pos rfl, BitVec.and_assoc,
        BitVec.not_and_self]
      exact BitVec.and_zero
    · rw [if_neg hk] at hk'
      refine (hs.mask_listed k' hk').congr (by rw [setMode_settings, if_neg hk]) ?_
      rw [setMode_mask]
      split
      · exact and_not_and_of_ne k k' _ hk
      · rfl
  · rw [setMode_mask]
    split
    · exact rest_and_not hs
    · exact hs.mask_rest

theorem Shows.setIntSrc (hs : Shows d p) (k : Counter) (e : BitVec 2) :
    ∃ d', setIntSrc d k (e.setWidth 16) = .ok d' ∧
      Shows d' (apply p (.setIntSrc k (e.setWidth 16))) := by
  have hlt : (e.setWidth 16 : U16) < 4 := by
    decide +revert
  have hset := withIntSrc_settings d k
  refine ⟨_, setIntSrc_eq d k hlt, fun k' => ?_, fun k' => ?_, fun k' hk' => ?_, ?_⟩
  · dsimp only [apply]
    refine (hset k' e).trans ?_
    rw [hs.settings_eq, hs.settings_eq, update_apply, BitVec.setWidth_setWidth_of_le _ (by decide),
      BitVec.setWidth_eq]
  · exact (withIntSrc_latch d k k' e).trans (hs.latch_eq k')
  · dsimp only [apply] at hk'
    rw [update_apply] at hk'
    by_cases hk : k' = k
    · subst hk
      unfold Listed
      rw [getIntSrc_eq]
      refine Eq.trans ?_ (congrArg (fun s => eventBits k' (s.intSrc.setWidth 16)) (hset k' e)).symm
      rw [listed_and, if_pos rfl, if_pos rfl]
    · rw [if_neg hk] at hk'
      refine (hs.mask_listed k' hk').congr ((hset k' e).trans (if_neg hk)) ?_
      rw [listed_and, if_neg hk]
  · rw [BitVec.and_or_distrib_right, rest_and_not hs, eventBits_rest]
    rfl

/-- Every operation is carried out, and leaves the board as the panel says. -/
theorem Shows.step (hs : Shows d p) (hop : InRange op) :
    ∃ d', perform d op = .ok d' ∧ Shows d' (apply p op) := by
  cases op with
  | setMode k setup dis => exact ⟨_, rfl, hs.setMode k setup dis⟩
  | setEnable k enab =>
    obtain ⟨b, rfl⟩ := exists_bool_of_lt hop
    refine ⟨_, rfl, hs.of_mask (fun k' => ?_) (fun k' => ?_) rfl (fun k' => ?_)
      (setEnable_mask _ _ _)⟩
    · rw [setEnable_settings, hs.settings_eq, hs.settings_eq]
      dsimp only [apply]
      rw [update_apply]
      cases b <;> rfl
    · exact (setEnable_latch _ _ _ _).trans (hs.latch_eq k')
    · dsimp only [apply]
      rw [update_apply]
      split
      · next h => rw [h]
      · rfl
  | setLatchSource k value =>
    obtain ⟨e, rfl⟩ := exists_two_of_lt hop
    refine ⟨_, rfl, hs.of_mask (fun k' => ?_) (fun k' => ?_) rfl (fun k' => rfl) rfl⟩
    · exact (setLatchSource_settings _ _ _ _).trans (hs.settings_eq k')
    · dsimp only [apply]
      rw [setLatchSource_latch, hs.latch_eq, update_apply,
        BitVec.setWidth_setWidth_of_le _ (by decide), BitVec.setWidth_eq]
  | setLoadTrig k trig =>
    obtain ⟨e, rfl⟩ := exists_two_of_lt hop
    refine ⟨_, rfl, hs.of_mask (fun k' => ?_) (fun k' => ?_) rfl (fun k' => ?_)
      (setLoadTrig_mask _ _ _)⟩
    · rw [setLoadTrig_settings, hs.settings_eq, hs.settings_eq]
      dsimp only [apply]
      rw [update_apply, BitVec.setWidth_setWidth_of_le _ (by decide), BitVec.setWidth_eq]
    · exact (setLoadTrig_latch _ _ _ _).trans (hs.latch_eq k')
    · dsimp only [apply]
      rw [update_apply]
      split
      · next h => rw [h]
      · rfl
  | setIntSrc k intSource =>
    obtain ⟨e, rfl⟩ := exists_two_of_lt hop
    exact hs.setIntSrc k e
  | pulseIndex k =>
    refine ⟨_, rfl, hs.of_mask (fun k' => ?_) (fun k' => ?_) rfl (fun k' => rfl)
      (pulseIndex_mask _ _)⟩
    · exact (pulseIndex_settings _ _ _).trans (hs.settings_eq k')
    · exact (pulseIndex_latch _ _ _).trans (hs.latch_eq k')
  | resetCapFlags k =>
    refine ⟨_, rfl, hs.of_mask (fun k' => ?_) (fun k' => ?_) rfl (fun k' => rfl)
      (resetCapFlags_mask _ _)⟩
    · exact (resetCapFlags_settings _ _ _).trans (hs.settings_eq k')
    · exact (resetCapFlags_latch _ _ _).trans (hs.latch_eq k')

/-- The panel that the registers show. -/
def panelOf (d : S626Counters.Device) : Panel where
  set := settings d
  latch pair := latch d ⟨pair, .A⟩
  listed k := decide (Listed d k)

theorem shows_panelOf (h : d.counterIntEnabs &&& 15 = 0) : Shows d (panelOf d) :=
  ⟨fun _ => rfl, fun _ => rfl, fun _ hk => of_decide_eq_true hk, h⟩

theorem Shows.keeps {ops : List Op} (hs : Shows d p) (h : ∀ op ∈ ops, InRange op) :
    ∃ d', run perform d ops = .ok d' ∧ Shows d' (ops.foldl apply p) := by
  induction ops generalizing d p with
  | nil => exact ⟨d, rfl, hs⟩
  | cons op ops ih =>
    rw [List.forall_mem_cons] at h
    obtain ⟨d₁, hd₁, hs₁⟩ := hs.step h.1
    obtain ⟨d', hd', hs'⟩ := ih hs₁ h.2
    exact ⟨d', (run_cons_ok hd₁).trans hd', hs'⟩

/-- The events of all the interrupt sources in the registers. -/
def sourceEvents (d : S626Counters.Device) : U16 :=
  encpriv.foldr (fun k events => eventBits k (getIntSrc d k) ||| events) 0

theorem mask_eq_sourceEvents (hs : Shows d p) (h : ∀ k, p.listed k = true) :
    d.counterIntEnabs = sourceEvents d := by
  have hmask : (15 : U16) ||| encpriv.foldr (fun k events => eventMask k ||| events) 0 =
      BitVec.allOnes 16 := by decide
  have hk : ∀ k, d.counterIntEnabs &&& eventMask k = eventBits k (getIntSrc d k) :=
    fun k => hs.mask_listed k (h k)
  rw [← BitVec.and_allOnes (x := d.counterIntEnabs), ← hmask]
  unfold sourceEvents encpriv
  simp only [List.foldr_cons, List.foldr_nil, BitVec.and_or_distrib_left, hs.mask_rest, hk]
  simp

theorem settings_of_ne (h : k ≠ counterOf op) : (apply p op).set k = p.set k := by
  cases op with
  | setLatchSource | pulseIndex | resetCapFlags => rfl
  | setMode | setEnable | setLoadTrig | setIntSrc => exact update_of_ne h _ _

theorem word_latch (s : Settings) (e e' : BitVec 2) :
    s.word e &&& ~~~stdmskLatchsrc = s.word e' &&& ~~~stdmskLatchsrc := by
  unfold Settings.word
  rw [ext_bits]
  simp

/-- `d'` reads like `d` at the counter `k`, but perhaps for the latch source. -/
def SameFields (d d' : S626Counters.Device) (k : Counter) : Prop :=
  getMode d' k &&& ~~~stdmskLatchsrc = getMode d k &&& ~~~stdmskLatchsrc ∧
    getEnable d' k = getEnable d k ∧ getLoadTrig d' k = getLoadTrig d k ∧
    getIntSrc d' k = getIntSrc d k

theorem sameFields_of_settings (h : settings d' k = settings d k) : SameFields d d' k := by
  refine ⟨?_, ?_, ?_, ?_⟩
  · rw [getMode_eq, getMode_eq, h, word_latch]
  · rw [getEnable_eq, getEnable_eq, h]
  · rw [getLoadTrig_eq, getLoadTrig_eq, h]
  · rw [getIntSrc_eq, getIntSrc_eq, h]

/-- After any operations with arguments in their ranges, from any contents of the registers,
the counters read as they were last set; another operation changes no field of a counter that
it is not for; and the mask lists the events of the sources that it was told of. -/
theorem settings_kept (cra crb : Fin 3 → U16) {ops : List Op} (h : ∀ op ∈ ops, InRange op) :
    ∃ d, run perform ⟨cra, crb, 0⟩ ops = .ok d ∧
      let p := ops.foldl apply (panelOf ⟨cra, crb, 0⟩)
      (∀ k, getMode d k = (p.set k).word (p.latch k.pair) ∧
        getEnable d k = (BitVec.ofBool (p.set k).clkEnab).setWidth 16 ∧
        getLoadTrig d k = (p.set k).loadSrc.setWidth 16 ∧
        getIntSrc d k = (p.set k).intSrc.setWidth 16) ∧
      (∀ op, InRange op → ∃ d', perform d op = .ok d' ∧ ∀ k, k ≠ counterOf op →
        SameFields d d' k) ∧
      (∀ k, p.listed k = true →
        d.counterIntEnabs &&& eventMask k = eventBits k (getIntSrc d k)) ∧
      ((∀ k, p.listed k = true) → d.counterIntEnabs = sourceEvents d) := by
  have hstart : Shows ⟨cra, crb, 0⟩ (panelOf ⟨cra, crb, 0⟩) := shows_panelOf BitVec.zero_and
  obtain ⟨d, hrun, hs⟩ := hstart.keeps h
  refine ⟨d, hrun, fun k => ⟨?_, ?_, ?_, ?_⟩, fun op hop => ?_, hs.mask_listed,
    mask_eq_sourceEvents hs⟩
  · rw [getMode_eq, hs.settings_eq, hs.latch_eq]
  · rw [getEnable_eq, hs.settings_eq]
  · rw [getLoadTrig_eq, hs.settings_eq]
  · rw [getIntSrc_eq, hs.settings_eq]
  · obtain ⟨d', hd', hs'⟩ := hs.step hop
    refine ⟨d', hd', fun k hk => sameFields_of_settings ?_⟩
    rw [hs'.settings_eq, settings_of_ne hk, hs.settings_eq]

/-- After `CountersInit` the mask is empty. -/
theorem settings_kept_countersInit :
    (∀ op ∈ countersInit, InRange op) ∧
    ∃ d, run perform ⟨fun _ => 0xffff, fun _ => 0xffff, 0⟩ countersInit = .ok d ∧
      d.counterIntEnabs = sourceEvents d := by
  have hin : ∀ op ∈ countersInit, InRange op := by decide
  obtain ⟨d, hrun, -, -, -, h⟩ :=
    settings_kept (fun _ => 0xffff) (fun _ => 0xffff) hin
  refine ⟨hin, d, hrun, h fun k => ?_⟩
  obtain ⟨p, s⟩ := k
  cases s <;> decide +revert

/-- An enable of 2 is taken for a bit of the multiplier, and a clock source of 1 for counter
mode. -/
theorem range_matters :
    let d : S626Counters.Device := ⟨fun _ => 0, fun _ => 0, 0⟩
    let k : Counter := ⟨0, .B⟩
    (∃ d', perform d (.setEnable k 2) = .ok d' ∧ getEnable d' k ≠ 2 ∧
      getMode d k &&& stdmskClkmult = 0 ∧ getMode d' k &&& stdmskClkmult = 1 <<< stdbitClkmult) ∧
    ∃ d', perform d (.setMode k (1 <<< stdbitClksrc) true) = .ok d' ∧
      getMode d' k &&& stdmskClksrc = 0 := by
  refine ⟨⟨_, rfl, ?_⟩, ⟨_, rfl, ?_⟩⟩
  · decide
  · decide

end Comedi.S626Settings
