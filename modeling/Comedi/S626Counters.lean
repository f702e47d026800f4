import Comedi.DataModel
import Comedi.GuardedRuns

namespace Comedi.S626Counters

open GuardedRuns Function

abbrev U16 := BitVec 16

inductive Side where
  | A
  | B
  deriving DecidableEq

/-- A counter of `encpriv`: the pair whose registers it uses, and its side. -/
structure Counter where
  pair : Fin 3
  side : Side
  deriving DecidableEq

def Counter.number (k : Counter) : Nat :=
  match k.side with
  | .A => k.pair
  | .B => k.pair + 3

inductive Fault where
  | outOfBounds
  deriving DecidableEq

abbrev Result := Except Fault

/-- The control registers of the pairs, and `devpriv->CounterIntEnabs`. -/
structure Device where
  cra : Fin 3 → U16
  crb : Fin 3 → U16
  counterIntEnabs : U16

@[simp] abbrev multX0 : U16 := 3
@[simp] abbrev multX1 : U16 := 2
@[simp] abbrev clksrcCounter : U16 := 0
@[simp] abbrev clksrcTimer : U16 := 2
@[simp] abbrev clksrcExtender : U16 := 3

@[simp] abbrev crabitIndxsrcB : Nat := 14
@[simp] abbrev crabitClksrcB : Nat := 12
@[simp] abbrev crabitIndxpolA : Nat := 11
@[simp] abbrev crabitLoadsrcA : Nat := 9
@[simp] abbrev crabitClkmultA : Nat := 7
@[simp] abbrev crabitIntsrcA : Nat := 5
@[simp] abbrev crabitClkpolA : Nat := 4
@[simp] abbrev crabitIndxsrcA : Nat := 2
@[simp] abbrev crabitClksrcA : Nat := 0

@[simp] abbrev crbbitIntresetcmd : Nat := 15
@[simp] abbrev crbbitIntresetB : Nat := 14
@[simp] abbrev crbbitIntresetA : Nat := 13
@[simp] abbrev crbbitClkenabA : Nat := 12
@[simp] abbrev crbbitIntsrcB : Nat := 10
@[simp] abbrev crbbitLatchsrc : Nat := 8
@[simp] abbrev crbbitLoadsrcB : Nat := 6
@[simp] abbrev crbbitClkmultB : Nat := 3
@[simp] abbrev crbbitClkenabB : Nat := 2
@[simp] abbrev crbbitIndxpolB : Nat := 1
@[simp] abbrev crbbitClkpolB : Nat := 0

@[simp] abbrev cramskIndxsrcB : U16 := (3 : U16) <<< crabitIndxsrcB
@[simp] abbrev cramskClksrcB : U16 := (3 : U16) <<< crabitClksrcB
@[simp] abbrev cramskIndxpolA : U16 := (1 : U16) <<< crabitIndxpolA
@[simp] abbrev cramskLoadsrcA : U16 := (3 : U16) <<< crabitLoadsrcA
@[simp] abbrev cramskClkmultA : U16 := (3 : U16) <<< crabitClkmultA
@[simp] abbrev cramskIntsrcA : U16 := (3 : U16) <<< crabitIntsrcA

@[simp] abbrev crbmskIntresetcmd : U16 := (1 : U16) <<< crbbitIntresetcmd
@[simp] abbrev crbmskIntresetB : U16 := (1 : U16) <<< crbbitIntresetB
@[simp] abbrev crbmskIntresetA : U16 := (1 : U16) <<< crbbitIntresetA
@[simp] abbrev crbmskClkenabA : U16 := (1 : U16) <<< crbbitClkenabA
@[simp] abbrev crbmskIntsrcB : U16 := (3 : U16) <<< crbbitIntsrcB
@[simp] abbrev crbmskLatchsrc : U16 := (3 : U16) <<< crbbitLatchsrc
@[simp] abbrev crbmskLoadsrcB : U16 := (3 : U16) <<< crbbitLoadsrcB
@[simp] abbrev crbmskClkmultB : U16 := (3 : U16) <<< crbbitClkmultB
@[simp] abbrev crbmskClkenabB : U16 := (1 : U16) <<< crbbitClkenabB
@[simp] abbrev crbmskIndxpolB : U16 := (1 : U16) <<< crbbitIndxpolB
@[simp] abbrev crbmskIntctrl : U16 := crbmskIntresetcmd ||| crbmskIntresetA ||| crbmskIntresetB

@[simp] abbrev stdbitIntsrc : Nat := 13
@[simp] abbrev stdbitLatchsrc : Nat := 11
@[simp] abbrev stdbitLoadsrc : Nat := 9
@[simp] abbrev stdbitIndxsrc : Nat := 7
@[simp] abbrev stdbitIndxpol : Nat := 6
@[simp] abbrev stdbitClksrc : Nat := 4
@[simp] abbrev stdbitClkpol : Nat := 3
@[simp] abbrev stdbitClkmult : Nat := 1
@[simp] abbrev stdbitClkenab : Nat := 0

@[simp] abbrev stdmskIntsrc : U16 := (3 : U16) <<< stdbitIntsrc
@[simp] abbrev stdmskLatchsrc : U16 := (3 : U16) <<< stdbitLatchsrc
@[simp] abbrev stdmskLoadsrc : U16 := (3 : U16) <<< stdbitLoadsrc
@[simp] abbrev stdmskIndxsrc : U16 := (1 : U16) <<< stdbitIndxsrc
@[simp] abbrev stdmskIndxpol : U16 := (1 : U16) <<< stdbitIndxpol
@[simp] abbrev stdmskClksrc : U16 := (3 : U16) <<< stdbitClksrc
@[simp] abbrev stdmskClkpol : U16 := (1 : U16) <<< stdbitClkpol
@[simp] abbrev stdmskClkmult : U16 := (3 : U16) <<< stdbitClkmult
@[simp] abbrev stdmskClkenab : U16 := (1 : U16) <<< stdbitClkenab

def indxmask (c : Nat) : U16 := (1 : U16) <<< (if c > 2 then c * 2 - 1 else c * 2 + 4)
def overmask (c : Nat) : U16 := (1 : U16) <<< (if c > 2 then c * 2 + 5 else c * 2 + 10)

/-- `EVBITS`, of the counter's number. -/
def evbits (c : Nat) : List U16 := [0, overmask c, indxmask c, overmask c ||| indxmask c]

def myEventBits (k : Counter) (intSource : U16) : Result U16 :=
  match (evbits k.number)[intSource.toNat]? with
  | some bits => .ok bits
  | none => .error .outOfBounds

def eventMask (k : Counter) : U16 := overmask k.number ||| indxmask k.number

variable (d : Device) (k : Counter)

def readCra : U16 := d.cra k.pair

/-- The interrupt reset bits are commands: they read back as 0. -/
def readCrb : U16 := d.crb k.pair &&& ~~~crbmskIntctrl

def writeCra (wdata : U16) : Device := { d with cra := update d.cra k.pair wdata }
def writeCrb (wdata : U16) : Device := { d with crb := update d.crb k.pair wdata }

/-- `DEBIreplace` at `k->MyCRA`. -/
def replaceCra (mask wdata : U16) : Device := writeCra d k (wdata ||| (readCra d k &&& mask))

/-- `DEBIreplace` at `k->MyCRB`. -/
def replaceCrb (mask wdata : U16) : Device := writeCrb d k (wdata ||| (readCrb d k &&& mask))

def resetCapFlags : Device :=
  match k.side with
  | .A => replaceCrb d k (~~~crbmskIntctrl) (crbmskIntresetcmd ||| crbmskIntresetA)
  | .B => replaceCrb d k (~~~crbmskIntctrl) (crbmskIntresetcmd ||| crbmskIntresetB)

def getModeA (cra crb : U16) : U16 :=
  let setup := (cra &&& stdmskLoadsrc) |||
    ((crb <<< (stdbitLatchsrc - crbbitLatchsrc)) &&& stdmskLatchsrc) |||
    ((cra <<< (stdbitIntsrc - crabitIntsrcA)) &&& stdmskIntsrc) |||
    ((cra <<< (stdbitIndxsrc - (crabitIndxsrcA + 1))) &&& stdmskIndxsrc) |||
    ((cra >>> (crabitIndxpolA - stdbitIndxpol)) &&& stdmskIndxpol) |||
    ((crb >>> (crbbitClkenabA - stdbitClkenab)) &&& stdmskClkenab)
  if cra &&& ((2 : U16) <<< crabitClksrcA) ≠ 0 then
    setup ||| ((clksrcTimer <<< stdbitClksrc) |||
      ((cra <<< (stdbitClkpol - crabitClksrcA)) &&& stdmskClkpol) |||
      (multX1 <<< stdbitClkmult))
  else
    setup ||| ((clksrcCounter <<< stdbitClksrc) |||
      ((cra >>> (crabitClkpolA - stdbitClkpol)) &&& stdmskClkpol) |||
      (if cra &&& cramskClkmultA = multX0 <<< crabitClkmultA then multX1 <<< stdbitClkmult
        else (cra >>> (crabitClkmultA - stdbitClkmult)) &&& stdmskClkmult))

def getModeB (cra crb : U16) : U16 :=
  let setup := ((crb <<< (stdbitIntsrc - crbbitIntsrcB)) &&& stdmskIntsrc) |||
    ((crb <<< (stdbitLatchsrc - crbbitLatchsrc)) &&& stdmskLatchsrc) |||
    ((crb <<< (stdbitLoadsrc - crbbitLoadsrcB)) &&& stdmskLoadsrc) |||
    ((crb <<< (stdbitIndxpol - crbbitIndxpolB)) &&& stdmskIndxpol) |||
    ((crb >>> (crbbitClkenabB - stdbitClkenab)) &&& stdmskClkenab) |||
    ((cra >>> ((crabitIndxsrcB + 1) - stdbitIndxsrc)) &&& stdmskIndxsrc)
  if crb &&& crbmskClkmultB = multX0 <<< crbbitClkmultB then
    setup ||| ((clksrcExtender <<< stdbitClksrc) ||| (multX1 <<< stdbitClkmult) |||
      ((cra >>> (crabitClksrcB - stdbitClkpol)) &&& stdmskClkpol))
  else if cra &&& ((2 : U16) <<< crabitClksrcB) ≠ 0 then
    setup ||| ((clksrcTimer <<< stdbitClksrc) ||| (multX1 <<< stdbitClkmult) |||
      ((cra >>> (crabitClksrcB - stdbitClkpol)) &&& stdmskClkpol))
  else
    setup ||| ((clksrcCounter <<< stdbitClksrc) |||
      ((crb >>> (crbbitClkmultB - stdbitClkmult)) &&& stdmskClkmult) |||
      ((crb <<< (stdbitClkpol - crbbitClkpolB)) &&& stdmskClkpol))

def getMode : U16 :=
  match k.side with
  | .A => getModeA (readCra d k) (readCrb d k)
  | .B => getModeB (readCra d k) (readCrb d k)

def craOfModeA (setup : U16) (disableIntSrc : Bool) : U16 :=
  let cra := (setup &&& cramskLoadsrcA) |||
    ((setup &&& stdmskIndxsrc) >>> (stdbitIndxsrc - (crabitIndxsrcA + 1)))
  let cra := if disableIntSrc then cra
    else cra ||| ((setup &&& stdmskIntsrc) >>> (stdbitIntsrc - crabitIntsrcA))
  let clksrc := (setup &&& stdmskClksrc) >>> stdbitClksrc
  let cra :=
    if clksrc = clksrcExtender ∨ clksrc = clksrcTimer then
      cra ||| (((2 : U16) <<< crabitClksrcA) |||
        ((setup &&& stdmskClkpol) >>> (stdbitClkpol - crabitClksrcA)) |||
        ((1 : U16) <<< crabitClkpolA) ||| (multX1 <<< crabitClkmultA))
    else
      cra ||| (clksrcCounter ||| ((setup &&& stdmskClkpol) <<< (crabitClkpolA - stdbitClkpol)) |||
        (if setup &&& stdmskClkmult = multX0 <<< stdbitClkmult then multX1 <<< crabitClkmultA
          else (setup &&& stdmskClkmult) <<< (crabitClkmultA - stdbitClkmult)))
  if ~~~setup &&& stdmskIndxsrc ≠ 0 then
    cra ||| ((setup &&& stdmskIndxpol) <<< (crabitIndxpolA - stdbitIndxpol))
  else cra

def crbOfModeA (setup : U16) : U16 :=
  crbmskIntresetcmd ||| crbmskIntresetA |||
    ((setup &&& stdmskClkenab) <<< (crbbitClkenabA - stdbitClkenab))

def craOfModeB (setup : U16) : U16 :=
  let cra := (setup &&& stdmskIndxsrc) <<< ((crabitIndxsrcB + 1) - stdbitIndxsrc)
  let clksrc := (setup &&& stdmskClksrc) >>> stdbitClksrc
  if clksrc = clksrcTimer ∨ clksrc = clksrcExtender then
    cra ||| (((2 : U16) <<< crabitClksrcB) |||
      ((setup &&& stdmskClkpol) <<< (crabitClksrcB - stdbitClkpol)))
  else cra ||| (clksrcCounter <<< crabitClksrcB)

def crbOfModeB (setup : U16) (disableIntSrc : Bool) : U16 :=
  let crb := crbmskIntresetcmd ||| crbmskIntresetB |||
    ((setup &&& stdmskClkenab) <<< (crbbitClkenabB - stdbitClkenab)) |||
    ((setup &&& stdmskLoadsrc) >>> (stdbitLoadsrc - crbbitLoadsrcB))
  let crb := if disableIntSrc then crb
    else crb ||| ((setup &&& stdmskIntsrc) >>> (stdbitIntsrc - crbbitIntsrcB))
  let clksrc := (setup &&& stdmskClksrc) >>> stdbitClksrc
  let crb :=
    if clksrc = clksrcTimer then
      crb ||| (((1 : U16) <<< crbbitClkpolB) ||| (multX1 <<< crbbitClkmultB))
    else if clksrc = clksrcExtender then
      crb ||| (((1 : U16) <<< crbbitClkpolB) ||| (multX0 <<< crbbitClkmultB))
    else
      crb ||| (((setup &&& stdmskClkpol) >>> (stdbitClkpol - crbbitClkpolB)) |||
        (if setup &&& stdmskClkmult = multX0 <<< stdbitClkmult then multX1 <<< crbbitClkmultB
          else (setup &&& stdmskClkmult) <<< (crbbitClkmultB - stdbitClkmult)))
  if ~~~setup &&& stdmskIndxsrc ≠ 0 then
    crb ||| ((setup &&& stdmskIndxpol) >>> (stdbitIndxpol - crbbitIndxpolB))
  else crb

/-- `devpriv->CounterIntEnabs &= ~k->MyEventBits[3]`, if the source is disabled. -/
def unlistEvents (disableIntSrc : Bool) : Device :=
  if disableIntSrc then { d with counterIntEnabs := d.counterIntEnabs &&& ~~~eventMask k } else d

def setModeA (setup : U16) (disableIntSrc : Bool) : Device :=
  let d := unlistEvents d k disableIntSrc
  let d := replaceCra d k (cramskIndxsrcB ||| cramskClksrcB) (craOfModeA setup disableIntSrc)
  replaceCrb d k (~~~(crbmskIntctrl ||| crbmskClkenabA)) (crbOfModeA setup)

def setModeB (setup : U16) (disableIntSrc : Bool) : Device :=
  let d := unlistEvents d k disableIntSrc
  let d := replaceCra d k (~~~(cramskIndxsrcB ||| cramskClksrcB)) (craOfModeB setup)
  replaceCrb d k (crbmskClkenabA ||| crbmskLatchsrc) (crbOfModeB setup disableIntSrc)

def setMode (setup : U16) (disableIntSrc : Bool) : Device :=
  match k.side with
  | .A => setModeA d k setup disableIntSrc
  | .B => setModeB d k setup disableIntSrc

def setEnable (enab : U16) : Device :=
  match k.side with
  | .A => replaceCrb d k (~~~(crbmskIntctrl ||| crbmskClkenabA)) (enab <<< crbbitClkenabA)
  | .B => replaceCrb d k (~~~(crbmskIntctrl ||| crbmskClkenabB)) (enab <<< crbbitClkenabB)

def getEnable : U16 :=
  match k.side with
  | .A => (readCrb d k >>> crbbitClkenabA) &&& 1
  | .B => (readCrb d k >>> crbbitClkenabB) &&& 1

def setLatchSource (value : U16) : Device :=
  replaceCrb d k (~~~(crbmskIntctrl ||| crbmskLatchsrc)) (value <<< crbbitLatchsrc)

def setLoadTrig (trig : U16) : Device :=
  match k.side with
  | .A => replaceCra d k (~~~cramskLoadsrcA) (trig <<< crabitLoadsrcA)
  | .B => replaceCrb d k (~~~(crbmskLoadsrcB ||| crbmskIntctrl)) (trig <<< crbbitLoadsrcB)

def getLoadTrig : U16 :=
  match k.side with
  | .A => (readCra d k >>> crabitLoadsrcA) &&& 3
  | .B => (readCrb d k >>> crbbitLoadsrcB) &&& 3

/-- The update of `devpriv->CounterIntEnabs` in `SetIntSrc_A` and `SetIntSrc_B`. -/
def listEvents (intSource : U16) : Result Device := do
  let bits ← myEventBits k intSource
  return { d with counterIntEnabs := (d.counterIntEnabs &&& ~~~eventMask k) ||| bits }

def setIntSrcA (intSource : U16) : Result Device :=
  let d := replaceCrb d k (~~~crbmskIntctrl) (crbmskIntresetcmd ||| crbmskIntresetA)
  let d := replaceCra d k (~~~cramskIntsrcA) (intSource <<< crabitIntsrcA)
  listEvents d k intSource

def setIntSrcB (intSource : U16) : Result Device :=
  let crb := readCrb d k &&& ~~~crbmskIntctrl
  let d := writeCrb d k (crb ||| crbmskIntresetcmd ||| crbmskIntresetB)
  let d := writeCrb d k ((crb &&& ~~~crbmskIntsrcB) ||| (intSource <<< crbbitIntsrcB))
  listEvents d k intSource

def setIntSrc (intSource : U16) : Result Device :=
  match k.side with
  | .A => setIntSrcA d k intSource
  | .B => setIntSrcB d k intSource

def getIntSrc : U16 :=
  match k.side with
  | .A => (readCra d k >>> crabitIntsrcA) &&& 3
  | .B => (readCrb d k >>> crbbitIntsrcB) &&& 3

def pulseIndexA : Device :=
  let cra := readCra d k
  writeCra (writeCra d k (cra ^^^ cramskIndxpolA)) k cra

def pulseIndexB : Device :=
  let crb := readCrb d k &&& ~~~crbmskIntctrl
  writeCrb (writeCrb d k (crb ^^^ crbmskIndxpolB)) k crb

def pulseIndex : Device :=
  match k.side with
  | .A => pulseIndexA d k
  | .B => pulseIndexB d k

inductive Op where
  | setMode (k : Counter) (setup : U16) (disableIntSrc : Bool)
  | setEnable (k : Counter) (enab : U16)
  | setLatchSource (k : Counter) (value : U16)
  | setLoadTrig (k : Counter) (trig : U16)
  | setIntSrc (k : Counter) (intSource : U16)
  | pulseIndex (k : Counter)
  | resetCapFlags (k : Counter)

def perform (d : Device) : Op → Result Device
  | .setMode k setup disableIntSrc => .ok (setMode d k setup disableIntSrc)
  | .setEnable k enab => .ok (setEnable d k enab)
  | .setLatchSource k value => .ok (setLatchSource d k value)
  | .setLoadTrig k trig => .ok (setLoadTrig d k trig)
  | .setIntSrc k intSource => setIntSrc d k intSource
  | .pulseIndex k => .ok (pulseIndex d k)
  | .resetCapFlags k => .ok (resetCapFlags d k)

/-- The set-up that `CountersInit` gives every counter. -/
def countersSetup : U16 := (1 <<< 7) ||| (2 <<< 1) ||| 1

def encpriv : List Counter :=
  [⟨0, .A⟩, ⟨1, .A⟩, ⟨2, .A⟩, ⟨0, .B⟩, ⟨1, .B⟩, ⟨2, .B⟩]

/-- `CountersInit`, as the operations that it does. -/
def countersInit : List Op :=
  encpriv.flatMap fun k =>
    [.setMode k countersSetup true, .setIntSrc k 0, .resetCapFlags k, .setEnable k 0]

end Comedi.S626Counters
