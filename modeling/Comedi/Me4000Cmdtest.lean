import Comedi.ArgFixes
import Comedi.ConfigRetry
import Comedi.Me4000
import Comedi.Retests

namespace Comedi.Me4000Cmdtest

open ArgFixes Me4000 Retests
open ConfigRetry (trigRoundNearest trigRoundDown trigRoundUp)
open Pci230 (trigExt)
open RtTimer (trigNone trigNow trigFollow trigTimer trigCount)

def trigAny : U32 := 0xffffffff

def me4000AiMinTicks : U32 := 66

section Ticks

/-- The ticks of a time in nanoseconds, as `ai_round_cmd_args` rounds it. -/
def roundArg (flags arg : U32) : U32 :=
  if arg = 0 then 0
  else
    let ticks := arg * 33 / 1000
    let rest := arg * 33 % 1000
    if flags &&& trigRoundNearest ≠ 0 then if 33 < rest then ticks + 1 else ticks
    else if flags &&& trigRoundUp ≠ 0 then if rest ≠ 0 then ticks + 1 else ticks
    else ticks

structure Ticks where
  init : U32
  scan : U32
  chan : U32

def aiRoundCmdArgs (cmd : Cmd) : Ticks :=
  ⟨roundArg cmd.flags cmd.startArg, roundArg cmd.flags cmd.scanBeginArg,
    roundArg cmd.flags cmd.convertArg⟩

/-- What `ai_write_timer` writes to the low registers; the scan timer may be left as it is. -/
structure Timers where
  scanPreTimer : U32
  scanTimer : Option U32
  chanPreTimer : U32
  chanTimer : U32

def aiWriteTimer (ticks : Ticks) : Timers :=
  ⟨ticks.init - 1, if ticks.scan ≠ 0 then some (ticks.scan - 1) else none, ticks.chan - 1,
    ticks.chan - 1⟩

/-- What `ai_prepare` writes to the sample counter. -/
def sampleCounter (cmd : Cmd) : Option U32 :=
  if cmd.stopSrc = trigCount then some (cmd.chanlistLen * cmd.stopArg)
  else if cmd.stopSrc = trigNone ∧ cmd.scanEndSrc = trigCount then some cmd.scanEndArg
  else none

end Ticks

section Stages

def roundFlags : U32 := trigRoundNearest ||| trigRoundUp ||| trigRoundDown

/-- A source that is not one of the `valid` ones is replaced. -/
def checkSource (valid : List U32) (other src : U32) : Bool × U32 :=
  if src ∈ valid then (false, src)
  else if src = trigAny then (true, src &&& valid.foldl (· ||| ·) 0)
  else (true, other)

/-- Stage 1 of `me4000_ai_do_cmd_test`. -/
def checkSources (cmd : Cmd) : Bool × Cmd :=
  let start := checkSource [trigNow, trigExt] trigNow cmd.startSrc
  let scanBegin := checkSource [trigFollow, trigTimer, trigExt] trigFollow cmd.scanBeginSrc
  let convert := checkSource [trigTimer, trigExt] trigTimer cmd.convertSrc
  let scanEnd := checkSource [trigNone, trigCount] trigNone cmd.scanEndSrc
  let stop := checkSource [trigNone, trigCount] trigNone cmd.stopSrc
  (start.1 || scanBegin.1 || convert.1 || scanEnd.1 || stop.1,
    { cmd with
      startSrc := start.2
      scanBeginSrc := scanBegin.2
      convertSrc := convert.2
      scanEndSrc := scanEnd.2
      stopSrc := stop.2 })

def startCombinations : List (U32 × U32 × U32) :=
  [(trigNow, trigTimer, trigTimer), (trigNow, trigFollow, trigTimer),
    (trigExt, trigTimer, trigTimer), (trigExt, trigFollow, trigTimer),
    (trigExt, trigExt, trigTimer), (trigExt, trigExt, trigExt)]

def stopCombinations : List (U32 × U32) :=
  [(trigNone, trigNone), (trigCount, trigNone), (trigNone, trigCount), (trigCount, trigCount)]

def combinedStart (cmd : Cmd) : Prop :=
  (cmd.startSrc, cmd.scanBeginSrc, cmd.convertSrc) ∈ startCombinations

def combinedStop (cmd : Cmd) : Prop := (cmd.stopSrc, cmd.scanEndSrc) ∈ stopCombinations

instance (cmd : Cmd) : Decidable (combinedStart cmd) := inferInstanceAs (Decidable (_ ∈ _))

instance (cmd : Cmd) : Decidable (combinedStop cmd) := inferInstanceAs (Decidable (_ ∈ _))

/-- Stage 2. -/
def checkConflicts (cmd : Cmd) : Bool × Cmd :=
  let start := put (¬ combinedStart cmd)
    { cmd with startSrc := trigNow, scanBeginSrc := trigFollow, convertSrc := trigTimer } cmd
  let stop := put (¬ combinedStop start.2)
    { start.2 with stopSrc := trigNone, scanEndSrc := trigNone } start.2
  (start.1 || stop.1, stop.2)

/-- Stage 3. -/
def checkArgs (ticks : Ticks) (cmd : Cmd) : Bool × Cmd :=
  let chanlistLen := put (cmd.chanlistLen < 1) 1 cmd.chanlistLen
  let start := put (ticks.init < 66) 2000 cmd.startArg
  let scanBegin := put (ticks.scan ≠ 0 ∧ ticks.scan < 67) 2031 cmd.scanBeginArg
  let convert := put (ticks.chan < 66) 2000 cmd.convertArg
  (chanlistLen.1 || start.1 || scanBegin.1 || convert.1,
    { cmd with
      chanlistLen := chanlistLen.2
      startArg := start.2
      scanBeginArg := scanBegin.2
      convertArg := convert.2 })

/-- Stage 4, for one of the combinations. A scan that is too short is put right in the argument of
the end of the scan. -/
def checkTicks (ticks : Ticks) (cmd : Cmd) : Bool × Cmd :=
  let start := put (ticks.init < me4000AiMinTicks) 2000 cmd.startArg
  let convert := put (cmd.convertSrc = trigTimer ∧ ticks.chan < me4000AiMinTicks) 2000
    cmd.convertArg
  let scanEnd := put (cmd.scanBeginSrc = trigTimer ∧ ticks.scan ≤ cmd.chanlistLen * ticks.chan)
    (2000 * cmd.chanlistLen + 31) cmd.scanEndArg
  let count := put (cmd.stopSrc = trigCount ∧ cmd.stopArg = 0) 1 cmd.stopArg
  let last := put (cmd.scanEndSrc = trigCount ∧ scanEnd.2 = 0) 1 scanEnd.2
  (start.1 || convert.1 || scanEnd.1 || count.1 || last.1,
    { cmd with
      startArg := start.2
      convertArg := convert.2
      scanEndArg := last.2
      stopArg := count.2 })

/-- The stages of `me4000_ai_do_cmd_test`. -/
def checkStages (ai : AiInfo) (cmd : Cmd) : Int × Cmd :=
  let ticks := aiRoundCmdArgs cmd
  let sources := checkSources cmd
  if sources.1 then (1, sources.2)
  else
    let conflicts := checkConflicts sources.2
    if conflicts.1 then (2, conflicts.2)
    else
      let args := checkArgs ticks conflicts.2
      if args.1 then (3, args.2)
      else
        let checked := checkTicks ticks args.2
        if checked.1 then (4, checked.2)
        else if aiCheckChanlist ai checked.2 ≠ 0 then (5, checked.2)
        else (0, checked.2)

def me4000AiDoCmdTest (ai : AiInfo) (cmd : Cmd) : Int × Cmd :=
  checkStages ai { cmd with flags := cmd.flags &&& roundFlags }

end Stages

end Comedi.Me4000Cmdtest
