import Comedi.Instructions
import Comedi.Kcomedilib

namespace Comedi.RtTimer

open RunState Requests Instructions Kcomedilib

def trigNone : U32 := 0x1
def trigNow : U32 := 0x2
def trigFollow : U32 := 0x4
def trigTimer : U32 := 0x10
def trigCount : U32 := 0x20
def trigInt : U32 := 0x80

def speedLimit : U32 := 100000

/-- A trigger source without what the driver does not support, and whether that is an error. -/
def maskSrc (src allowed : U32) : U32 × Bool :=
  (src &&& allowed, src &&& allowed = 0 ∨ src ≠ src &&& allowed)

def cmdtestHelper (cmd : Cmd) (startSrc scanBeginSrc convertSrc scanEndSrc stopSrc : U32) :
    Bool × Cmd :=
  let start := maskSrc cmd.startSrc startSrc
  let scanBegin := maskSrc cmd.scanBeginSrc scanBeginSrc
  let convert := maskSrc cmd.convertSrc convertSrc
  let scanEnd := maskSrc cmd.scanEndSrc scanEndSrc
  let stop := maskSrc cmd.stopSrc stopSrc
  (start.2 || scanBegin.2 || convert.2 || scanEnd.2 || stop.2,
    { cmd with
      startSrc := start.1
      scanBeginSrc := scanBegin.1
      convertSrc := convert.1
      scanEndSrc := scanEnd.1
      stopSrc := stop.1 })

/-- Step 2 of `timer_cmdtest` finds an error. -/
def badSources (cmd : Cmd) : Prop :=
  (cmd.startSrc ≠ trigNow ∧ cmd.startSrc ≠ trigInt) ∨
    (cmd.scanBeginSrc ≠ trigTimer ∧ cmd.scanBeginSrc ≠ trigFollow) ∨
    (cmd.convertSrc ≠ trigTimer ∧ cmd.convertSrc ≠ trigNow) ∨
    (cmd.stopSrc ≠ trigCount ∧ cmd.stopSrc ≠ trigNone) ∨
    (cmd.scanBeginSrc = trigFollow ∧ cmd.convertSrc ≠ trigTimer) ∨
    (cmd.convertSrc = trigNow ∧ cmd.scanBeginSrc ≠ trigTimer)

instance (cmd : Cmd) : Decidable (badSources cmd) := by unfold badSources; infer_instance

def slowScanBegin (cmd : Cmd) : Bool × Cmd :=
  if cmd.scanBeginSrc = trigTimer ∧ cmd.scanBeginArg < speedLimit then
    (true, { cmd with scanBeginArg := speedLimit })
  else (false, cmd)

def slowConvert (cmd : Cmd) : Bool × Cmd :=
  if cmd.convertSrc = trigTimer ∧ cmd.convertArg < speedLimit then
    (true, { cmd with convertArg := speedLimit })
  else (false, cmd)

def fitScan (cmd : Cmd) : Bool × Cmd :=
  if cmd.convertSrc = trigTimer ∧ cmd.scanBeginSrc = trigTimer ∧
      cmd.convertArg * cmd.scanEndArg > cmd.scanBeginArg then
    (true, { cmd with scanBeginArg := cmd.convertArg * cmd.scanEndArg })
  else (false, cmd)

/-- Steps 3 and 4 of `timer_cmdtest`. -/
def testArgs (cmd : Cmd) : Int × Cmd :=
  let scanBegin := slowScanBegin cmd
  let convert := slowConvert scanBegin.2
  let scan := fitScan convert.2
  (if scanBegin.1 ∨ convert.1 ∨ scan.1 then 3 else 0, scan.2)

/-- The start source that the driver supports. -/
def startSource (type : SubdeviceType) : U32 := if type = .ao then trigInt else trigNow

def timerCmdtest (type : SubdeviceType) (cmd : Cmd) : Int × Cmd :=
  let masked := cmdtestHelper cmd (startSource type) (trigTimer ||| trigFollow)
    (trigNow ||| trigTimer) trigCount (trigCount ||| trigNone)
  if masked.1 then (1, masked.2)
  else if badSources masked.2 then (2, masked.2)
  else testArgs masked.2

structure TimerPrivate where
  scanPeriod : Int := 0
  convertPeriod : Int := 0
  stop : Bool := false
  rtTaskActive : Bool := false
  scanTaskActive : Bool := false

/-- Where `timer_task_func` is blocked: until the next command, until its start, or in
`rt_task_wait_period` before the `n`-th scan. -/
inductive RtTask where
  | suspended
  | ready
  | waiting (n : Nat)
  deriving DecidableEq, Repr

/-- Where `scan_task_func` is blocked: until the next command, in `rt_task_suspend` before the
`n`-th scan, or in `rt_task_wait_period` before conversion `i` of the `n`-th scan. -/
inductive ScanTask where
  | suspended
  | between (n : Nat)
  | converting (n i : Nat)
  deriving DecidableEq, Repr

/-- The device with its only subdevice, the emulated subdevice, and the two tasks; `woken` tells
that the suspended scan task was made periodic. -/
structure Timer where
  board : Board := {}
  sub : Subdevice
  emul : Subdevice := {}
  drv : TimerPrivate := {}
  rt : RtTask := .suspended
  scan : ScanTask := .suspended
  woken : Bool := false

/-- A read of `cmd->chanlist` beyond its end. -/
inductive TimerFault where
  | overread
  deriving DecidableEq, Repr

def cmdOf (s : Subdevice) : Cmd :=
  match s.async with
  | some a => a.cmd
  | none => {}

def Timer.cmd (st : Timer) : Cmd := cmdOf st.sub

/-- The condition of the loops over scans. -/
def going (cmd : Cmd) (n : Nat) : Prop := n < cmd.stopArg.toNat ∨ cmd.stopSrc = trigNone

instance (cmd : Cmd) (n : Nat) : Decidable (going cmd n) := by unfold going; infer_instance

def setEvents (s : Subdevice) (events : U32) : Subdevice :=
  { s with async := s.async.map fun a => { a with events } }

section Scan

/-- What the scan task meets between two points where it is blocked: the answer of
`rt_task_suspend`, which fails at once, whether the scan or the conversion is late, and the
answers of the conversions. -/
structure ScanInput where
  suspend : Int := 0
  scanLate : Bool := false
  convertLate : Bool := false
  io : Nat → Int := fun _ => 0

/-- `async->events |= events`, `comedi_event`, and the events cleared. -/
def signal (st : Timer) (events : U32) : Timer :=
  let s := { st.sub with async := st.sub.async.map fun a => raiseEvents a events }
  { st with sub := setEvents (comediEvent st.board s).1 0 }

/-- The label `cleanup` of `scan_task_func`. -/
def scanCleanup (st : Timer) (events : U32) : Timer :=
  let st := signal { st with emul := (comediUnlock st.emul).2 } (events ||| comediCbEoa)
  { st with drv := { st.drv with scanTaskActive := false }, scan := .suspended }

/-- The head of the loop over scans, before a scan that is not the first. -/
def nextScan (st : Timer) (n : Nat) : Timer :=
  if going st.cmd n then { st with scan := .between n } else scanCleanup st 0

/-- All io functions but the one for DIO subdevices read `cmd->chanlist[index]`. -/
def ioFunction (st : Timer) (index : Nat) : Except TimerFault Unit :=
  if st.sub.type ≠ .dio ∧ ¬ index < st.cmd.chanlistLen.toNat then .error .overread else .ok ()

/-- The loop over the conversions of the `n`-th scan, from conversion `i` on, of which `left` are
left. -/
def conversions (st : Timer) (input : ScanInput) (n : Nat) : Nat → Nat → Except TimerFault Timer
  | 0, _ => .ok (nextScan (signal st comediCbBlock) (n + 1))
  | left + 1, i =>
    if st.cmd.convertSrc = trigTimer ∧ i ≠ 0 then .ok { st with scan := .converting n i }
    else do
      ioFunction st i
      if input.io i < 0 then return scanCleanup st comediCbError
      conversions st input n left (i + 1)

/-- The `n`-th scan, from the test of the stop flag on. -/
def startScan (st : Timer) (input : ScanInput) (n : Nat) : Except TimerFault Timer :=
  if st.drv.stop then .ok (scanCleanup st 0)
  else if input.scanLate then .ok (scanCleanup st comediCbError)
  else conversions st input n st.cmd.scanEndArg.toNat 0

/-- A conversion that was waited for, and those after it. -/
def resumeScan (st : Timer) (input : ScanInput) (n i : Nat) : Except TimerFault Timer :=
  if input.convertLate then .ok (scanCleanup st comediCbError)
  else do
    ioFunction st i
    if input.io i < 0 then return scanCleanup st comediCbError
    conversions st input n (st.cmd.scanEndArg.toNat - (i + 1)) (i + 1)

/-- `scan_task_func` from one point where it is blocked to the next. -/
def scanTaskFunc (st : Timer) (input : ScanInput) : Except TimerFault Timer :=
  match st.scan with
  | .converting n i => resumeScan st input n i
  | .suspended =>
    if st.woken then
      let st := { st with woken := false, drv := { st.drv with scanTaskActive := true } }
      if going st.cmd 0 then startScan st input 0 else .ok (scanCleanup st 0)
    else .ok st
  | .between n =>
    if input.suspend < 0 then .ok (scanCleanup { st with woken := false } comediCbError)
    else if st.woken then startScan { st with woken := false } input n
    else .ok st

end Scan

section Rt

/-- `rt_task_make_periodic` of the scan task, which resumes it where it is suspended. -/
def wakeScanTask (st : Timer) (ret : Int) : Timer :=
  match st.scan with
  | .converting _ _ => st
  | _ => if ret < 0 then st else { st with woken := true }

/-- The label `cleanup` of `timer_task_func`. -/
def rtCleanup (st : Timer) : Timer :=
  { st with drv := { st.drv with rtTaskActive := false }, rt := .suspended }

/-- The `n`-th scan is started, and the loop goes on to the next. -/
def launchScan (st : Timer) (ret : Int) (n : Nat) : Timer :=
  let st := wakeScanTask st ret
  if going st.cmd (n + 1) then { st with rt := .waiting (n + 1) } else rtCleanup st

/-- `timer_task_func` from one point where it is blocked to the next, with the answer of
`rt_task_make_periodic`. -/
def timerTaskFunc (st : Timer) (ret : Int) : Timer :=
  match st.rt with
  | .suspended => st
  | .ready =>
    let st := { st with drv := { st.drv with rtTaskActive := true, scanTaskActive := true } }
    if going st.cmd 0 then launchScan st ret 0 else rtCleanup st
  | .waiting n => if st.drv.scanTaskActive = false then rtCleanup st else launchScan st ret n

end Rt

section Requests

variable (nano2count : U32 → Int)

/-- The number that stands for `timer_inttrig` in `async->inttrig`. -/
def timerInttrigFn : Nat := 0

/-- What `do_cmd` and `inttrig` of the driver do outside of the core: their answer, and whether the
timer task was made periodic. -/
structure Started where
  ans : Answer
  drv : TimerPrivate
  emul : Subdevice
  started : Bool := false

/-- `timer_start_cmd`, with the answer of `rt_task_make_periodic`. -/
def timerStartCmd (drv : TimerPrivate) (emul : Subdevice) (inttrig : Option Nat) (make : Int) :
    Started :=
  { ans := { ret := if make < 0 then make else 0, inttrig }
    drv := { drv with stop := false }
    emul
    started := 0 ≤ make }

def scanPeriod (cmd : Cmd) : Option Int :=
  if cmd.scanBeginSrc = trigTimer then some (nano2count cmd.scanBeginArg)
  else if cmd.scanBeginSrc = trigFollow then some (nano2count (cmd.convertArg * cmd.scanEndArg))
  else none

def convertPeriod (cmd : Cmd) : Option Int :=
  if cmd.convertSrc = trigTimer then some (nano2count cmd.convertArg)
  else if cmd.convertSrc = trigNow then some 1
  else none

def timerCmd (drv : TimerPrivate) (emul : Subdevice) (cmd : Cmd) (inttrig : Option Nat)
    (make : Int) : Started :=
  if drv.rtTaskActive ∨ drv.scanTaskActive then ⟨⟨-ebusy, inttrig⟩, drv, emul, false⟩
  else
    let (ret, emul) := comediLock emul
    if ret < 0 then ⟨⟨ret, inttrig⟩, drv, emul, false⟩
    else
      match scanPeriod nano2count cmd with
      | none => ⟨⟨-1, inttrig⟩, drv, emul, false⟩
      | some period =>
        let drv := { drv with scanPeriod := period }
        match convertPeriod nano2count cmd with
        | none => ⟨⟨-1, inttrig⟩, drv, emul, false⟩
        | some period =>
          let drv := { drv with convertPeriod := period }
          if cmd.startSrc = trigNow then timerStartCmd drv emul inttrig make
          else ⟨⟨0, some timerInttrigFn⟩, drv, emul, false⟩

def timerInttrig (drv : TimerPrivate) (emul : Subdevice) (inttrig : Option Nat) (trigNum : U32)
    (make : Int) : Started :=
  if trigNum ≠ 0 then ⟨⟨-einval, inttrig⟩, drv, emul, false⟩
  else timerStartCmd drv emul none make

/-- A request to the device or a run of one of its tasks. -/
inductive TimerStep where
  | cmd (file : File) (req : CmdReq) (make : Int)
  | inttrig (trigNum : U32) (make : Int)
  | cancel (file : File)
  | timerTask (make : Int)
  | scanTask (input : ScanInput)

def isInttrig : Call → Bool
  | .inttrig _ _ => true
  | _ => false

def isCancel : Call → Bool
  | .cancel => true
  | _ => false

def inttrigOf (s : Subdevice) : Option Nat := s.async.bind (·.inttrig)

/-- What the driver does is there only if the core has called it. -/
def Timer.after (st : Timer) (called : Bool) (r : Started) : Timer :=
  if called then
    { st with drv := r.drv, emul := r.emul, rt := if r.started then .ready else st.rt }
  else st

/-- What no test changes of a command, and the source that the first one masks. -/
structure Kept (cmd cmd' : Cmd) : Prop where
  stopSrc : cmd'.stopSrc = cmd.stopSrc ∨ cmd'.stopSrc = cmd.stopSrc &&& (trigCount ||| trigNone)
  stopArg : cmd'.stopArg = cmd.stopArg
  scanEndArg : cmd'.scanEndArg = cmd.scanEndArg
  chanlist : cmd'.chanlist = cmd.chanlist
  chanlistLen : cmd'.chanlistLen = cmd.chanlistLen

theorem slowScanBegin_cases (cmd : Cmd) :
    slowScanBegin cmd = (false, cmd) ∨
      slowScanBegin cmd = (true, { cmd with scanBeginArg := speedLimit }) := by
  unfold slowScanBegin
  split
  · exact .inr rfl
  · exact .inl rfl

theorem slowConvert_cases (cmd : Cmd) :
    slowConvert cmd = (false, cmd) ∨
      slowConvert cmd = (true, { cmd with convertArg := speedLimit }) := by
  unfold slowConvert
  split
  · exact .inr rfl
  · exact .inl rfl

theorem fitScan_cases (cmd : Cmd) :
    fitScan cmd = (false, cmd) ∨
      fitScan cmd = (true, { cmd with scanBeginArg := cmd.convertArg * cmd.scanEndArg }) := by
  unfold fitScan
  split
  · exact .inr rfl
  · exact .inl rfl

theorem testArgs_kept (cmd cmd' : Cmd) (h : Kept cmd cmd') : Kept cmd (testArgs cmd').2 := by
  have hbegin : Kept cmd (slowScanBegin cmd').2 := by
    obtain hb | hb := slowScanBegin_cases cmd' <;> rw [hb] <;>
      exact ⟨h.stopSrc, h.stopArg, h.scanEndArg, h.chanlist, h.chanlistLen⟩
  have hconvert : Kept cmd (slowConvert (slowScanBegin cmd').2).2 := by
    obtain hc | hc := slowConvert_cases (slowScanBegin cmd').2 <;> rw [hc] <;>
      exact ⟨hbegin.stopSrc, hbegin.stopArg, hbegin.scanEndArg, hbegin.chanlist, hbegin.chanlistLen⟩
  unfold testArgs
  dsimp only
  obtain hf | hf := fitScan_cases (slowConvert (slowScanBegin cmd').2).2 <;> rw [hf] <;>
    exact ⟨hconvert.stopSrc, hconvert.stopArg, hconvert.scanEndArg, hconvert.chanlist,
      hconvert.chanlistLen⟩

theorem testArgs_steps {cmd : Cmd} (h : (testArgs cmd).1 = 0) :
    slowScanBegin cmd = (false, cmd) ∧ slowConvert cmd = (false, cmd) ∧
      fitScan cmd = (false, cmd) := by
  unfold testArgs at h
  dsimp only at h
  split at h
  · exact absurd h (by decide)
  next hno =>
  rw [not_or, not_or] at hno
  obtain hb | hb := slowScanBegin_cases cmd
  · rw [hb] at hno
    obtain hc | hc := slowConvert_cases cmd
    · rw [hc] at hno
      obtain hf | hf := fitScan_cases cmd
      · exact ⟨hb, hc, hf⟩
      · rw [hf] at hno
        exact absurd rfl hno.2.2
    · rw [hc] at hno
      exact absurd rfl hno.2.1
  · rw [hb] at hno
    exact absurd rfl hno.1

theorem testArgs_ok {cmd : Cmd} (h : (testArgs cmd).1 = 0) : testArgs cmd = (0, cmd) := by
  obtain ⟨hb, hc, hf⟩ := testArgs_steps h
  simp only [testArgs, hb, hc, hf, Bool.false_eq_true, or_self, if_false]

theorem timerCmdtest_kept (type : SubdeviceType) (cmd : Cmd) :
    Kept cmd (timerCmdtest type cmd).2 := by
  have hmasked : ∀ start scanBegin convert scanEnd, Kept cmd
      (cmdtestHelper cmd start scanBegin convert scanEnd (trigCount ||| trigNone)).2 :=
    fun _ _ _ _ => ⟨.inr rfl, rfl, rfl, rfl, rfl⟩
  unfold timerCmdtest
  dsimp only
  split
  · exact hmasked _ _ _ _
  split
  · exact hmasked _ _ _ _
  exact testArgs_kept cmd _ (hmasked _ _ _ _)

theorem maskSrc_ok {src allowed : U32} (h : (maskSrc src allowed).2 = false) :
    (maskSrc src allowed).1 = src := by
  simp only [maskSrc, decide_eq_false_iff_not, not_or, not_not] at h
  exact h.2.symm

theorem cmdtestHelper_ok {cmd : Cmd} {start scanBegin convert scanEnd stop : U32}
    (h : (cmdtestHelper cmd start scanBegin convert scanEnd stop).1 = false) :
    (cmdtestHelper cmd start scanBegin convert scanEnd stop).2 = cmd := by
  simp only [cmdtestHelper, Bool.or_eq_false_iff] at h ⊢
  rw [maskSrc_ok h.1.1.1.1, maskSrc_ok h.1.1.1.2, maskSrc_ok h.1.1.2, maskSrc_ok h.1.2,
    maskSrc_ok h.2]

/-- An accepted command is left as it is. -/
theorem timerCmdtest_ok {type : SubdeviceType} {cmd : Cmd} (h : (timerCmdtest type cmd).1 = 0) :
    (timerCmdtest type cmd).2 = cmd ∧ ¬ badSources cmd ∧ (testArgs cmd).1 = 0 := by
  unfold timerCmdtest at h ⊢
  dsimp only at h ⊢
  split at h
  · cases h
  next herr =>
  rw [if_neg herr]
  rw [cmdtestHelper_ok (Bool.eq_false_iff.mpr herr)] at h ⊢
  split at h
  · cases h
  next hbad =>
  rw [if_neg hbad, testArgs_ok h]
  exact ⟨rfl, hbad, rfl⟩

def timerTest (type : SubdeviceType) : CmdTest where
  run := timerCmdtest type
  chanlist_eq cmd := (timerCmdtest_kept type cmd).chanlist
  chanlistLen_eq cmd _ := (timerCmdtest_kept type cmd).chanlistLen

/-- `COMEDI_CMD`. The driver finds the user's command as it is, since `timer_cmdtest` has
accepted it. -/
def cmdRequest (st : Timer) (file : File) (req : CmdReq) (make : Int) : Timer :=
  let r := timerCmd nano2count st.drv st.emul req.cmd (inttrigOf st.sub) make
  let (_, b, s, calls) :=
    doCmdIoctl st.board st.sub { req with test := timerTest st.sub.type, start := r.ans } file
  let called := calls.any Call.isDoCmd
  let b := if called then { b with rt := 1 } else b
  Timer.after { st with board := b, sub := s } called r

def inttrigRequest (st : Timer) (trigNum : U32) (make : Int) : Timer :=
  let r := timerInttrig st.drv st.emul (inttrigOf st.sub) trigNum make
  let (_, s, calls) := inttrigInsn st.sub trigNum r.ans
  let called := calls.any isInttrig
  let s := if called ∧ trigNum = 0 then setEvents s 0 else s
  Timer.after { st with sub := s } called r

/-- `COMEDI_CANCEL`, with `timer_cancel`. -/
def cancelRequest (st : Timer) (file : File) : Timer :=
  let (_, b, s, calls) :=
    doCancelIoctl st.board st.sub { inttrig := inttrigOf st.sub } file
  { st with board := b, sub := s, drv := { st.drv with stop := st.drv.stop || calls.any isCancel } }

def timerStep (st : Timer) : TimerStep → Except TimerFault Timer
  | .cmd file req make => .ok (cmdRequest nano2count st file req make)
  | .inttrig trigNum make => .ok (inttrigRequest st trigNum make)
  | .cancel file => .ok (cancelRequest st file)
  | .timerTask make => .ok (timerTaskFunc st make)
  | .scanTask input => scanTaskFunc st input

end Requests

end Comedi.RtTimer
