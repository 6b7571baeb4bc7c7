import Kognizance.Platform.Device
import Kognizance.Watchpoint.Util

/-!
# One debug register slot

`WP_RegisterInfo_t` and the functions of `watchpoint.cpp` that work on one slot
and its device: enabling, disabling and disarming it, and arming it for a new
range, by moving its breakpoint (`isWPModifyEnabled`) or by opening a fresh one.

A function that can end the process returns `Except Halt`. The answers of the
system calls come in `ArmAnswers`.
-/

namespace Kognizance

open Process

/-- `WP_Access_t`. -/
inductive WPAccess
  | read
  | write
  | rw
  | inst
  | invalid
  deriving DecidableEq, Repr

/-- `WP_ReplacementPolicy_t`. -/
inductive WPReplacementPolicy
  | auto
  | emptySlot
  | oldest
  | newest
  deriving DecidableEq, Repr

/-- `WP_TriggerAction_t`. -/
inductive WPTriggerAction
  | disable
  | alreadyDisabled
  | disableAll
  | retain
  deriving DecidableEq, Repr

/-- `WP_RegisterInfo_t`: one slot of the table. -/
structure WPRegisterInfo where
  va : UInt64
  wpLength : ℤ
  startTime : ℤ
  fileHandle : ℤ
  threadId : ℕ
  isActive : Bool
  /-- The event the slot was armed for, by pointer. -/
  sampledEvent : Option Event
  samplePostFull : ℕ

/-- `WP_Config_t`. -/
structure WPConfig where
  isWPModifyEnabled : Bool
  replacementPolicy : WPReplacementPolicy
  maxWP : ℕ
  deriving DecidableEq, Repr

/-- `WP_TriggerInfo_t`, as far as it is filled in. -/
structure WPTriggerInfo where
  va : UInt64
  watchLen : ℤ

/-- `SAMPLES_POST_FULL_RESET_VAL`. -/
def samplesPostFullResetVal : ℕ := 1

/-- The answers of the calls made while a slot is armed. -/
structure ArmAnswers where
  /-- for the device of the victim -/
  remove : RemoveAnswers
  /-- for the fresh device -/
  register : RegisterAnswers
  /-- for the device that is moved -/
  update : UpdateAnswers
  rdtsc : ℤ
  deriving DecidableEq, Repr

/-- `ValidateWPData`. -/
def validateWPData (va : UInt64) (wpLength : ℤ) : Bool :=
  if wpLength = 0 then false
  -- a length is valid when a debug register can watch it
  else if wpLength = 1 ∨ wpLength = 2 ∨ wpLength = 4 ∨ wpLength = 8 then isAligned va wpLength
  else false

/-- `EnableWatchpoint`. -/
def enableWatchpoint (threadId : ℕ) (fd : ℤ) (p : Platform) : Platform :=
  match p.getDevice threadId fd with
  | none => p
  | some dev => p.setDevice threadId fd dev.startDevice

/-- `DisableWatchpoint`: a slot whose device is not found stays active. -/
def disableWatchpoint (wpi : WPRegisterInfo) (p : Platform) :
    Except Halt (WPRegisterInfo × Platform) :=
  if wpi.fileHandle = -1 then .error .abort
  else
    match p.getDevice wpi.threadId wpi.fileHandle with
    -- `isActive` is cleared only when the device is found
    | none => .ok (wpi, p)
    | some dev =>
      .ok ({ wpi with isActive := false },
        p.setDevice wpi.threadId wpi.fileHandle dev.endDevice)

/-- `DisArm`. -/
def disArm (gettid : ℕ) (wpi : WPRegisterInfo) (p : Platform) (ans : RemoveAnswers) :
    Except Halt (WPRegisterInfo × Platform) :=
  if wpi.fileHandle = -1 then .error .abort
  else
    match p.removeDevice gettid wpi.fileHandle true ans with
    | .error h => .error h
    | .ok p => .ok ({ wpi with fileHandle := -1, isActive := false }, p)

/-- `DisableWatchpointWrapper`. -/
def disableWatchpointWrapper (cfg : WPConfig) (gettid : ℕ) (wpi : WPRegisterInfo)
    (p : Platform) (ans : RemoveAnswers) : Except Halt (WPRegisterInfo × Platform) :=
  if cfg.isWPModifyEnabled then disableWatchpoint wpi p else disArm gettid wpi p ans

/-- The length constant of `CreateWatchPoint`; other lengths end the process. -/
def hwBreakpointLen (watchLength : ℤ) : Option ℤ :=
  if watchLength = 1 then some 1
  else if watchLength = 2 then some 2
  else if watchLength = 4 then some 4
  else if watchLength = 8 then some 8
  else none

/-- The type constant of `CreateWatchPoint`: `HW_BREAKPOINT_R` is 1, `W` is 2 and
`X` is 4. -/
def hwBreakpointType : WPAccess → ℕ
  | .inst => 4
  | .read => 1
  | .write => 2
  | _ => 3

/-- What one call of `CreateWatchPoint` leaves: the slot, the platform, and
whether it ran to its end. The call itself returns nothing. -/
structure Created where
  wpi : WPRegisterInfo
  platform : Platform
  reachedEnd : Bool

/-- The stores at the end of `CreateWatchPoint`. -/
def WPRegisterInfo.arm (wpi : WPRegisterInfo) (va : UInt64) (watchLength : ℤ)
    (sampleEvent : Option Event) (rdtsc : ℤ) : WPRegisterInfo :=
  { wpi with
    isActive := true
    va := va
    wpLength := watchLength
    sampledEvent := match sampleEvent with
      | some e => some e
      | none => wpi.sampledEvent
    startTime := rdtsc }

/-- `CreateWatchPoint`. -/
def createWatchPoint (gettid : ℕ) (wpi : WPRegisterInfo) (watchLength : ℤ)
    (watchType : WPAccess) (va : UInt64) (modify : Bool) (sampleEvent : Option Event)
    (p : Platform) (ans : ArmAnswers) : Except Halt Created :=
  match hwBreakpointLen watchLength with
  | none => .error .exit
  | some bpLen =>
    let bpType := hwBreakpointType watchType
    if modify then
      -- the breakpoint is stopped before it is moved
      match disableWatchpoint wpi p with
      | .error h => .error h
      | .ok (wpi, p) =>
        match p.getDevice wpi.threadId wpi.fileHandle with
        -- without a device nothing is moved, and nobody is told
        | none => .ok ⟨wpi, p, false⟩
        | some dev =>
          match dev.updateBPAddress bpLen bpType va ans.update with
          -- a breakpoint that could not be moved stays off
          | (false, _) => .ok ⟨wpi, p, false⟩
          | (true, dev) =>
            let p := p.setDevice wpi.threadId wpi.fileHandle dev
            let p := if wpi.isActive = false then
                enableWatchpoint wpi.threadId wpi.fileHandle p
              else p
            .ok ⟨wpi.arm va watchLength sampleEvent ans.rdtsc, p, true⟩
    else
      -- a fresh device for the caller's session
      let dev := BPDevice bpLen bpType va
      match p.registerDevice gettid dev (p.sessionKey gettid) ans.register with
      | .error h => .error h
      | .ok (ret, dev, p) =>
        -- `registerDevice` failed: the slot has no handle
        if ret ≠ 0 then .ok ⟨{ wpi with fileHandle := -1 }, p, false⟩
        else
          let wpi := { wpi with fileHandle := dev.deviceFileId }
          .ok ⟨wpi.arm va watchLength sampleEvent ans.rdtsc, p, true⟩

/-- `ArmWatchPoint`. Moving a breakpoint counts as armed whatever came of it. -/
def armWatchPoint (cfg : WPConfig) (gettid : ℕ) (wpi : WPRegisterInfo) (watchLength : ℤ)
    (watchType : WPAccess) (va : UInt64) (sampleEvent : Option Event) (p : Platform)
    (ans : ArmAnswers) : Except Halt (Bool × Created) :=
  -- a slot that has a device keeps it
  if cfg.isWPModifyEnabled ∧ wpi.fileHandle ≠ -1 then
    match createWatchPoint gettid wpi watchLength watchType va true sampleEvent p ans with
    | .error h => .error h
    | .ok c => .ok (true, c)
  else
    -- disable the old watchpoint if it is active
    let disarmed := if wpi.isActive then disArm gettid wpi p ans.remove else .ok (wpi, p)
    match disarmed with
    | .error h => .error h
    | .ok (wpi, p) =>
      match createWatchPoint gettid wpi watchLength watchType va false sampleEvent p ans with
      | .error h => .error h
      | .ok c => .ok (decide (c.wpi.fileHandle ≠ -1), c)

end Kognizance
