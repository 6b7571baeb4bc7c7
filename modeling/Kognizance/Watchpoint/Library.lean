import Kognizance.Watchpoint.Victim

/-!
# The watchpoint library

The interface of `watchpoint.cpp`: `WP_ThreadInit`, `WP_Subscribe`, `OnWatchPoint`
and `WP_ThreadTerminate`, over the state they share (`World`): the slot table of
every thread, the platform, the state `L` of the logic in use, and
`oldBadAddress`.

`World.effects` is a ghost record, newest entry first: which slot was armed for
which request, which `sampledEvent` pointers `OnWatchPoint` followed, and which
events it deleted. No function reads it.

`step` takes one call, with its arguments and the answers of the system in `Op`.
-/

namespace Kognizance

open Process

/-- `WitchLogicType`. -/
inductive WitchLogicType
  | deadSpy
  | redSpy
  | loadSpy
  | dupSpy
  | falseShare
  deriving DecidableEq, Repr

/-- The tool around the library: its configuration, the logic it was built with
and that logic's callback on watchpoint triggers. -/
structure Tool (L : Type) where
  cfg : WPConfig
  logicType : WitchLogicType
  witchOnWPCallback : Event → Event → WPTriggerInfo → L → WPTriggerAction × L

/-- The arguments of `WP_Subscribe`, without `accessLen`, which it ignores. -/
structure Request where
  va : UInt64
  watchLength : ℤ
  watchType : WPAccess
  sampleEvent : Option Event

/-- An entry of the ghost record. -/
inductive Effect
  | threadInit (tid : ℕ)
  | arm (tid slot : ℕ) (r : Request)
  | deref (tid slot : ℕ) (event : Option Event)
  | delete (event : Event)

/-- `WP_ThreadData_t`, as far as it is read. -/
structure WPThreadData where
  samplePostFull : ℕ
  watchPointArray : Slots

/-- The state the library's functions share. -/
structure World (L : Type) where
  tData : ℕ → Option WPThreadData
  platform : Platform
  logic : L
  oldBadAddress : UInt64
  effects : List Effect

variable {L : Type}

namespace World

/-- Enter effects into the record, the newest first. -/
def note (w : World L) (es : List Effect) : World L := { w with effects := es ++ w.effects }

/-- `pthread_setspecific`, or a store through the thread's pointer. -/
def setTData (w : World L) (tid : ℕ) (td : Option WPThreadData) : World L :=
  { w with tData := Function.update w.tData tid td }

end World

/-! ### `WP_ThreadInit` and `WP_ThreadTerminate` -/

/-- What `WP_ThreadInit` is answered, and what the memory it gets holds. -/
structure InitAnswers where
  mallocOk : Bool
  setspecificOk : Bool
  memory : Slots

/-- The initialising loop. Fields it does not set keep what the memory held. -/
def initSlots (maxWP gettid : ℕ) (memory : Slots) : Slots := fun i =>
  if i < maxWP then
    -- `va`, `wpLength` and `sampledEvent` are not set
    { memory i with
      isActive := false
      fileHandle := -1
      startTime := 0
      samplePostFull := samplesPostFullResetVal
      threadId := gettid }
  else memory i

/-- `WP_ThreadInit`. -/
def wpThreadInit (T : Tool L) (w : World L) (gettid : ℕ) (ans : InitAnswers) :
    Outcome (World L) ℤ :=
  if !ans.mallocOk then .running (-1) w
  else if !ans.setspecificOk then .running (-1) w
  else
    let td : WPThreadData :=
      { samplePostFull := samplesPostFullResetVal
        watchPointArray := initSlots T.cfg.maxWP gettid ans.memory }
    .running 0 ((w.setTData gettid (some td)).note [.threadInit gettid])

/-- The loop of `WP_ThreadTerminate`. -/
def disArmAll (gettid : ℕ) (ans : ℕ → RemoveAnswers) :
    List ℕ → Slots → Platform → Except Halt (Slots × Platform)
  | [], slots, p => .ok (slots, p)
  | i :: is, slots, p =>
    if (slots i).fileHandle ≠ -1 then
      match disArm gettid (slots i) p (ans i) with
      | .error h => .error h
      | .ok (wpi, p) => disArmAll gettid ans is (Function.update slots i wpi) p
    else disArmAll gettid ans is slots p

/-- `WP_ThreadTerminate`. -/
def wpThreadTerminate (T : Tool L) (w : World L) (gettid : ℕ) (ans : ℕ → RemoveAnswers) :
    Outcome (World L) ℤ :=
  match w.tData gettid with
  | none => .ended .segv w
  | some td =>
    match disArmAll gettid ans (List.range T.cfg.maxWP) td.watchPointArray w.platform with
    | .error h => .ended h w
    -- the table is freed with what the slots held
    | .ok (_, p) => .running 0 ({ w with platform := p }.setTData gettid none)

/-! ### `WP_Subscribe` -/

/-- What the system answers during one subscription: the random numbers and the
calls made while arming. -/
structure SubscribeAnswers where
  lrand : ℕ → ℕ
  drand : ℕ → ℚ
  arm : ArmAnswers

/-- `IsOveralpped`. -/
def isOveralpped (maxWP : ℕ) (tData : Option WPThreadData) (va : UInt64) (wpLength : ℤ) : Bool :=
  match tData with
  | none => false
  | some td => (List.range maxWP).any fun i =>
      (td.watchPointArray i).isActive &&
        addressesOverlap (td.watchPointArray i).va (td.watchPointArray i).wpLength va wpLength

/-- `WP_Subscribe`. -/
def wpSubscribe (T : Tool L) (w : World L) (gettid : ℕ) (r : Request) (ans : SubscribeAnswers) :
    Outcome (World L) ℤ :=
  if r.watchType ≠ .inst ∧ validateWPData r.va r.watchLength = false then .running (-1) w
  -- a range that overlaps an active one is not watched twice
  else if isOveralpped T.cfg.maxWP (w.tData gettid) r.va r.watchLength then .running (-1) w
  else
    match w.tData gettid with
    | none => .running (-1) w
    | some td =>
      let v := getVictim T.cfg.maxWP T.cfg.replacementPolicy td.watchPointArray ans.lrand
        ans.drand
      let w := w.setTData gettid (some { td with watchPointArray := v.slots })
      -- the counters have been touched by now
      if v.kind = .noneAvailable then .running (-1) w
      else
        match v.location with
        -- `watchPointArray[-1]`
        | none => .ended .segv w
        | some i =>
          match armWatchPoint T.cfg gettid (v.slots i) r.watchLength r.watchType r.va
              r.sampleEvent w.platform ans.arm with
          | .error h => .ended h w
          | .ok (ok, c) =>
            let slots := Function.update v.slots i c.wpi
            let w := { w with platform := c.platform }.setTData gettid
              (some { td with watchPointArray := slots })
            let w := if c.reachedEnd then w.note [.arm gettid i r] else w
            .running (if ok then 0 else -1) w

/-! ### `OnWatchPoint` -/

/-- What is decided outside while a trigger is handled: `fixIP`, which may change
the event, and the calls made while slots are disabled. -/
structure TriggerAnswers where
  fixIP : Event → Bool × Event
  remove : ℕ → RemoveAnswers

/-- The address a trigger is matched by. -/
def Tool.addrOf (T : Tool L) (e : Event) : UInt64 :=
  if T.logicType = .dupSpy then e.ip_addr else e.data_addr

/-- The search for the slot that fired: the first active slot with the trigger's
handle and address. Gives the pointers followed, newest first, and the slot found
with its event. -/
def findFired (T : Tool L) (gettid : ℕ) (slots : Slots) (fd : ℤ) (event : Event) :
    List ℕ → List Effect → List Effect × Except Halt (Option (ℕ × Event))
  | [], seen => (seen, .ok none)
  | i :: is, seen =>
    if (slots i).isActive ∧ fd = (slots i).fileHandle then
      let seen := .deref gettid i (slots i).sampledEvent :: seen
      match (slots i).sampledEvent with
      -- the address is read through the pointer
      | none => (seen, .error .segv)
      | some e =>
        if T.addrOf e = T.addrOf event then (seen, .ok (some (i, e)))
        else findFired T gettid slots fd event is seen
    else findFired T gettid slots fd event is seen

/-- The report about a trigger that matches no active slot reads every slot. -/
def reportUnmatched (gettid : ℕ) (slots : Slots) :
    List ℕ → List Effect → List Effect × Option Halt
  | [], seen => (seen, none)
  | i :: is, seen =>
    let seen := .deref gettid i (slots i).sampledEvent :: seen
    match (slots i).sampledEvent with
    | none => (seen, some .segv)
    | some _ => reportUnmatched gettid slots is seen

/-- What `WP_DISABLE` does to its slot and `WP_DISABLE_ALL` to every slot: switch
it off if it is on, and reset its survival counter. -/
def disableSlot (cfg : WPConfig) (gettid : ℕ) (wpi : WPRegisterInfo) (p : Platform)
    (ans : RemoveAnswers) : Except Halt (WPRegisterInfo × Platform) :=
  match if wpi.isActive then disableWatchpointWrapper cfg gettid wpi p ans
    else .ok (wpi, p) with
  | .error h => .error h
  | .ok (wpi, p) => .ok ({ wpi with samplePostFull := samplesPostFullResetVal }, p)

/-- The loop of `WP_DISABLE_ALL`. -/
def disableAllSlots (cfg : WPConfig) (gettid : ℕ) (ans : ℕ → RemoveAnswers) :
    List ℕ → Slots → Platform → Except Halt (Slots × Platform)
  | [], slots, p => .ok (slots, p)
  | i :: is, slots, p =>
    match disableSlot cfg gettid (slots i) p (ans i) with
    | .error h => .error h
    | .ok (wpi, p) => disableAllSlots cfg gettid ans is (Function.update slots i wpi) p

/-- The switch over the action of the logic, for the slot at `location`. -/
def applyAction (cfg : WPConfig) (gettid : ℕ) (retVal : WPTriggerAction) (location : ℕ)
    (td : WPThreadData) (p : Platform) (ans : ℕ → RemoveAnswers) :
    Except Halt (WPThreadData × Platform) :=
  let wpi := td.watchPointArray location
  match retVal with
  | .disable =>
    match disableSlot cfg gettid wpi p (ans location) with
    | .error h => .error h
    | .ok (wpi, p) =>
      .ok ({ samplePostFull := samplesPostFullResetVal
             watchPointArray := Function.update td.watchPointArray location wpi }, p)
  | .disableAll =>
    match disableAllSlots cfg gettid ans (List.range cfg.maxWP) td.watchPointArray p with
    | .error h => .error h
    | .ok (slots, p) =>
      .ok ({ samplePostFull := samplesPostFullResetVal, watchPointArray := slots }, p)
  | .alreadyDisabled =>
    if wpi.isActive then .error .abort
    else
      let wpi := { wpi with samplePostFull := samplesPostFullResetVal }
      .ok ({ samplePostFull := samplesPostFullResetVal
             watchPointArray := Function.update td.watchPointArray location wpi }, p)
  | .retain =>
    if wpi.isActive then .ok (td, p)
    else
      .ok ({ td with watchPointArray :=
              Function.update td.watchPointArray location { wpi with isActive := true } },
        enableWatchpoint gettid wpi.fileHandle p)

/-- The decision about a trigger of the slot `wpi`, which holds `sample`: the
action, the logic's state, and whether the logic was asked. -/
def decideAction (T : Tool L) (logic : L) (wpi : WPRegisterInfo) (sample event : Event)
    (fixIP : Event → Bool × Event) : WPTriggerAction × L × Bool :=
  if event.h_ip_addr = 0 then (.disable, logic, false)
  else
    let fixed := if event.isFixed then (true, event) else fixIP event
    if !fixed.1 then (.disable, logic, false)
    else
      let called := T.witchOnWPCallback fixed.2 sample ⟨wpi.va, wpi.wpLength⟩ logic
      (called.1, called.2, true)

/-- The part of `OnWatchPoint` after the slot has been found. -/
def handleFired (T : Tool L) (w : World L) (gettid : ℕ) (td : WPThreadData) (location : ℕ)
    (sample event : Event) (ans : TriggerAnswers) : Outcome (World L) ℤ :=
  let d := decideAction T w.logic (td.watchPointArray location) sample event ans.fixIP
  -- the callback follows `wpi->sampledEvent` once more
  let followed := if d.2.2 then [.deref gettid location (some sample)] else []
  match applyAction T.cfg gettid d.1 location td w.platform ans.remove with
  | .error h => .ended h ({ w with logic := d.2.1 }.note followed)
  | .ok (td, p) =>
    -- a retained watchpoint returns before the cleanup
    let deleted := if d.1 = .retain then [] else [.delete sample, .delete event]
    let w := { w with platform := p, logic := d.2.1 }.setTData gettid (some td)
    .running 0 (w.note (deleted ++ followed))

/-- `OnWatchPoint`. -/
def onWatchPoint (T : Tool L) (w : World L) (gettid : ℕ) (fd : ℤ) (event : Event)
    (ans : TriggerAnswers) : Outcome (World L) ℤ :=
  match w.tData gettid with
  | none => .running 0 (w.note [.delete event])
  | some td =>
    -- the message before the search prints the address of slot 0's event
    let w := w.note [.deref gettid 0 (td.watchPointArray 0).sampledEvent]
    if (td.watchPointArray 0).sampledEvent.isNone then .ended .segv w
    else
      match findFired T gettid td.watchPointArray fd event (List.range T.cfg.maxWP) [] with
      | (seen, .error h) => .ended h (w.note seen)
      | (seen, .ok (some (location, sample))) =>
        handleFired T (w.note seen) gettid td location sample event ans
      -- a trigger that no slot expects ends the tool
      | (seen, .ok none) =>
        let w := w.note seen
        -- the report is printed once for an address
        if w.oldBadAddress ≠ T.addrOf event then
          match reportUnmatched gettid td.watchPointArray (List.range T.cfg.maxWP) [] with
          | (seen, some h) => .ended h (w.note seen)
          | (seen, none) =>
            .ended .exit { w.note seen with oldBadAddress := T.addrOf event }
        else .ended .exit w

/-! ### Runs -/

/-- One call of the library, or of the platform around it. -/
inductive Op
  | threadInit (tid : ℕ) (ans : InitAnswers)
  | subscribe (tid : ℕ) (r : Request) (ans : SubscribeAnswers)
  | onWatchPoint (tid : ℕ) (fd : ℤ) (event : Event) (ans : TriggerAnswers)
  | threadTerminate (tid : ℕ) (ans : ℕ → RemoveAnswers)
  /-- `pause_all_devices` and `pause_devices_by_session` -/
  | pause
  /-- `resume_all_devices` and `resume_devices_by_session` -/
  | resume
  /-- other code changes the platform's devices in any way -/
  | devices (p : Platform)

/-- One step of a run. Pausing and resuming reach the kernel and the hypervisor,
not the state kept here. -/
def step (T : Tool L) (w : World L) : Op → Outcome (World L) ℤ
  | .threadInit tid ans => wpThreadInit T w tid ans
  | .subscribe tid r ans => wpSubscribe T w tid r ans
  | .onWatchPoint tid fd event ans => onWatchPoint T w tid fd event ans
  | .threadTerminate tid ans => wpThreadTerminate T w tid ans
  | .pause => .running 0 w
  | .resume => .running 0 w
  | .devices p => .running 0 { w with platform := p }

/-- The state before any thread has called `WP_ThreadInit`. -/
def World.fresh (p : Platform) (logic : L) : World L where
  tData := fun _ => none
  platform := p
  logic := logic
  oldBadAddress := 0
  effects := []

/-! ### A small configuration, for examples -/

/-- An eight-byte store to `addr` by the instruction at `0x40`. -/
def Event.storeAt (self : ℕ) (addr : UInt64) : Event where
  self := self
  eventId := self
  eventContext_agent := []
  ip_addr := 0x40
  data_addr := addr
  h_ip_addr := 0x40
  h_data_addr := addr
  cpu := 0
  valueAtEvent := fun _ => 0
  inst := 0
  event_time := 0
  accessType := .store
  accessLength := 8
  floatType := .elemTypeUnknown
  isFixed := true
  fixedIP := 0x40

/-- A request for the eight bytes at `addr`. -/
def Request.storeAt (self : ℕ) (addr : UInt64) : Request where
  va := addr
  watchLength := 8
  watchType := .rw
  sampleEvent := some (Event.storeAt self addr)

/-- Every system call succeeds; `perf_event_open` returns `fd`. -/
def SubscribeAnswers.success (fd : ℤ) : SubscribeAnswers where
  lrand := fun _ => 0
  drand := fun _ => 0
  arm :=
    { remove := ⟨true, true⟩
      register := ⟨fd, true, true, true, true, true, true⟩
      update := ⟨true, true⟩
      rdtsc := 0 }

/-- Nothing goes wrong while a trigger is handled. -/
def TriggerAnswers.success : TriggerAnswers where
  fixIP := fun e => (true, e)
  remove := fun _ => ⟨true, true⟩

/-- A slot as `malloc` may leave it. -/
def WPRegisterInfo.blank (ev : Option Event) : WPRegisterInfo where
  va := 0
  wpLength := 0
  startTime := 0
  fileHandle := 0
  threadId := 0
  isActive := false
  sampledEvent := ev
  samplePostFull := 0

/-- `WP_ThreadInit` gets a table whose event pointers are all `ev`. -/
def InitAnswers.success (ev : Option Event) : InitAnswers where
  mallocOk := true
  setspecificOk := true
  memory := fun _ => .blank ev

/-- A tool with `maxWP` slots whose logic always answers `a`. -/
def Tool.always (isWPModifyEnabled : Bool) (maxWP : ℕ) (a : WPTriggerAction) : Tool Unit where
  cfg := ⟨isWPModifyEnabled, .auto, maxWP⟩
  logicType := .loadSpy
  witchOnWPCallback := fun _ _ _ _ => (a, ())

end Kognizance
