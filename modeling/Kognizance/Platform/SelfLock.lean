import Kognizance.Lib.Critical
import Kognizance.Platform.Sessions
import Kognizance.Platform.SignalUnsafe

/-!
# The device mutex on one thread

The operations of one thread on the platform, step by step: `devicemap_mtx` is taken
and given back by steps of their own, and a device that is enabled may signal the
thread between any two of them. The handler then runs in the place of the interrupted
code, which goes on only when the handler has returned; the mutex is not recursive, so
a handler that asks for it while the interrupted code holds it waits for ever.

* `PlatformOp.code` are the steps of an operation, `effect` what one of them does;
  `removeDevice_refines` puts those of `remove_device` together again.
* `LockInv` says that whether a frame holds the mutex can be read off its code.
* `handler_never_waits`: no handler asks for the mutex while the interrupted code holds
  it, as long as no signal arrives inside a critical section; `signal_inside_waits`
  says what happens when one does, and `stuck_of_run` that it is the end.
-/

namespace Kognizance

open Process Critical

/-- An operation of a thread on the platform. -/
inductive PlatformOp
  /-- `disabled` is what `registerThisDevice` sets `pe_attr.disabled` to. -/
  | registerDevice (dev : Device) (sId : ℤ) (disabled : Bool) (ans : RegisterAnswers)
  | getDevice (threadId : ℕ) (fd : ℤ)
  | removeDeviceBySession (sessionId : ℤ) (ans : ℤ → RemoveAnswers)
  | disArm (fd : ℤ) (ans : RemoveAnswers)
  | startDevice (k : ℕ × ℤ)
  | endDevice (k : ℕ × ℤ)
  | pauseAllDevices
  | resumeAllDevices

/-- One step of a thread. -/
inductive PlatformStep
  | lock
  | unlock
  | call (op : PlatformOp)
  /-- `registerDevice` up to the maps. -/
  | openDevice (dev : Device) (sId : ℤ) (disabled : Bool) (ans : RegisterAnswers)
  | insertDevice (dev : Device)
  | insertSession (fd sId : ℤ)
  | find (threadId : ℕ) (fd : ℤ)
  | equalRange (sessionId : ℤ) (ans : ℤ → RemoveAnswers)
  | eraseSession (sessionId : ℤ)
  | removeDevice (fd : ℤ) (removeSessionMap : Bool) (ans : RemoveAnswers)
  | startDevice (k : ℕ × ℤ)
  | endDevice (k : ℕ × ℤ)
  | unRegisterDevice (fd : ℤ) (ans : RemoveAnswers)
  | eraseDevice (fd : ℤ)
  | disableAll
  | enableAll
  /-- The rest of the handler, from the test of `signalUnsafe` on. -/
  | testUnsafe (fd : ℤ) (body : List PlatformOp)
  | testInHandler (fd : ℤ) (body : List PlatformOp)
  /-- `dev_signal_handler`, if a device was found. -/
  | dispatch (body : List PlatformOp)
  | exitingSignalHandler

/-- The code of an operation. -/
def PlatformOp.code : PlatformOp → List PlatformStep
  | .registerDevice dev sId disabled ans => [.openDevice dev sId disabled ans]
  | .getDevice threadId fd => [.lock, .find threadId fd, .unlock]
  | .removeDeviceBySession sessionId ans =>
    [.lock, .equalRange sessionId ans, .eraseSession sessionId, .unlock]
  | .disArm fd ans => [.lock, .removeDevice fd true ans, .unlock]
  | .startDevice k => [.startDevice k]
  | .endDevice k => [.endDevice k]
  | .pauseAllDevices => [.lock, .disableAll, .unlock]
  | .resumeAllDevices => [.lock, .enableAll, .unlock]

/-- What a step is to `devicemap_mtx`. -/
def PlatformStep.kind : PlatformStep → Kind
  | .lock => .lock
  | .unlock => .unlock
  | .call _ => .call
  | .openDevice .. => .call
  | .testUnsafe .. => .call
  | .testInHandler .. => .call
  | .dispatch _ => .call
  | _ => .other

/-- The step tests one of the handler's flags. -/
def PlatformStep.testsFlags : PlatformStep → Bool
  | .testUnsafe .. => true
  | .testInHandler .. => true
  | _ => false

/-- The two places a thread can hold the mutex from. -/
inductive Frame
  | interrupted
  | handler
  deriving DecidableEq, Repr

/-- A thread, its devices and the mutex. -/
structure LockThread where
  platform : Platform
  /-- The handles whose counter runs. -/
  enabled : ℤ → Bool
  locals : ThreadLocals
  /-- What the last `get_device` returned. -/
  found : Option Device
  /-- Who holds `devicemap_mtx`. -/
  mtx : Option Frame
  /-- What is left of the thread's own operation. -/
  code : List PlatformStep
  /-- What is left of the handler, if one runs. -/
  handler : Option (List PlatformStep)

/-- What happens next on the thread. -/
inductive LockInput
  | start (op : PlatformOp)
  | advance
  /-- `body` are the platform operations of the device's own handler. -/
  | signal (fd : ℤ) (body : List PlatformOp)
  | callback (c : MonitorCallback)

namespace LockThread

def init (p : Platform) : LockThread where
  platform := p
  enabled := fun _ => false
  locals := .init
  found := none
  mtx := none
  code := []
  handler := none

/-- `resume_all_devices`, unless the agent does it on a notification. -/
def resumeCode (requestWillBeNotified : Bool) : List PlatformStep :=
  if requestWillBeNotified then [] else [.call .resumeAllDevices]

/-- `generic_dev_signal_handler`. -/
def handlerCode (requestWillBeNotified : Bool) (fd : ℤ) (body : List PlatformOp) :
    List PlatformStep :=
  (if requestWillBeNotified then [] else [.call .pauseAllDevices]) ++ [.testUnsafe fd body]

/-- The device is marked and its counter is stopped. -/
def stop (st : LockThread) (k : ℕ × ℤ) : LockThread :=
  match st.platform.getDevice k.1 k.2 with
  | none => st
  | some dev => { st with
      platform := st.platform.setDevice k.1 k.2 dev.endDevice
      enabled := Function.update st.enabled k.2 false }

/-- What a step does apart from the mutex, and what is to be done in its place. -/
def effect (gettid : ℕ) (requestWillBeNotified : Bool) (st : LockThread) :
    PlatformStep → Except Halt (LockThread × List PlatformStep)
  | .lock => .ok (st, [])
  | .unlock => .ok (st, [])
  | .call op => .ok (st, op.code)
  | .openDevice dev sId disabled ans =>
    match st.platform.openDevice dev sId ans with
    | .error h => .error h
    | .ok (ret, dev, p) =>
      if ret = 0 then
        -- the counter runs before the device is in the map
        .ok ({ st with
            platform := p
            enabled := Function.update st.enabled dev.deviceFileId (!disabled) },
          [.lock, .insertDevice dev, .unlock,
            .lock, .insertSession dev.deviceFileId sId, .unlock])
      else .ok ({ st with platform := p }, [])
  | .insertDevice dev =>
    .ok ({ st with platform := st.platform.addNewDevice gettid dev.deviceFileId dev }, [])
  | .insertSession fd sId =>
    .ok ({ st with platform := st.platform.addNewDeviceToSession fd sId }, [])
  | .find threadId fd => .ok ({ st with found := st.platform.getDevice threadId fd }, [])
  | .equalRange sessionId ans =>
    .ok (st, (st.platform.sessionDevices sessionId).map fun fd => .removeDevice fd false (ans fd))
  | .eraseSession sessionId =>
    let left := st.platform.deviceSessionMultiMap.filter fun sd => sd.1 ≠ sessionId
    .ok ({ st with platform := { st.platform with deviceSessionMultiMap := left } }, [])
  | .removeDevice fd removeSessionMap ans =>
    match st.platform.getDevice gettid fd with
    | none => .ok (st, [])
    | some dev =>
      -- the pair goes first, then the calls on the device, then its entry
      let p := if removeSessionMap then
          { st.platform with deviceSessionMultiMap :=
              st.platform.deviceSessionMultiMap.erase (dev.sessionId, fd) }
        else st.platform
      .ok ({ st with platform := p },
        [.endDevice (gettid, fd), .unRegisterDevice fd ans, .eraseDevice fd])
  | .startDevice k =>
    match st.platform.getDevice k.1 k.2 with
    | none => .ok (st, [])
    | some dev => .ok ({ st with
        platform := st.platform.setDevice k.1 k.2 dev.startDevice
        enabled := Function.update st.enabled k.2 true }, [])
  | .endDevice k => .ok (st.stop k, [])
  | .unRegisterDevice fd ans =>
    match st.platform.unRegisterDevice fd ans with
    | .error h => .error h
    | .ok p => .ok ({ st with platform := p, enabled := Function.update st.enabled fd false }, [])
  | .eraseDevice fd =>
    let left := st.platform.deviceMap.erase (gettid, fd)
    .ok ({ st with platform := { st.platform with deviceMap := left } }, [])
  | .disableAll =>
    let paused := st.platform.pauseAllDevices.map Prod.snd
    .ok ({ st with enabled := fun fd => st.enabled fd && fd ∉ paused }, [])
  | .enableAll =>
    let resumed := st.platform.resumeAllDevices.map Prod.snd
    .ok ({ st with enabled := fun fd => st.enabled fd || fd ∈ resumed }, [])
  -- the flags are only tested behind the pause
  | .testUnsafe fd body =>
    if st.locals.signalUnsafe then .ok (st, resumeCode requestWillBeNotified)
    else .ok (st, [.testInHandler fd body])
  | .testInHandler fd body =>
    if st.locals.inSignalHandler then .ok (st, resumeCode requestWillBeNotified)
    else .ok ({ st with locals := { st.locals with inSignalHandler := true } },
      [.call (.getDevice gettid fd), .dispatch body])
  | .dispatch body =>
    .ok (st, (if st.found.isSome then body.map .call else []) ++
      .exitingSignalHandler :: resumeCode requestWillBeNotified)
  | .exitingSignalHandler =>
    .ok ({ st with locals := { st.locals with inSignalHandler := false } }, [])

/-- Which code runs. -/
def frame (st : LockThread) : Frame := if st.handler.isSome then .handler else .interrupted

/-- The code of the frame that runs. -/
def running (st : LockThread) : List PlatformStep := st.handler.getD st.code

def setRunning (st : LockThread) (code : List PlatformStep) : LockThread :=
  match st.handler with
  | none => { st with code := code }
  | some _ => { st with handler := some code }

/-- The next step of the thread. -/
def advance (gettid : ℕ) (requestWillBeNotified : Bool) (st : LockThread) :
    Outcome LockThread Unit :=
  match st.running with
  -- the handler returns to the code it interrupted
  | [] => .running () { st with handler := none }
  | .lock :: rest =>
    match st.mtx with
    | none => .running () { st.setRunning rest with mtx := some st.frame }
    | some _ => .running () st
  | .unlock :: rest => .running () { st.setRunning rest with mtx := none }
  | s :: rest =>
    match st.effect gettid requestWillBeNotified s with
    | .error h => .ended h st
    | .ok (st', more) => .running () (st'.setRunning (more ++ rest))

/-- The signal of this handle is delivered: its counter runs and no handler does. -/
def Delivers (st : LockThread) (fd : ℤ) : Prop := st.handler = none ∧ st.enabled fd = true

instance (st : LockThread) (fd : ℤ) : Decidable (st.Delivers fd) :=
  inferInstanceAs (Decidable (_ ∧ _))

def step (gettid : ℕ) (requestWillBeNotified : Bool) (st : LockThread) :
    LockInput → Outcome LockThread Unit
  | .start op =>
    if st.handler = none ∧ st.code = [] then .running () { st with code := [.call op] }
    else .running () st
  | .advance => st.advance gettid requestWillBeNotified
  | .signal fd body =>
    if st.Delivers fd then
      .running () { st with handler := some (handlerCode requestWillBeNotified fd body) }
    else .running () st
  | .callback c =>
    -- the allocator is not called between a flag and its test
    if st.running.head?.any PlatformStep.testsFlags then .running () st
    else .running () { st with locals := monitorCallback st.locals c }

variable {gettid : ℕ} {rwbn : Bool} {st st' : LockThread} {code hc : List PlatformStep}

theorem running_of_none (h : st.handler = none) : st.running = st.code := by
  rw [running, h, Option.getD_none]

theorem running_of_some (h : st.handler = some hc) : st.running = hc := by
  rw [running, h, Option.getD_some]

theorem setRunning_of_none (h : st.handler = none) :
    st.setRunning code = { st with code := code } := by
  rw [setRunning, h]

theorem setRunning_of_some (h : st.handler = some hc) :
    st.setRunning code = { st with handler := some code } := by
  rw [setRunning, h]

theorem frame_of_none (h : st.handler = none) : st.frame = .interrupted := by
  rw [frame, h]
  rfl

theorem frame_of_some (h : st.handler = some hc) : st.frame = .handler := by
  rw [frame, h]
  rfl

/-- **Every way a thread can go on.** -/
theorem advance_cases (h : st.advance gettid rwbn = .running () st') :
    (st.running = [] ∧ st' = { st with handler := none }) ∨
    (∃ rest, st.running = .lock :: rest ∧ st.mtx = none ∧
      st' = { st.setRunning rest with mtx := some st.frame }) ∨
    (∃ rest, st.running = .lock :: rest ∧ st.mtx ≠ none ∧ st' = st) ∨
    (∃ rest, st.running = .unlock :: rest ∧ st' = { st.setRunning rest with mtx := none }) ∨
    ∃ s rest t more, st.running = s :: rest ∧ s.kind ≠ .lock ∧ s.kind ≠ .unlock ∧
      st.effect gettid rwbn s = .ok (t, more) ∧ st' = t.setRunning (more ++ rest) := by
  -- the next step is to lock, to unlock, or to do something with no mutex in it
  unfold advance at h
  split at h
  · next hrun => exact Or.inl ⟨hrun, (Outcome.running.inj h).2.symm⟩
  · next rest hrun =>
    cases hm : st.mtx with
    | none =>
      rw [hm] at h
      exact Or.inr (Or.inl ⟨rest, hrun, rfl, (Outcome.running.inj h).2.symm⟩)
    | some f =>
      rw [hm] at h
      exact Or.inr (Or.inr (Or.inl ⟨rest, hrun, by simp, (Outcome.running.inj h).2.symm⟩))
  · next rest hrun =>
    exact Or.inr (Or.inr (Or.inr (Or.inl ⟨rest, hrun, (Outcome.running.inj h).2.symm⟩)))
  · next s rest hlock hunlock hrun =>
    cases he : st.effect gettid rwbn s with
    | error e => simp [he] at h
    | ok r =>
      rw [he] at h
      refine Or.inr (Or.inr (Or.inr (Or.inr
        ⟨s, rest, r.1, r.2, hrun, ?_, ?_, he, (Outcome.running.inj h).2.symm⟩)))
      · cases s <;> simp_all [PlatformStep.kind]
      · cases s <;> simp_all [PlatformStep.kind]

/-! ### The steps of `remove_device` are the whole of it -/

theorem exec_advance {t : LockThread} (h : st.advance gettid rwbn = .running () t) (n : ℕ) :
    exec (step gettid rwbn) st (List.replicate (n + 1) .advance) =
      exec (step gettid rwbn) t (List.replicate n .advance) :=
  exec_cons_running _ h

/-- **The steps make up `remove_device`.** Run to their end without a signal, they
leave the platform that `Platform.removeDevice` leaves. -/
theorem removeDevice_refines {fd : ℤ} {b : Bool} {ans : RemoveAnswers} {p : Platform}
    {rest : List PlatformStep} (hh : st.handler = none)
    (hcode : st.code = .removeDevice fd b ans :: rest)
    (hr : st.platform.removeDevice gettid fd b ans = .ok p) :
    ∃ n st', exec (step gettid rwbn) st (List.replicate n .advance) = .running () st' ∧
      st'.platform = p ∧ st'.code = rest ∧ st'.mtx = st.mtx := by
  obtain ⟨platform, enabled, locals, found, mtx, code, handler⟩ := st
  obtain rfl : handler = none := hh
  obtain rfl : code = .removeDevice fd b ans :: rest := hcode
  cases hdev : platform.getDevice gettid fd with
  | none =>
    obtain rfl := Platform.removeDevice_of_none hdev hr
    refine ⟨1, ⟨p, enabled, locals, found, mtx, rest, none⟩, ?_, rfl, rfl, rfl⟩
    rw [exec_advance (t := ⟨p, enabled, locals, found, mtx, rest, none⟩)]
    · rfl
    · simp [advance, running, effect, setRunning, hdev]
  | some dev =>
    -- marking the device finds it whatever pair has gone
    have hfound : ∀ m, Platform.getDevice { platform with deviceSessionMultiMap := m } gettid fd
        = some dev := fun _ => hdev
    unfold Platform.removeDevice at hr
    rw [hdev] at hr
    rcases ans with ⟨munmap, close⟩
    cases munmap with
    | false => cases hr
    | true =>
      cases close with
      | false => cases hr
      | true =>
        obtain rfl := Except.ok.inj hr
        refine ⟨4, ⟨_, Function.update (Function.update enabled fd false) fd false, locals, found,
          mtx, rest, none⟩, ?_, rfl, rfl, rfl⟩
        cases b
        · simp [exec, step, advance, running, effect, setRunning, stop, hdev,
            Platform.unRegisterDevice]
        · simp [exec, step, advance, running, effect, setRunning, stop, hdev, hfound,
            Platform.unRegisterDevice]

/-! ### Which code holds the mutex -/

theorem code_bracketed (op : PlatformOp) : Bracketed PlatformStep.kind false op.code := by
  cases op <;> simp [PlatformOp.code, Bracketed, PlatformStep.kind]

theorem resumeCode_bracketed : Bracketed PlatformStep.kind false (resumeCode rwbn) := by
  cases rwbn <;> simp [resumeCode, Bracketed, PlatformStep.kind]

theorem handlerCode_bracketed (fd : ℤ) (body : List PlatformOp) :
    Bracketed PlatformStep.kind false (handlerCode rwbn fd body) := by
  cases rwbn <;> simp [handlerCode, Bracketed, PlatformStep.kind]

/-- **One step** leaves the mutex and the two codes alone, and what it puts in its
place suits its kind. -/
theorem effect_spec {s : PlatformStep} {more : List PlatformStep}
    (h : st.effect gettid rwbn s = .ok (st', more)) :
    Expands PlatformStep.kind s.kind more ∧
      st'.mtx = st.mtx ∧ st'.code = st.code ∧ st'.handler = st.handler := by
  -- only a call and the tests of the handler put code with sections in their place
  cases s with
  | call op =>
    obtain ⟨rfl, rfl⟩ := Prod.mk.inj (Except.ok.inj h)
    exact ⟨code_bracketed op, rfl, rfl, rfl⟩
  | openDevice dev sId disabled ans =>
    dsimp only [effect] at h
    split at h
    · cases h
    · split_ifs at h <;> obtain ⟨rfl, rfl⟩ := Prod.mk.inj (Except.ok.inj h) <;>
        exact ⟨by simp [Expands, PlatformStep.kind, Bracketed], rfl, rfl, rfl⟩
  | equalRange sessionId ans =>
    obtain ⟨rfl, rfl⟩ := Prod.mk.inj (Except.ok.inj h)
    refine ⟨fun a ha => ?_, rfl, rfl, rfl⟩
    obtain ⟨fd, -, rfl⟩ := List.mem_map.mp ha
    rfl
  | removeDevice fd removeSessionMap ans =>
    dsimp only [effect] at h
    split at h <;> obtain ⟨rfl, rfl⟩ := Prod.mk.inj (Except.ok.inj h) <;>
      exact ⟨by simp [Expands, PlatformStep.kind], rfl, rfl, rfl⟩
  | startDevice k =>
    dsimp only [effect] at h
    split at h <;> obtain ⟨rfl, rfl⟩ := Prod.mk.inj (Except.ok.inj h) <;>
      exact ⟨by simp [Expands, PlatformStep.kind], rfl, rfl, rfl⟩
  | endDevice k =>
    obtain ⟨rfl, rfl⟩ := Prod.mk.inj (Except.ok.inj h)
    unfold stop
    split <;> exact ⟨by simp [Expands, PlatformStep.kind], rfl, rfl, rfl⟩
  | unRegisterDevice fd ans =>
    dsimp only [effect] at h
    split at h
    · cases h
    · obtain ⟨rfl, rfl⟩ := Prod.mk.inj (Except.ok.inj h)
      exact ⟨by simp [Expands, PlatformStep.kind], rfl, rfl, rfl⟩
  | testUnsafe fd body =>
    dsimp only [effect] at h
    split_ifs at h
    · obtain ⟨rfl, rfl⟩ := Prod.mk.inj (Except.ok.inj h)
      exact ⟨resumeCode_bracketed, rfl, rfl, rfl⟩
    · obtain ⟨rfl, rfl⟩ := Prod.mk.inj (Except.ok.inj h)
      exact ⟨by simp [Expands, PlatformStep.kind, Bracketed], rfl, rfl, rfl⟩
  | testInHandler fd body =>
    dsimp only [effect] at h
    split_ifs at h
    · obtain ⟨rfl, rfl⟩ := Prod.mk.inj (Except.ok.inj h)
      exact ⟨resumeCode_bracketed, rfl, rfl, rfl⟩
    · obtain ⟨rfl, rfl⟩ := Prod.mk.inj (Except.ok.inj h)
      exact ⟨by simp [Expands, PlatformStep.kind, Bracketed], rfl, rfl, rfl⟩
  | dispatch body =>
    obtain ⟨rfl, rfl⟩ := Prod.mk.inj (Except.ok.inj h)
    refine ⟨Bracketed.append (bracketed_calls fun a ha => ?_) ?_, rfl, rfl, rfl⟩
    · split_ifs at ha
      · obtain ⟨op, -, rfl⟩ := List.mem_map.mp ha
        rfl
      · cases ha
    · exact (bracketed_other rfl).mpr resumeCode_bracketed
  | _ =>
    obtain ⟨rfl, rfl⟩ := Prod.mk.inj (Except.ok.inj h)
    exact ⟨by simp [Expands, PlatformStep.kind], rfl, rfl, rfl⟩

/-- What is left of a handler that one of its flags turns away before it has asked for
the mutex. -/
def TurnedAway (requestWillBeNotified : Bool) (tl : ThreadLocals) (code : List PlatformStep) :
    Prop :=
  requestWillBeNotified = true ∧
    (code = [] ∨ (∃ fd body, code = [.testUnsafe fd body] ∧ tl ≠ .init) ∨
      ∃ fd body, code = [.testInHandler fd body] ∧ tl.inSignalHandler = true)

/-- Whether a frame holds the mutex can be read off its code, and a handler that runs
over code that holds it is one that is turned away. -/
structure LockInv (requestWillBeNotified : Bool) (st : LockThread) : Prop where
  code : Bracketed PlatformStep.kind (decide (st.mtx = some .interrupted)) st.code
  idle : st.handler = none → st.mtx ≠ some .handler
  handler : ∀ code, st.handler = some code → st.mtx ≠ some .interrupted →
    Bracketed PlatformStep.kind (decide (st.mtx = some .handler)) code
  away : ∀ code, st.handler = some code → st.mtx = some .interrupted →
    TurnedAway requestWillBeNotified st.locals code

namespace LockInv

theorem init (p : Platform) : LockInv rwbn (init p) where
  code := rfl
  idle := fun _ h => by cases h
  handler := fun _ h => by cases h
  away := fun _ h => by cases h

/-- The place of the interrupted code tells whether it holds the mutex. -/
theorem inside_iff (h : LockInv rwbn st) :
    inside PlatformStep.kind st.code = true ↔ st.mtx = some .interrupted := by
  rw [h.code.inside_eq, decide_eq_true_iff]

/-- With no handler only the code itself can hold the mutex. -/
theorem of_idle (hh : st.handler = none)
    (hcode : Bracketed PlatformStep.kind (decide (st.mtx = some .interrupted)) st.code)
    (hm : st.mtx ≠ some .handler) : LockInv rwbn st where
  code := hcode
  idle := fun _ => hm
  handler := fun c hc => absurd (hh.symm.trans hc) (by simp)
  away := fun c hc => absurd (hh.symm.trans hc) (by simp)

/-- The interrupted code goes on, with no handler in its place. -/
theorem advance_code (h : LockInv rwbn st) (hh : st.handler = none)
    (hs : st.advance gettid rwbn = .running () st') : LockInv rwbn st' := by
  have hrunning := running_of_none hh
  have hfree := h.idle hh
  have hcode := h.code
  rcases advance_cases hs with ⟨-, rfl⟩ | ⟨rest, hrun, hm, rfl⟩ | ⟨rest, hrun, hm, rfl⟩ |
    ⟨rest, hrun, rfl⟩ | ⟨s, rest, t, more, hrun, hlock, hunlock, he, rfl⟩
  · exact of_idle rfl hcode hfree
  · -- the mutex is taken
    rw [← hrunning, hrun, bracketed_lock rfl] at hcode
    rw [setRunning_of_none hh, frame_of_none hh]
    exact of_idle hh (by simpa using hcode.2) (by simp)
  · exact h
  · -- it is given back
    rw [← hrunning, hrun, bracketed_unlock rfl] at hcode
    rw [setRunning_of_none hh]
    exact of_idle hh (by simpa using hcode.2) (by simp)
  · obtain ⟨hexp, hmtx, -, hhandler⟩ := effect_spec he
    rw [← hrunning, hrun, ← hmtx] at hcode
    have ht : t.handler = none := hhandler.trans hh
    rw [setRunning_of_none ht]
    exact of_idle ht (hcode.expand hlock hunlock hexp) (hmtx ▸ hfree)

/-- A handler over code that holds the mutex goes on to be turned away. -/
theorem advance_away (h : LockInv rwbn st) (hh : st.handler = some hc)
    (hm : st.mtx = some .interrupted) (hs : st.advance gettid rwbn = .running () st') :
    LockInv rwbn st' := by
  have hrunning := running_of_some hh
  -- the handler that is left has no step on the mutex
  have hkeep : ∀ (tl : ThreadLocals) code, TurnedAway rwbn tl code →
      LockInv rwbn { st with locals := tl, handler := some code } := by
    intro tl code haway
    refine ⟨h.code, fun hn => (nomatch hn), fun c _ hne => absurd hm hne, fun c hc _ => ?_⟩
    obtain rfl := Option.some.inj hc
    exact haway
  obtain ⟨rfl, rfl | ⟨fd, body, rfl, htl⟩ | ⟨fd, body, rfl, htl⟩⟩ := h.away hc hh hm
  · unfold advance at hs
    rw [hrunning] at hs
    obtain rfl := (Outcome.running.inj hs).2
    exact of_idle rfl h.code (by simp [hm])
  · unfold advance at hs
    rw [hrunning] at hs
    dsimp only [effect] at hs
    cases hu : st.locals.signalUnsafe with
    | true =>
      rw [if_pos hu] at hs
      obtain rfl := (Outcome.running.inj hs).2
      rw [setRunning_of_some hh]
      exact hkeep st.locals [] ⟨rfl, Or.inl rfl⟩
    | false =>
      rw [if_neg (by simp [hu])] at hs
      obtain rfl := (Outcome.running.inj hs).2
      rw [setRunning_of_some hh]
      refine hkeep st.locals _ ⟨rfl, Or.inr (Or.inr ⟨fd, body, rfl, ?_⟩)⟩
      -- the other flag is the one that is set
      cases hl : st.locals with
      | mk u i =>
        rw [hl] at hu htl
        obtain rfl : u = false := hu
        cases i with
        | true => rfl
        | false => exact absurd rfl htl
  · unfold advance at hs
    rw [hrunning] at hs
    dsimp only [effect] at hs
    rw [if_pos htl] at hs
    obtain rfl := (Outcome.running.inj hs).2
    rw [setRunning_of_some hh]
    exact hkeep st.locals [] ⟨rfl, Or.inl rfl⟩

/-- A handler over code that does not hold the mutex. -/
theorem of_handler (hh : st.handler = some hc)
    (hcode : Bracketed PlatformStep.kind false st.code) (hm : st.mtx ≠ some .interrupted)
    (hhc : Bracketed PlatformStep.kind (decide (st.mtx = some .handler)) hc) :
    LockInv rwbn st where
  code := by rwa [decide_eq_false hm]
  idle := fun hn => absurd (hh.symm.trans hn) (by simp)
  handler := fun c hc' _ => by
    obtain rfl := Option.some.inj (hh.symm.trans hc')
    exact hhc
  away := fun _ _ h => absurd h hm

/-- A handler over code that does not hold the mutex goes on. -/
theorem advance_handler (h : LockInv rwbn st) (hh : st.handler = some hc)
    (hm : st.mtx ≠ some .interrupted) (hs : st.advance gettid rwbn = .running () st') :
    LockInv rwbn st' := by
  have hrunning := running_of_some hh
  have hcode : Bracketed PlatformStep.kind false st.code := by
    have hcode := h.code
    rwa [decide_eq_false hm] at hcode
  have hhc := h.handler hc hh hm
  rcases advance_cases hs with ⟨hrun, rfl⟩ | ⟨rest, hrun, hfree, rfl⟩ | ⟨rest, hrun, hfree, rfl⟩ |
    ⟨rest, hrun, rfl⟩ | ⟨s, rest, t, more, hrun, hlock, hunlock, he, rfl⟩
  · -- the handler returns, without the mutex
    rw [← hrunning, hrun, bracketed_nil, decide_eq_false_iff_not] at hhc
    exact of_idle rfl h.code hhc
  · -- the handler takes the mutex, which its code did not have
    rw [← hrunning, hrun, bracketed_lock rfl] at hhc
    rw [setRunning_of_some hh, frame_of_some hh]
    exact of_handler rfl hcode (by simp) (by simpa using hhc.2)
  · exact h
  · -- and gives it back
    rw [← hrunning, hrun, bracketed_unlock rfl] at hhc
    rw [setRunning_of_some hh]
    exact of_handler rfl hcode (by simp) (by simpa using hhc.2)
  · obtain ⟨hexp, hmtx, hsame, hhandler⟩ := effect_spec he
    rw [← hrunning, hrun, ← hmtx] at hhc
    rw [setRunning_of_some (hhandler.trans hh)]
    exact of_handler rfl (hsame ▸ hcode) (hmtx ▸ hm) (hhc.expand hlock hunlock hexp)

theorem advance (h : LockInv rwbn st) (hs : st.advance gettid rwbn = .running () st') :
    LockInv rwbn st' := by
  cases hh : st.handler with
  | none => exact h.advance_code hh hs
  | some hc =>
    by_cases hm : st.mtx = some .interrupted
    · exact h.advance_away hh hm hs
    · exact h.advance_handler hh hm hs

end LockInv

/-- The signal arrives while the interrupted code does not hold the mutex, or finds a
flag that turns its handler away before it asks for it. -/
def SignalsOutside (requestWillBeNotified : Bool) (st : LockThread) : LockInput → Prop
  | .signal fd _ => st.Delivers fd →
    inside PlatformStep.kind st.code = false ∨ requestWillBeNotified = true ∧ st.locals ≠ .init
  | _ => True

namespace LockInv

/-- A handler over code that does not hold the mutex may start. -/
theorem signal (h : LockInv rwbn st) {fd : ℤ} {body : List PlatformOp} (hd : st.Delivers fd)
    (hC : inside PlatformStep.kind st.code = false ∨ rwbn = true ∧ st.locals ≠ .init) :
    LockInv rwbn { st with handler := some (handlerCode rwbn fd body) } := by
  have hidle := h.idle hd.1
  by_cases hm : st.mtx = some .interrupted
  · -- the handler will not get past its flags
    have hin := h.inside_iff.mpr hm
    rcases hC with hout | ⟨rfl, htl⟩
    · rw [hin] at hout
      cases hout
    · refine ⟨h.code, fun hn => (nomatch hn), fun _ _ hne => absurd hm hne, fun c hc _ => ?_⟩
      obtain rfl := Option.some.inj hc
      exact ⟨rfl, Or.inr (Or.inl ⟨fd, body, rfl, htl⟩)⟩
  · have hcode := h.code
    rw [decide_eq_false hm] at hcode
    refine of_handler rfl hcode hm ?_
    rw [decide_eq_false hidle]
    exact handlerCode_bracketed fd body

/-- An allocation writes a flag that no test is waiting for. -/
theorem callback (h : LockInv rwbn st) {tl : ThreadLocals}
    (htest : st.running.head?.any PlatformStep.testsFlags = false) :
    LockInv rwbn { st with locals := tl } := by
  refine ⟨h.code, h.idle, h.handler, fun c hc hm => ?_⟩
  have hrunning : st.running = c := running_of_some hc
  obtain ⟨hr, rfl | ⟨fd, body, rfl, -⟩ | ⟨fd, body, rfl, -⟩⟩ := h.away c hc hm
  · exact ⟨hr, Or.inl rfl⟩
  · simp [hrunning, PlatformStep.testsFlags] at htest
  · simp [hrunning, PlatformStep.testsFlags] at htest

/-- **Every step keeps the invariant**, if a signal arrives outside the critical
sections. -/
theorem step (h : LockInv rwbn st) {i : LockInput} (hC : SignalsOutside rwbn st i)
    (hs : LockThread.step gettid rwbn st i = .running () st') : LockInv rwbn st' := by
  cases i with
  | start op =>
    dsimp only [LockThread.step] at hs
    split_ifs at hs with hidle
    · obtain rfl := (Outcome.running.inj hs).2
      -- a thread with no code left does not hold the mutex
      have hcode := h.code
      rw [hidle.2, bracketed_nil] at hcode
      refine of_idle hidle.1 ?_ (h.idle hidle.1)
      exact (bracketed_call rfl).mpr ⟨hcode, bracketed_nil.mpr rfl⟩
    · obtain rfl := (Outcome.running.inj hs).2
      exact h
  | advance => exact h.advance hs
  | signal fd body =>
    dsimp only [LockThread.step] at hs
    split_ifs at hs with hd
    · obtain rfl := (Outcome.running.inj hs).2
      exact h.signal hd (hC hd)
    · obtain rfl := (Outcome.running.inj hs).2
      exact h
  | callback c =>
    dsimp only [LockThread.step] at hs
    split_ifs at hs with htest
    · obtain rfl := (Outcome.running.inj hs).2
      exact h
    · obtain rfl := (Outcome.running.inj hs).2
      exact h.callback (by simpa using htest)

end LockInv

theorem lockInv_of_run {p : Platform} {is : List LockInput}
    (hC : Along (step gettid rwbn) (SignalsOutside rwbn) (init p) is)
    (hrun : exec (step gettid rwbn) (init p) is = .running () st) : LockInv rwbn st :=
  exec_invariant (fun _ _ _ _ h hC hs => h.step hC hs) (LockInv.init p) hC hrun

/-- **No handler asks for the mutex while the code it interrupts holds it**, in every
run whose signals arrive outside the critical sections. -/
theorem handler_never_waits (gettid : ℕ) (rwbn : Bool) (p : Platform) (is : List LockInput)
    (st : LockThread) (hC : Along (step gettid rwbn) (SignalsOutside rwbn) (init p) is)
    (hrun : exec (step gettid rwbn) (init p) is = .running () st) (op : PlatformOp)
    (rest : List PlatformStep) (hcall : st.handler = some (.call op :: rest)) :
    st.mtx ≠ some .interrupted := by
  intro hm
  obtain ⟨-, hc | ⟨fd, body, hc, -⟩ | ⟨fd, body, hc, -⟩⟩ :=
    (lockInv_of_run hC hrun).away _ hcall hm <;> cases hc

/-- A breakpoint is registered up to its open; its counter runs from there on. -/
def opened : List LockInput :=
  [.start (.registerDevice (BPDevice 1 1 64) 0 false ⟨7, true, true, true, true, true, true⟩),
    .advance, .advance]

theorem waits_not_after_open :
    (exec (step 5 false) (init ⟨∅, [], fun _ => 0, ⟨[], []⟩⟩)
      (opened ++ [.signal 7 []])).state.mtx ≠ some .interrupted := by
  refine handler_never_waits 5 false _ (opened ++ [.signal 7 []]) _ ?_ rfl .pauseAllDevices
    [.testUnsafe 7 []] rfl
  exact .cons trivial rfl (.cons trivial rfl (.cons trivial rfl (.cons (fun _ => Or.inl rfl) rfl
    trivial)))

/-- The signal arrives in `add_new_device`: the handler calls `pause_all_devices`, and
the thread waits for itself. -/
theorem waits_in_add_new_device :
    (exec (step 5 false) (init ⟨∅, [], fun _ => 0, ⟨[], []⟩⟩)
      (opened ++ [.advance, .signal 7 []])).state.handler
        = some [.call .pauseAllDevices, .testUnsafe 7 []] ∧
    (exec (step 5 false) (init ⟨∅, [], fun _ => 0, ⟨[], []⟩⟩)
      (opened ++ [.advance, .signal 7 []])).state.mtx = some .interrupted :=
  ⟨rfl, rfl⟩

/-- **A signal inside a critical section.** Unless a flag turns it away first, its
handler goes on to ask for the mutex that the code it interrupts holds. -/
theorem signal_inside_waits (h : LockInv rwbn st) {fd : ℤ} {body : List PlatformOp}
    (hd : st.Delivers fd) (hC : ¬ SignalsOutside rwbn st (.signal fd body)) :
    ∃ n st' op rest,
      exec (step gettid rwbn) st (.signal fd body :: List.replicate n .advance) =
        .running () st' ∧
      st'.handler = some (.call op :: rest) ∧ st'.mtx = some .interrupted := by
  simp only [SignalsOutside, hd, true_implies, not_or, Bool.not_eq_false, not_and, not_not] at hC
  obtain ⟨hin, htl⟩ := hC
  have hm := h.inside_iff.mp hin
  have hsignal : step gettid rwbn st (.signal fd body) =
      .running () { st with handler := some (handlerCode rwbn fd body) } := by
    dsimp only [step]
    rw [if_pos hd]
  cases rwbn with
  | false => exact ⟨0, _, .pauseAllDevices, [.testUnsafe fd body],
      exec_cons_running _ hsignal, rfl, hm⟩
  | true =>
    -- both flags are clear, so the handler comes to look the device up
    have htl := htl rfl
    refine ⟨2, { st with
      locals := { st.locals with inSignalHandler := true }
      handler := some [.call (.getDevice gettid fd), .dispatch body] },
      .getDevice gettid fd, [.dispatch body], ?_, rfl, hm⟩
    rw [exec_cons_running _ hsignal]
    simp [exec, step, advance, running, handlerCode, effect, setRunning, htl, ThreadLocals.init]

/-- The handler waits for the mutex, and the code that holds it for the handler. -/
def Stuck (st : LockThread) : Prop :=
  (∃ rest, st.handler = some (.lock :: rest)) ∧ st.mtx = some .interrupted

/-- Nothing ends the wait: no step of the thread changes its code or its platform. -/
theorem stuck_of_run (hstuck : st.Stuck) {is : List LockInput}
    (hrun : exec (step gettid rwbn) st is = .running () st') :
    st'.Stuck ∧ st'.code = st.code ∧ st'.platform = st.platform := by
  refine exec_invariant (C := fun _ _ => True)
    (I := fun t => t.Stuck ∧ t.code = st.code ∧ t.platform = st.platform)
    (fun t i _ t' ht _ hs => ?_) ⟨hstuck, rfl, rfl⟩ (along_of_forall fun _ _ => trivial) hrun
  obtain ⟨⟨⟨rest, hh⟩, hm⟩, hcode, hplatform⟩ := ht
  -- the handler asks again; nothing else may start, and no signal is delivered
  have hrunning := running_of_some hh
  cases i with
  | start op =>
    dsimp only [step] at hs
    rw [if_neg (by simp [hh])] at hs
    obtain rfl := (Outcome.running.inj hs).2
    exact ⟨⟨⟨rest, hh⟩, hm⟩, hcode, hplatform⟩
  | advance =>
    dsimp only [step] at hs
    rw [advance, hrunning, hm] at hs
    obtain rfl := (Outcome.running.inj hs).2
    exact ⟨⟨⟨rest, hh⟩, hm⟩, hcode, hplatform⟩
  | signal fd body =>
    dsimp only [step] at hs
    rw [if_neg (by simp [Delivers, hh])] at hs
    obtain rfl := (Outcome.running.inj hs).2
    exact ⟨⟨⟨rest, hh⟩, hm⟩, hcode, hplatform⟩
  | callback c =>
    dsimp only [step] at hs
    rw [if_neg (by simp [hrunning, PlatformStep.testsFlags])] at hs
    obtain rfl := (Outcome.running.inj hs).2
    exact ⟨⟨⟨rest, hh⟩, hm⟩, hcode, hplatform⟩

end LockThread

end Kognizance
