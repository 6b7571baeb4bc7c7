import Kognizance.Platform.SessionPause
import Kognizance.Tool.LeafMap
import Kognizance.Watchpoint.ThreadCalls

/-!
# The sessions of the witch tool

The whole of `witchTool/mytool.cpp` on any number of threads. `tool_sessionInit` creates the slot
table of the thread, draws a key and registers the sampling device; a signal goes to the handler
of the device under its handle, which arms slots or disables them; `tool_sessionExit` disarms the
slots and removes what the session has left. Any call of the system may fail, and any thread may
take the next step. `WP_Init` has run.

The slots, the two maps of the platform and the keys are kept by different parts of the code.
`WitchTool.Ok` puts together what each of them keeps: `OwnSessions` of the platform and
`DevicesInv` of the library, which meet in `ThreadCalls`.

* `WitchTool.step` is one callback of the tool, or one signal.
* `used_of_few`: no key is given to two threads in a run of up to 2^32 sessions.
* `WitchTool.InOrder` is what can be relied on between two of them.
* `inOrder_of_run`: it holds in every state of every run.
* `untouched_of_run`: what other threads do leaves the table, the devices and the key of a thread
  alone.
-/

namespace Kognizance

open Process

/-- The process of the tool. -/
structure WitchTool where
  world : World WitchLogic
  sKey : ℤ
  /-- The threads between a `tool_sessionInit` and its `tool_sessionExit`. -/
  inSession : ℕ → Bool

/-- A callback of the tool, or a signal that reaches `dev_signal_handler`. -/
inductive WitchOp
  | sessionInit (gettid : ℕ) (table : InitAnswers) (ans : RegisterAnswers)
  | sessionExit (gettid : ℕ) (slots : ℕ → RemoveAnswers) (ans : ℤ → RemoveAnswers)
  | signal (gettid : ℕ) (si_fd : ℤ) (event : Event) (sample : SampleAnswers)
    (trigger : TriggerAnswers)

/-- The thread it runs on. -/
def WitchOp.gettid : WitchOp → ℕ
  | sessionInit gettid _ _ => gettid
  | sessionExit gettid _ _ => gettid
  | signal gettid _ _ _ _ => gettid

/-- The thread it draws a session key for. -/
def WitchOp.begins : WitchOp → Option ℕ
  | sessionInit gettid _ _ => some gettid
  | _ => none

namespace WitchTool

/-- `WP_Init` has left handles open, but no devices. -/
def init (p : Platform) (sKey : ℤ) : WitchTool where
  world := World.fresh { p with deviceMap := ∅, deviceSessionMultiMap := [] } .new
  sKey := sKey
  inSession := fun _ => false

/-- The state of the process after a call of the library. -/
def after (st : WitchTool) : Outcome (World WitchLogic) ℤ → Outcome WitchTool Unit
  | .running _ w => .running () { st with world := w }
  | .ended h w => .ended h { st with world := w }

def withPlatform (st : WitchTool) (p : Platform) : WitchTool :=
  { st with world := { st.world with platform := p } }

/-- `generate_session_key`, but for the map from threads to keys, which this tool never asks. -/
def generateSessionKey (st : WitchTool) (gettid : ℕ) : WitchTool :=
  { st.withPlatform { st.world.platform with
      sessionKey := Function.update st.world.platform.sessionKey gettid st.sKey } with
    sKey := (st.sKey + 1).bmod (2 ^ 32) }

/-- `tool_sessionInit`. The values of `WP_ThreadInit` and `registerDevice` are ignored. -/
def toolSessionInit (S : Setup) (st : WitchTool) (gettid : ℕ) (table : InitAnswers)
    (ans : RegisterAnswers) : Outcome WitchTool Unit :=
  match wpThreadInit S.tool st.world gettid table with
  | .ended h w => .ended h { st with world := w }
  | .running _ w =>
    let st := generateSessionKey { st with world := w } gettid
    let st := { st with inSession := Function.update st.inSession gettid true }
    match st.world.platform.registerDevice gettid PEBSDevice
        (st.world.platform.sessionKey gettid) ans with
    | .error h => .ended h st
    | .ok (_, _, p) => .running () (st.withPlatform p)

/-- `tool_sessionExit` -/
def toolSessionExit (S : Setup) (st : WitchTool) (gettid : ℕ) (slots : ℕ → RemoveAnswers)
    (ans : ℤ → RemoveAnswers) : Outcome WitchTool Unit :=
  match wpThreadTerminate S.tool st.world gettid slots with
  | .ended h w => .ended h { st with world := w }
  | .running _ w =>
    match w.platform.removeDeviceBySession gettid (w.platform.sessionKey gettid) ans with
    | .error h => .ended h { st with world := w }
    | .ok (_, p) =>
      .running ()
        { st with
          world := { w with platform := p }
          inSession := Function.update st.inSession gettid false }

/-- `tool_eventHandler`, for the device that `generic_dev_signal_handler` finds. -/
def toolEventHandler (S : Setup) (st : WitchTool) (gettid : ℕ) (si_fd : ℤ) (event : Event)
    (sample : SampleAnswers) (trigger : TriggerAnswers) : Outcome WitchTool Unit :=
  match st.world.platform.getDevice gettid si_fd with
  | none => .running () st
  | some dev =>
    match dev.deviceType with
    | .pebsDevice => st.after (toolPEBSEventHandler S st.world gettid event sample)
    | .bpDevice => st.after (onWatchPoint S.tool st.world gettid dev.deviceFileId event trigger)
    | .ebsDevice => .running () st

def step (S : Setup) (st : WitchTool) : WitchOp → Outcome WitchTool Unit
  | .sessionInit gettid table ans => st.toolSessionInit S gettid table ans
  | .sessionExit gettid slots ans => st.toolSessionExit S gettid slots ans
  | .signal gettid si_fd event sample trigger =>
    st.toolEventHandler S gettid si_fd event sample trigger

/-- How the callbacks come. The kernel hands out handles that are not open, sessions of a thread
do not overlap, and a key is given to one thread only, which it is as long as the counter does
not come round (`used_of_few`). -/
def Used (S : Setup) (ownerOf : ℤ → ℕ) (st : WitchTool) : WitchOp → Prop
  | .sessionInit gettid _ ans =>
    st.inSession gettid = false ∧ ownerOf st.sKey = gettid ∧
      ans.perfEventOpen ∉ st.world.platform.kernel.openFds
  | .sessionExit gettid _ _ => st.inSession gettid = true
  | .signal gettid _ _ sample _ => FreshHandle S.tool st.world gettid sample.subscribe

/-- The same without a word about the keys. -/
def Called (S : Setup) (st : WitchTool) : WitchOp → Prop
  | .sessionInit gettid _ ans =>
    st.inSession gettid = false ∧ ans.perfEventOpen ∉ st.world.platform.kernel.openFds
  | .sessionExit gettid _ _ => st.inSession gettid = true
  | .signal gettid _ _ sample _ => FreshHandle S.tool st.world gettid sample.subscribe

/-- Every way a step can return. -/
inductive Stepped (S : Setup) (st : WitchTool) : WitchOp → WitchTool → Prop
  /-- whether or not the library makes a table, and the kernel takes the device -/
  | begins {gettid : ℕ} {table : InitAnswers} {ans : RegisterAnswers} {ret ret' : ℤ}
      {w : World WitchLogic} {dev : Device} {p : Platform}
      (hw : wpThreadInit S.tool st.world gettid table = .running ret w)
      (hr : { w.platform with
          sessionKey := Function.update w.platform.sessionKey gettid st.sKey }.registerDevice
        gettid PEBSDevice (Function.update w.platform.sessionKey gettid st.sKey gettid) ans =
          .ok (ret', dev, p)) :
      Stepped S st (.sessionInit gettid table ans)
        { world := { w with platform := p }
          sKey := (st.sKey + 1).bmod (2 ^ 32)
          inSession := Function.update st.inSession gettid true }
  | ends {gettid : ℕ} {slots : ℕ → RemoveAnswers} {ans : ℤ → RemoveAnswers} {ret : ℤ}
      {w : World WitchLogic} {calls : List DeviceCall} {p : Platform}
      (hw : wpThreadTerminate S.tool st.world gettid slots = .running ret w)
      (hr : w.platform.removeDeviceBySession gettid (w.platform.sessionKey gettid) ans =
        .ok (calls, p)) :
      Stepped S st (.sessionExit gettid slots ans)
        { st with
          world := { w with platform := p }
          inSession := Function.update st.inSession gettid false }
  /-- no device is found, or one that the tool does not know -/
  | ignores {gettid : ℕ} {si_fd : ℤ} {event : Event} {sample : SampleAnswers}
      {trigger : TriggerAnswers} : Stepped S st (.signal gettid si_fd event sample trigger) st
  | samples {gettid : ℕ} {si_fd : ℤ} {event : Event} {sample : SampleAnswers}
      {trigger : TriggerAnswers} {dev : Device} {ret : ℤ} {w : World WitchLogic}
      (hdev : st.world.platform.getDevice gettid si_fd = some dev)
      (hw : toolPEBSEventHandler S st.world gettid event sample = .running ret w) :
      Stepped S st (.signal gettid si_fd event sample trigger) { st with world := w }
  | traps {gettid : ℕ} {si_fd : ℤ} {event : Event} {sample : SampleAnswers}
      {trigger : TriggerAnswers} {dev : Device} {ret : ℤ} {w : World WitchLogic}
      (hdev : st.world.platform.getDevice gettid si_fd = some dev)
      (hw : onWatchPoint S.tool st.world gettid dev.deviceFileId event trigger =
        .running ret w) :
      Stepped S st (.signal gettid si_fd event sample trigger) { st with world := w }

theorem step_cases {S : Setup} {st st' : WitchTool} {op : WitchOp}
    (hs : st.step S op = .running () st') : Stepped S st op st' := by
  cases op with
  | sessionInit gettid table ans =>
    dsimp only [step] at hs
    unfold toolSessionInit at hs
    cases hw : wpThreadInit S.tool st.world gettid table with
    | ended e w =>
      rw [hw] at hs
      cases hs
    | running ret w =>
      rw [hw] at hs
      dsimp only [generateSessionKey, withPlatform] at hs
      split at hs
      · cases hs
      next ret' dev p hr =>
        obtain rfl := (Outcome.running.inj hs).2
        exact .begins hw hr
  | sessionExit gettid slots ans =>
    dsimp only [step] at hs
    unfold toolSessionExit at hs
    cases hw : wpThreadTerminate S.tool st.world gettid slots with
    | ended e w =>
      rw [hw] at hs
      cases hs
    | running ret w =>
      rw [hw] at hs
      dsimp only at hs
      split at hs
      · cases hs
      next calls p hr =>
        obtain rfl := (Outcome.running.inj hs).2
        exact .ends hw hr
  | signal gettid si_fd event sample trigger =>
    dsimp only [step] at hs
    unfold toolEventHandler at hs
    split at hs
    · obtain rfl := (Outcome.running.inj hs).2
      exact .ignores
    next dev hdev =>
    -- by the device that raised the signal
    split at hs
    · cases hw : toolPEBSEventHandler S st.world gettid event sample with
      | ended e w =>
        rw [hw] at hs
        cases hs
      | running ret w =>
        rw [hw] at hs
        obtain rfl := (Outcome.running.inj hs).2
        exact .samples hdev hw
    · cases hw : onWatchPoint S.tool st.world gettid dev.deviceFileId event trigger with
      | ended e w =>
        rw [hw] at hs
        cases hs
      | running ret w =>
        rw [hw] at hs
        obtain rfl := (Outcome.running.inj hs).2
        exact .traps hdev hw
    · obtain rfl := (Outcome.running.inj hs).2
      exact .ignores

/-- **The keys of a run.** With up to 2^32 sessions, no key is given to two threads. -/
theorem used_of_few {S : Setup} {st : WitchTool} {ops : List WitchOp}
    (hcalled : Along (step S) (Called S) st ops)
    (hfew : (ops.filterMap WitchOp.begins).length ≤ 2 ^ 32) :
    ∃ ownerOf, Along (step S) (Used S ownerOf) st ops := by
  have hkey : ∀ st op a st', step S st op = .running a st' →
      st'.sKey = if op.begins.isSome then (st.sKey + 1).bmod (2 ^ 32) else st.sKey := by
    intro st op _ st' hs
    cases step_cases hs <;> rfl
  obtain ⟨ownerOf, howner⟩ := exists_ownerOf hkey hfew
  refine ⟨ownerOf, (hcalled.and howner).mono fun st op h => ?_⟩
  cases op with
  | sessionInit gettid table ans => exact ⟨h.1.1, h.2 gettid rfl, h.1.2⟩
  | sessionExit gettid slots ans => exact h.1
  | signal gettid si_fd event sample trigger => exact h.1

/-! ### What the operations keep -/

/-- What every part of the code keeps of its own data. -/
structure Ok (S : Setup) (ownerOf : ℤ → ℕ) (st : WitchTool) : Prop where
  sessions : OwnSessions ownerOf st.inSession st.world.platform
  tables : DevicesInv S.tool st.world
  idle : ∀ t, st.inSession t = false → st.world.tData t = none
  /-- All devices but the breakpoints sample, and are never disabled. -/
  sampler : ∀ t fd dev, st.world.platform.getDevice t fd = some dev →
    dev.deviceType ≠ .bpDevice → dev.deviceType = .pebsDevice ∧ dev.isDisabled = false
  single : ∀ t fd fd' dev dev', st.world.platform.getDevice t fd = some dev →
    st.world.platform.getDevice t fd' = some dev' → dev.deviceType ≠ .bpDevice →
    dev'.deviceType ≠ .bpDevice → fd = fd'

/-- Nothing of thread `t` has changed. -/
structure Untouched (st st' : WitchTool) (t : ℕ) : Prop where
  table : st'.world.tData t = st.world.tData t
  device : ∀ fd, st'.world.platform.getDevice t fd = st.world.platform.getDevice t fd
  key : st'.world.platform.sessionKey t = st.world.platform.sessionKey t
  live : st'.inSession t = st.inSession t

theorem Untouched.refl (st : WitchTool) (t : ℕ) : Untouched st st t :=
  ⟨rfl, fun _ => rfl, rfl, rfl⟩

theorem Untouched.trans {st st' st'' : WitchTool} {t : ℕ} (h : Untouched st st' t)
    (h' : Untouched st' st'' t) : Untouched st st'' t :=
  ⟨h'.table.trans h.table, fun fd => (h'.device fd).trans (h.device fd), h'.key.trans h.key,
    h'.live.trans h.live⟩

/-- A step of thread `gettid` keeps the tool in order, and leaves the other threads alone. -/
structure Does (S : Setup) (ownerOf : ℤ → ℕ) (st : WitchTool) (gettid : ℕ) (st' : WitchTool) :
    Prop where
  ok : Ok S ownerOf st'
  other : ∀ t, t ≠ gettid → Untouched st st' t

end WitchTool

/-- Handles of devices are open, and of one device each. -/
theorem OwnSessions.opened {ownerOf : ℤ → ℕ} {live : ℕ → Bool} {p : Platform}
    (h : OwnSessions ownerOf live p) : p.Opened where
  isOpen := by
    intro t fd hhas
    obtain ⟨dev, hdev⟩ := Option.ne_none_iff_exists'.mp hhas
    exact h.agree.isOpen t fd dev.sessionId (Platform.sessionOf_eq_some.mpr ⟨dev, hdev, rfl⟩)
  unique := by
    intro t t' fd hhas hhas'
    obtain ⟨dev, hdev⟩ := Option.ne_none_iff_exists'.mp hhas
    obtain ⟨dev', hdev'⟩ := Option.ne_none_iff_exists'.mp hhas'
    exact h.agree.index.unique t t' fd dev.sessionId dev'.sessionId
      (Platform.sessionOf_eq_some.mpr ⟨dev, hdev, rfl⟩)
      (Platform.sessionOf_eq_some.mpr ⟨dev', hdev', rfl⟩)

/-- Slots and devices are in step, whatever happens to devices that are no breakpoints. -/
theorem DevicesInv.breakpoints {L : Type} {T : Tool L} {w : World L} {q : Platform}
    (h : DevicesInv T w) (hopened : q.Opened)
    (hsame : ∀ t fd dev, dev.deviceType = .bpDevice →
      (q.getDevice t fd = some dev ↔ w.platform.getDevice t fd = some dev)) :
    DevicesInv T { w with platform := q } where
  linked := by
    intro t td htd
    obtain ⟨hinj, hlinked, hcovered⟩ := h.linked t td htd
    refine ⟨hinj, fun i hi => ?_, fun fd dev hdev hbp => ?_⟩
    · obtain ⟨hthread, hoff, hdevice, hclosed⟩ := hlinked i hi
      refine ⟨hthread, hoff, fun hfd => ?_, hclosed⟩
      obtain ⟨dev, hdev, hbp, hrest⟩ := hdevice hfd
      exact ⟨dev, (hsame t _ dev hbp).mpr hdev, hbp, hrest⟩
    · exact hcovered fd dev ((hsame t fd dev hbp).mp hdev) hbp
  idle := by
    intro t ht fd dev hdev hbp
    exact h.idle t ht fd dev ((hsame t fd dev hbp).mp hdev) hbp
  opened := hopened

/-- What the handler of a sample does outside of the logic is one subscription, or nothing. -/
theorem toolPEBSEventHandler_subscribes {S : Setup} {w w' : World WitchLogic} {tid : ℕ}
    {event : Event} {ans : SampleAnswers} {ret : ℤ}
    (h : toolPEBSEventHandler S w tid event ans = .running ret w') :
    (w'.tData = w.tData ∧ w'.platform = w.platform) ∨
    ∃ σ r ret, wpSubscribe S.tool { w with logic := σ } tid r ans.subscribe = .running ret w' := by
  unfold toolPEBSEventHandler at h
  dsimp only at h
  -- every early return comes before the library is called
  split_ifs at h
  · obtain ⟨-, rfl⟩ := Outcome.running.inj h
    exact Or.inl ⟨rfl, rfl⟩
  · obtain ⟨-, rfl⟩ := Outcome.running.inj h
    exact Or.inl ⟨rfl, rfl⟩
  · obtain ⟨-, rfl⟩ := Outcome.running.inj h
    exact Or.inl ⟨rfl, rfl⟩
  · obtain ⟨-, rfl⟩ := Outcome.running.inj h
    exact Or.inl ⟨rfl, rfl⟩
  · obtain ⟨-, rfl⟩ := Outcome.running.inj h
    exact Or.inl ⟨rfl, rfl⟩
  · exact Or.inr ⟨_, _, ret, h⟩
  · obtain ⟨-, rfl⟩ := Outcome.running.inj h
    exact Or.inl ⟨rfl, rfl⟩

/-- The library makes a table for the thread, or nothing. -/
theorem wpThreadInit_own {L : Type} {T : Tool L} {w w' : World L} {gettid : ℕ} {ans : InitAnswers}
    {ret : ℤ} (h : wpThreadInit T w gettid ans = .running ret w') :
    w'.platform = w.platform ∧ ∀ t, t ≠ gettid → w'.tData t = w.tData t := by
  rcases wpThreadInit_cases h with rfl | rfl
  · exact ⟨rfl, fun _ _ => rfl⟩
  · exact ⟨rfl, fun _ ht => Function.update_of_ne ht _ _⟩

namespace WitchTool

section Step

variable {S : Setup} {ownerOf : ℤ → ℕ} {st st' : WitchTool} {gettid : ℕ}

theorem Ok.init (p : Platform) (sKey : ℤ) (hopen : p.kernel.openFds.Nodup) :
    Ok S ownerOf (init p sKey) where
  sessions := OwnSessions.empty rfl rfl hopen
  tables :=
    { linked := fun _ _ h => by cases h
      idle := fun _ _ _ _ h => by cases h
      opened := ⟨fun _ _ h => absurd rfl h, fun _ _ _ h => absurd rfl h⟩ }
  idle := fun _ _ => rfl
  sampler := fun _ _ _ h => by cases h
  single := fun _ _ _ _ _ h => by cases h

/-- **A handler** that calls nothing but the library keeps the tool in order. -/
theorem Ok.handled (h : Ok S ownerOf st) (hlive : st.inSession gettid = true)
    {w : World WitchLogic} (hcalls : ThreadCalls gettid st.world.platform w.platform)
    (htables : DevicesInv S.tool w)
    (hother : ∀ t, t ≠ gettid → w.tData t = st.world.tData t) :
    Does S ownerOf st gettid { st with world := w } where
  ok :=
    { sessions := hcalls.ownSessions h.sessions hlive
      tables := htables
      idle := by
        intro t ht
        -- a thread without a session is not the one that runs
        have htt : t ≠ gettid := by
          rintro rfl
          exact absurd (hlive.symm.trans ht) nofun
        exact (hother t htt).trans (h.idle t ht)
      sampler := by
        intro t fd dev hdev hbp
        exact h.sampler t fd dev (hcalls.other_device hdev hbp) hbp
      single := by
        intro t fd fd' dev dev' hdev hdev' hbp hbp'
        exact h.single t fd fd' dev dev' (hcalls.other_device hdev hbp)
          (hcalls.other_device hdev' hbp') hbp hbp' }
  other := by
    intro t ht
    exact ⟨hother t ht, hcalls.other_thread ht, congrFun hcalls.sessionKey t, rfl⟩

/-- **A sample.** -/
theorem Ok.sample (h : Ok S ownerOf st) (hlive : st.inSession gettid = true) {event : Event}
    {ans : SampleAnswers} {ret : ℤ} {w : World WitchLogic}
    (hfresh : FreshHandle S.tool st.world gettid ans.subscribe)
    (hs : toolPEBSEventHandler S st.world gettid event ans = .running ret w) :
    Does S ownerOf st gettid { st with world := w } := by
  rcases toolPEBSEventHandler_subscribes hs with ⟨htd, hp⟩ | ⟨σ, r, ret, hsub⟩
  · refine h.handled hlive ?_ ?_ fun t _ => congrFun htd t
    · rw [hp]
      exact .refl
    · have htables := h.tables
      refine ⟨?_, ?_, ?_⟩
      · rw [htd, hp]
        exact htables.linked
      · rw [htd, hp]
        exact htables.idle
      · rw [hp]
        exact htables.opened
  · -- the logic has no part in what the library does to the devices
    have hinv : DevicesInv S.tool { st.world with logic := σ } :=
      ⟨h.tables.linked, h.tables.idle, h.tables.opened⟩
    have hcalls : ThreadCalls gettid ({ st.world with logic := σ } : World _).platform
        w.platform := wpSubscribe_calls hinv hfresh hsub
    refine h.handled hlive hcalls (hinv.subscribed hfresh (wpSubscribe_cases hsub)) fun t ht => ?_
    cases wpSubscribe_cases hsub with
    | refused => rfl
    | noVictim => exact Function.update_of_ne ht _ _
    | tried => exact Function.update_of_ne ht _ _

/-- **A trigger.** -/
theorem Ok.trigger (h : Ok S ownerOf st) (hlive : st.inSession gettid = true) {fd : ℤ}
    {event : Event} {ans : TriggerAnswers} {ret : ℤ} {w : World WitchLogic}
    (hs : onWatchPoint S.tool st.world gettid fd event ans = .running ret w) :
    Does S ownerOf st gettid { st with world := w } := by
  have hh := onWatchPoint_cases hs
  refine h.handled hlive (onWatchPoint_calls h.tables hh) (h.tables.handled hh) fun t ht => ?_
  cases hh with
  | noTable => rfl
  | fired => exact Function.update_of_ne ht _ _

/-- **A session begins**: its only device samples. -/
theorem Ok.sessionInit (h : Ok S ownerOf st) {table : InitAnswers} {ans : RegisterAnswers}
    {ret ret' : ℤ} {w : World WitchLogic} {dev : Device} {p : Platform}
    (hu : Used S ownerOf st (.sessionInit gettid table ans))
    (hw : wpThreadInit S.tool st.world gettid table = .running ret w)
    (hr : { w.platform with
        sessionKey := Function.update w.platform.sessionKey gettid st.sKey }.registerDevice
      gettid PEBSDevice (Function.update w.platform.sessionKey gettid st.sKey gettid) ans =
        .ok (ret', dev, p)) :
    Does S ownerOf st gettid
      { world := { w with platform := p }
        sKey := (st.sKey + 1).bmod (2 ^ 32)
        inSession := Function.update st.inSession gettid true } := by
  obtain ⟨hidle, hown, hfresh⟩ := hu
  have htables := h.tables.threadInit (h.idle gettid hidle) hw
  obtain ⟨hplatform, hother⟩ := wpThreadInit_own hw
  rw [hplatform] at hr
  have hsessions := (h.sessions.newSession hidle hown).registerDevice (Function.update_self ..)
    hfresh hr
  -- what the map holds now is the new device, or was there before
  have hdevs : ∀ {t fd d}, p.getDevice t fd = some d →
      (t = gettid ∧ fd = ans.perfEventOpen ∧ d.deviceType = .pebsDevice ∧ d.isDisabled = false) ∨
      st.world.platform.getDevice t fd = some d := by
    intro t fd d hd
    rcases Platform.device_of_registerDevice hr hd with ⟨-, ht, hfd, rfl⟩ | hold
    · exact Or.inl ⟨ht, hfd, rfl, rfl⟩
    · exact Or.inr hold
  have hnone := h.sessions.getDevice_idle hidle
  refine ⟨⟨hsessions, ?_, fun t ht => ?_, fun t fd d hd hbp => ?_,
    fun t fd fd' d d' hd hd' hbp hbp' => ?_⟩, fun t ht => ⟨hother t ht, fun fd => ?_, ?_, ?_⟩⟩
  · -- the new device is no breakpoint, so the slots stay in step with theirs
    refine htables.breakpoints hsessions.opened fun t fd d hbp => ?_
    rw [hplatform]
    constructor
    · intro hd
      rcases hdevs hd with ⟨-, -, hpebs, -⟩ | hold
      · exact absurd (hpebs.symm.trans hbp) nofun
      · exact hold
    · intro hd
      rw [Platform.getDevice_registerDevice hr, if_neg]
      · exact hd
      · rintro ⟨-, rfl, rfl⟩
        exact absurd ((hnone _).symm.trans hd) nofun
  · -- the thread that has just begun is in a session
    have htt : t ≠ gettid := by
      rintro rfl
      exact absurd ((Function.update_self ..).symm.trans ht) nofun
    dsimp only at ht
    rw [Function.update_of_ne htt] at ht
    exact (hother t htt).trans (h.idle t ht)
  · rcases hdevs hd with ⟨-, -, hnew⟩ | hold
    · exact hnew
    · exact h.sampler t fd d hold hbp
  · -- the thread had no device before, so the new one is its only one
    rcases hdevs hd with ⟨rfl, rfl, -⟩ | hold
    · rcases hdevs hd' with ⟨-, rfl, -⟩ | hold'
      · rfl
      · exact absurd ((hnone fd').symm.trans hold') nofun
    · rcases hdevs hd' with ⟨rfl, rfl, -⟩ | hold'
      · exact absurd ((hnone fd).symm.trans hold) nofun
      · exact h.single t fd fd' d d' hold hold' hbp hbp'
  · exact Platform.getDevice_registerDevice_ne hr ht fd
  · show p.sessionKey t = _
    rw [(Platform.registerDevice_accepted hr).2]
    exact Function.update_of_ne ht _ _
  · exact Function.update_of_ne ht _ _

/-- **A session ends**: nothing is left of it. -/
theorem Ok.sessionExit (h : Ok S ownerOf st) {slots : ℕ → RemoveAnswers}
    {ans : ℤ → RemoveAnswers} {ret : ℤ} {w : World WitchLogic} {calls : List DeviceCall}
    {p : Platform} (hlive : st.inSession gettid = true)
    (hw : wpThreadTerminate S.tool st.world gettid slots = .running ret w)
    (hr : w.platform.removeDeviceBySession gettid (w.platform.sessionKey gettid) ans =
      .ok (calls, p)) :
    Does S ownerOf st gettid
      { st with
        world := { w with platform := p }
        inSession := Function.update st.inSession gettid false } := by
  have hcalls := wpThreadTerminate_calls hw
  have htables := h.tables.threadTerminate hw
  obtain ⟨hsessions, hself, hother⟩ :=
    (hcalls.ownSessions h.sessions hlive).sessionExit hlive hr
  obtain ⟨td, slots', q, -, -, rfl⟩ := wpThreadTerminate_cases hw
  have hdevs : ∀ t fd d, p.getDevice t fd = some d → d.deviceType ≠ .bpDevice →
      st.world.platform.getDevice t fd = some d := by
    intro t fd d hd hbp
    have htt : t ≠ gettid := by
      rintro rfl
      exact absurd ((hself fd).symm.trans hd) nofun
    exact hcalls.other_device ((hother t htt fd).symm.trans hd) hbp
  refine ⟨⟨hsessions, ?_, fun t ht => ?_, fun t fd d hd hbp => ?_,
    fun t fd fd' d d' hd hd' hbp hbp' => ?_⟩, fun t ht => ⟨?_, fun fd => ?_, ?_, ?_⟩⟩
  · refine htables.breakpoints hsessions.opened fun t fd d hbp => ?_
    by_cases htt : t = gettid
    · subst htt
      -- the table has gone, and with it all breakpoints
      have hno := htables.idle t (Function.update_self ..) fd d
      refine iff_of_false ?_ fun hd => hno hd hbp
      rw [hself]
      nofun
    · rw [hother t htt]
  · by_cases htt : t = gettid
    · subst htt
      exact Function.update_self ..
    · dsimp only at ht
      rw [Function.update_of_ne htt] at ht
      exact (Function.update_of_ne htt _ _).trans (h.idle t ht)
  · exact h.sampler t fd d (hdevs t fd d hd hbp) hbp
  · exact h.single t fd fd' d d' (hdevs t fd d hd hbp) (hdevs t fd' d' hd' hbp') hbp hbp'
  · exact Function.update_of_ne ht _ _
  · exact (hother t ht fd).trans (hcalls.other_thread ht fd)
  · show p.sessionKey t = _
    rw [Platform.sessionKey_removeDeviceBySession hr]
    exact congrFun hcalls.sessionKey t
  · exact Function.update_of_ne ht _ _

/-- **One step** keeps the tool in order. -/
theorem Ok.step (h : Ok S ownerOf st) {op : WitchOp} (hu : Used S ownerOf st op)
    (hs : st.step S op = .running () st') : Does S ownerOf st op.gettid st' := by
  cases step_cases hs with
  | begins hw hr => exact h.sessionInit hu hw hr
  | ends hw hr => exact h.sessionExit hu hw hr
  | ignores => exact ⟨h, fun t _ => .refl st t⟩
  | samples hdev hw => exact h.sample (h.sessions.session _ _ _ hdev).1 hu hw
  | traps hdev hw => exact h.trigger (h.sessions.session _ _ _ hdev).1 hw

end Step

/-! ### Runs -/

/-- The thread samples with the device under the handle. -/
def Samples (st : WitchTool) (t : ℕ) (fd : ℤ) : Prop :=
  ∃ dev, st.world.platform.getDevice t fd = some dev ∧ dev.deviceType = .pebsDevice

/-- An active slot of the thread watches with the device under the handle. -/
def Watches (S : Setup) (st : WitchTool) (t : ℕ) (fd : ℤ) : Prop :=
  ∃ td i, st.world.tData t = some td ∧ i < S.cfg.maxWP ∧
    (td.watchPointArray i).isActive = true ∧ (td.watchPointArray i).fileHandle = fd

/-- What can be relied on between two callbacks. -/
structure InOrder (S : Setup) (st : WitchTool) : Prop where
  /-- Outside of a session a thread has nothing. -/
  idle : ∀ t, st.inSession t = false →
    st.world.tData t = none ∧ ∀ fd, st.world.platform.getDevice t fd = none
  /-- Every device is registered for the session that its thread is in. -/
  session : ∀ t fd dev, st.world.platform.getDevice t fd = some dev →
    st.inSession t = true ∧ dev.sessionId = st.world.platform.sessionKey t
  /-- The breakpoints of a thread are those of its slots. -/
  slots : ∀ t td, st.world.tData t = some td →
    Bijection S.cfg st.world.platform t td.watchPointArray
  sampler : ∀ t fd fd', st.Samples t fd → st.Samples t fd' → fd = fd'
  /-- Every device is the one that its thread samples with, which is never disabled, or the
  breakpoint of exactly one of its slots; a thread without a table has no breakpoint. -/
  devices : ∀ t fd dev, st.world.platform.getDevice t fd = some dev →
    (dev.deviceType = .pebsDevice ∧ dev.isDisabled = false ∧
      ∀ fd' dev', st.world.platform.getDevice t fd' = some dev' →
        dev'.deviceType ≠ .bpDevice → fd' = fd) ∨
    (dev.deviceType = .bpDevice ∧ ∃ td, st.world.tData t = some td ∧
      ∃ i < S.cfg.maxWP, (td.watchPointArray i).fileHandle = fd ∧
        ∀ j < S.cfg.maxWP, (td.watchPointArray j).fileHandle = fd → j = i)
  /-- The session map lists every device once, and nothing else. -/
  listed : st.world.platform.deviceSessionMultiMap.Nodup ∧
    ∀ s fd, (s, fd) ∈ st.world.platform.deviceSessionMultiMap ↔
      ∃ t dev, st.world.platform.getDevice t fd = some dev ∧ dev.sessionId = s
  /-- A thread that resumes its session enables its sampling device and the devices of its active
  slots. -/
  resumed : ∀ t k, k ∈ st.world.platform.resumeDevicesBySession t
    (st.world.platform.sessionKey t) ↔ k.1 = t ∧ (st.Samples t k.2 ∨ st.Watches S t k.2)
  /-- A session that has a table can be ended, if the devices can be closed, and one that has
  none cannot. -/
  exits : ∀ t slots ans, (∀ i, (slots i).munmapOk = true ∧ (slots i).closeOk = true) →
    (∀ fd, (ans fd).munmapOk = true ∧ (ans fd).closeOk = true) →
    ((∃ st', st.step S (.sessionExit t slots ans) = .running () st') ↔ st.world.tData t ≠ none)

section Order

variable {S : Setup} {ownerOf : ℤ → ℕ} {st : WitchTool}

/-- A breakpoint that is not disabled is that of an active slot, and there is no other one. -/
theorem Ok.watches_iff (h : Ok S ownerOf st) (t : ℕ) (fd : ℤ) :
    st.Watches S t fd ↔ ∃ dev, st.world.platform.getDevice t fd = some dev ∧
      dev.deviceType = .bpDevice ∧ dev.isDisabled = false := by
  constructor
  · rintro ⟨td, i, htd, hi, hact, rfl⟩
    have hlinked := (h.tables.linked t td htd).linked i hi
    obtain ⟨dev, hdev, hbp, -, -, hon⟩ := hlinked.device (hlinked.handle_ne hact)
    refine ⟨dev, hdev, hbp, ?_⟩
    rw [hact] at hon
    simpa using hon.symm
  · rintro ⟨dev, hdev, hbp, hon⟩
    cases htd : st.world.tData t with
    | none => exact absurd hbp (h.tables.idle t htd fd dev hdev)
    | some td =>
      obtain ⟨hfd, i, hi, rfl⟩ := (h.tables.linked t td htd).covered fd dev hdev hbp
      obtain ⟨dev', hdev', -, -, -, hact⟩ := ((h.tables.linked t td htd).linked i hi).device hfd
      obtain rfl := Option.some.inj (hdev.symm.trans hdev')
      rw [hon] at hact
      exact ⟨td, i, htd, hi, hact, rfl⟩

theorem Ok.resumed (h : Ok S ownerOf st) (t : ℕ) (k : ℕ × ℤ) :
    k ∈ st.world.platform.resumeDevicesBySession t (st.world.platform.sessionKey t) ↔
      k.1 = t ∧ (st.Samples t k.2 ∨ st.Watches S t k.2) := by
  rw [Platform.resumeDevicesBySession_eq]
  refine h.sessions.agree.mem_pause.trans ?_
  constructor
  · rintro ⟨⟨dev, hdev, -, hon⟩, rfl, -⟩
    refine ⟨rfl, ?_⟩
    by_cases hbp : dev.deviceType = .bpDevice
    · exact Or.inr ((h.watches_iff k.1 k.2).mpr ⟨dev, hdev, hbp, hon⟩)
    · exact Or.inl ⟨dev, hdev, (h.sampler k.1 k.2 dev hdev hbp).1⟩
  · rintro ⟨rfl, ⟨dev, hdev, hpebs⟩ | hwatch⟩
    · have hbp : dev.deviceType ≠ .bpDevice := by
        rw [hpebs]
        nofun
      exact ⟨⟨dev, hdev, (h.sessions.session _ _ dev hdev).2, (h.sampler _ _ dev hdev hbp).2⟩,
        rfl, List.not_mem_nil⟩
    · obtain ⟨dev, hdev, -, hon⟩ := (h.watches_iff k.1 k.2).mp hwatch
      exact ⟨⟨dev, hdev, (h.sessions.session _ _ dev hdev).2, hon⟩, rfl, List.not_mem_nil⟩

theorem exits_iff {slots : ℕ → RemoveAnswers} {ans : ℤ → RemoveAnswers}
    (hslots : ∀ i, (slots i).munmapOk = true ∧ (slots i).closeOk = true)
    (hans : ∀ fd, (ans fd).munmapOk = true ∧ (ans fd).closeOk = true) (t : ℕ) :
    (∃ st', st.step S (.sessionExit t slots ans) = .running () st') ↔
      st.world.tData t ≠ none := by
  have hterminate : (∃ ret w', wpThreadTerminate S.tool st.world t slots = .running ret w') ↔
      st.world.tData t ≠ none := wpThreadTerminate_returns hslots
  rw [← hterminate]
  unfold step toolSessionExit
  dsimp only
  constructor
  · rintro ⟨st', hs⟩
    cases hw : wpThreadTerminate S.tool st.world t slots with
    | ended e w =>
      rw [hw] at hs
      cases hs
    | running ret w => exact ⟨ret, w, rfl⟩
  · rintro ⟨ret, w, hw⟩
    rw [hw]
    -- the table is freed, and then what is left of the session goes
    obtain ⟨calls, p, hloop⟩ := Platform.removeDevices_succeeds hans w.platform
      (w.platform.sessionDevices (w.platform.sessionKey t)) (t := t)
    dsimp only
    rw [Platform.removeDeviceBySession, hloop]
    exact ⟨_, rfl⟩

/-- What is no breakpoint samples, and what is one belongs to a slot. -/
theorem Ok.devices (h : Ok S ownerOf st) (t : ℕ) (fd : ℤ) (dev : Device)
    (hdev : st.world.platform.getDevice t fd = some dev) :
    (dev.deviceType = .pebsDevice ∧ dev.isDisabled = false ∧
      ∀ fd' dev', st.world.platform.getDevice t fd' = some dev' →
        dev'.deviceType ≠ .bpDevice → fd' = fd) ∨
    (dev.deviceType = .bpDevice ∧ ∃ td, st.world.tData t = some td ∧
      ∃ i < S.cfg.maxWP, (td.watchPointArray i).fileHandle = fd ∧
        ∀ j < S.cfg.maxWP, (td.watchPointArray j).fileHandle = fd → j = i) := by
  by_cases hbp : dev.deviceType = .bpDevice
  · refine Or.inr ⟨hbp, ?_⟩
    cases htd : st.world.tData t with
    -- without a table the thread has no breakpoint
    | none => exact absurd hbp (h.tables.idle t htd fd dev hdev)
    | some td =>
      have hlinked := h.tables.linked t td htd
      obtain ⟨hfd, i, hi, hhandle⟩ := hlinked.covered fd dev hdev hbp
      -- two slots with one handle would be the same slot
      refine ⟨td, rfl, i, hi, hhandle, fun j hj hother => ?_⟩
      refine hlinked.injective j i hj hi ?_ (hother.trans hhandle.symm)
      rw [hother]
      exact hfd
  · obtain ⟨hpebs, hon⟩ := h.sampler t fd dev hdev hbp
    exact Or.inl ⟨hpebs, hon, fun fd' dev' hdev' hbp' =>
      h.single t fd' fd dev' dev hdev' hdev hbp' hbp⟩

theorem Ok.inOrder (h : Ok S ownerOf st) : InOrder S st where
  idle := fun t ht => ⟨h.idle t ht, h.sessions.getDevice_idle ht⟩
  session := h.sessions.session
  slots := fun t td htd => (h.tables.linked t td htd).bijection
  sampler := by
    rintro t fd fd' ⟨dev, hdev, hpebs⟩ ⟨dev', hdev', hpebs'⟩
    refine h.single t fd fd' dev dev' hdev hdev' ?_ ?_
    · rw [hpebs]
      nofun
    · rw [hpebs']
      nofun
  devices := h.devices
  listed := by
    refine ⟨h.sessions.agree.index.nodup, fun s fd => ?_⟩
    refine (h.sessions.agree.index.mem s fd).trans (exists_congr fun t => ?_)
    refine (and_iff_left List.not_mem_nil).trans ?_
    exact Platform.sessionOf_eq_some
  resumed := h.resumed
  exits := fun t _ _ hslots hans => exits_iff hslots hans t

end Order

theorem ok_of_run {S : Setup} {ownerOf : ℤ → ℕ} {p : Platform} {sKey : ℤ} {ops : List WitchOp}
    {st : WitchTool} (hopen : p.kernel.openFds.Nodup)
    (hused : Along (step S) (Used S ownerOf) (WitchTool.init p sKey) ops)
    (hrun : exec (step S) (WitchTool.init p sKey) ops = .running () st) : Ok S ownerOf st :=
  exec_invariant (I := Ok S ownerOf) (fun _ _ _ _ h hu hs => (h.step hu hs).ok)
    (Ok.init p sKey hopen) hused hrun

/-- **The tool is in order after every run.** -/
theorem inOrder_of_run (S : Setup) (ownerOf : ℤ → ℕ) (p : Platform) (sKey : ℤ)
    (hopen : p.kernel.openFds.Nodup) (ops : List WitchOp) (st : WitchTool)
    (hused : Along (step S) (Used S ownerOf) (init p sKey) ops)
    (hrun : exec (step S) (init p sKey) ops = .running () st) : InOrder S st :=
  (ok_of_run hopen hused hrun).inOrder

/-- **Threads do not meet.** From any state that a run reaches, whatever other threads do then
leaves the table, the devices and the key of thread `t` alone. -/
theorem untouched_of_run (S : Setup) (ownerOf : ℤ → ℕ) (p : Platform) (sKey : ℤ)
    (hopen : p.kernel.openFds.Nodup) (ops rest : List WitchOp) (st st' : WitchTool) (t : ℕ)
    (hused : Along (step S) (Used S ownerOf) (init p sKey) ops)
    (hrun : exec (step S) (init p sKey) ops = .running () st)
    (hothers : Along (step S) (fun st op => Used S ownerOf st op ∧ op.gettid ≠ t) st rest)
    (hrest : exec (step S) st rest = .running () st') : Untouched st st' t := by
  have hok : Ok S ownerOf st := ok_of_run hopen hused hrun
  refine (exec_invariant (I := fun s => Ok S ownerOf s ∧ Untouched st s t) ?_
    ⟨hok, .refl st t⟩ hothers hrest).2
  rintro s op _ s' ⟨hs, hsame⟩ ⟨hu, hother⟩ hstep
  have hdoes := hs.step hu hstep
  exact ⟨hdoes.ok, hsame.trans (hdoes.other t hother.symm)⟩

/-! ### Two threads -/

/-- A tool with one slot, which removes the devices of the watchpoints it disables. -/
def oneSlot : Setup := { Setup.oneSlot .redSpy with cfg := ⟨false, .auto, 1⟩ }

/-- All system calls succeed, and `perf_event_open` returns `fd`. -/
def opens (fd : ℤ) : RegisterAnswers := ⟨fd, true, true, true, true, true, true⟩

/-- Nothing goes wrong while a sample is handled, and its device gets the handle `fd`. -/
def samples (fd : ℤ) : SampleAnswers := ⟨fun event => (true, event), .success fd⟩

/-- Two threads begin, the first one samples a store, and the breakpoint fires. -/
def storeAndTrap : List WitchOp :=
  [.sessionInit 1 (.success none) (opens 3), .sessionInit 2 (.success none) (opens 4),
    .signal 1 3 (kernelStore 1 0x40) (samples 5) .success,
    .signal 1 5 (kernelStore 2 0x40) (samples 6) .success]

/-- The other thread samples it too, under the handle that has been closed, and ends. -/
def otherThread : List WitchOp :=
  [.signal 2 4 (kernelStore 3 0x40) (samples 5) .success,
    .sessionExit 2 (fun _ => ⟨true, true⟩) fun _ => ⟨true, true⟩]

def ownerOf (s : ℤ) : ℕ := if s = 0 then 1 else 2

/-- The state after `storeAndTrap`. -/
def trapped : WitchTool := (exec (step oneSlot) (init .idle 0) storeAndTrap).state

theorem used_storeAndTrap :
    Along (step oneSlot) (Used oneSlot ownerOf) (init .idle 0) storeAndTrap := by
  refine .cons ⟨rfl, rfl, List.not_mem_nil⟩ rfl (.cons ⟨rfl, rfl, ?_⟩ rfl
    (.cons (freshHandle_of_notMem ?_) rfl (.cons (freshHandle_of_notMem ?_) rfl trivial)))
  · show (4 : ℤ) ∉ [3]
    decide
  · show (5 : ℤ) ∉ [4, 3]
    decide
  · show (6 : ℤ) ∉ [5, 4, 3]
    decide

theorem inOrder_storeAndTrap : InOrder oneSlot trapped :=
  inOrder_of_run oneSlot ownerOf .idle 0 List.nodup_nil storeAndTrap trapped used_storeAndTrap rfl

theorem untouched_otherThread : Untouched trapped
    (exec (step oneSlot) trapped otherThread).state 1 := by
  refine untouched_of_run oneSlot ownerOf .idle 0 List.nodup_nil storeAndTrap otherThread trapped _
    1 used_storeAndTrap rfl
    (.cons ⟨freshHandle_of_notMem ?_, by decide⟩ rfl (.cons ⟨rfl, by decide⟩ rfl trivial)) rfl
  show (5 : ℤ) ∉ [4, 3]
  decide

end WitchTool

end Kognizance
