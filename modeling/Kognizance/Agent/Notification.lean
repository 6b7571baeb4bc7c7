import Mathlib.Data.List.Count
import Kognizance.Platform.SessionKey
import Kognizance.Platform.SessionPause

/-!
# The guest's notification

An event raised on a device of a VCPU is completed later, by a call from the guest:
`kvm__doneEventProcessing_HyPerf` looks the device up under the calling thread, lets
the tool handle the event unless it is filtered, and resumes the devices of the
session that `threadSessionMap` answers for the thread the guest names. Between the
two, devices come and go and sessions end.

* `Guest` is the state, `Guest.step` everything that can happen in it;
  `Guest.doneEventProcessing` is the call, with the calls it makes.
* `Guest.Protocol` says what the call is for: the devices of the session are resumed
  once each, a removed device has no effect, and no null device is used.
* `protocol_iff` says when it does that.
-/

namespace Kognizance

open Process

/-- The options of the build that `kvminterface.cpp` tests. -/
structure BuildOptions where
  considerKernelHeap : Bool
  considerKernelStack : Bool
  deriving DecidableEq, Repr

/-- The address types that are not filtered: `KERNEL_HEAP`, and the kernel's four
kinds of stack. -/
def BuildOptions.considers (b : BuildOptions) (addressType : ℤ) : Bool :=
  b.considerKernelHeap && addressType = 0 ||
    b.considerKernelStack && (addressType = 1 || addressType = 2 || addressType = 3 ||
      addressType = 4)

/-- The arguments of `kvm__doneEventProcessing_HyPerf`, the thread that calls it and what
it is answered. -/
structure Notification where
  gettid : ℕ
  contextFrames : ℕ → ContextFrame
  count : ℤ
  ip : UInt64
  deviceId : ℤ
  threadId : ℤ
  dataAddr : UInt64
  addressType : ℤ
  cpu : ℤ
  clock : UInt64
  /-- What happens to the maps between the look-up of the device and the resume: the
  operations of the tool's handler, and of other threads. -/
  meanwhile : List SessionOp

/-- A call made while a notification is completed; `none` is a null device. -/
inductive AgentCall
  | postAgentProcessing (dev : Option (ℕ × ℤ)) (sessionId : ℤ)
  | toolEventHandler (event : RawEvent) (dev : Option (ℕ × ℤ))
  | enableDevice (k : ℕ × ℤ)
  deriving DecidableEq, Repr

/-- The call is made on a null device or passes one on. -/
def AgentCall.usesNull : AgentCall → Bool
  | .postAgentProcessing none _ => true
  | .toolEventHandler _ none => true
  | _ => false

/-- The tools whose `tool_eventHandler` reads the device. -/
def SampleTool.readsDevice : SampleTool → Bool
  | .sampleTool => false
  | _ => true

/-- The loop over the frames of the guest's stack. Frames are kept from the first one on
whose address repeats that of the frame before it; the first three are never looked at. -/
def recordFrames : ℤ → Bool → List ContextFrame → List ContextFrame
  | _, _, [] => []
  | prev, startRecording, f :: fs =>
    let startRecording := startRecording || prev = f.binary_addr
    (if startRecording then [f] else []) ++ recordFrames f.binary_addr startRecording fs

/-- The process with its guest. -/
structure Guest where
  registry : Registry
  keys : KeyRun
  requestWillBeNotified : Bool
  eKey : ℤ
  eventMap : ℤ → Option RawEvent
  /-- The devices an event was raised on. -/
  raised : List (ℕ × ℤ)

/-- What happens next. -/
inductive GuestInput
  | session (op : SessionOp)
  | key (op : KeyOp)
  | eventWillbeHandledByOS (val : Bool)
  /-- `dev_signal_handler` of a device in the map passes an event to the guest. -/
  | raise (k : ℕ × ℤ)
  | doneEventProcessing (n : Notification)

namespace Guest

def init (p : Platform) (fOwnerEx : ℤ → ℕ) : Guest where
  registry := Registry.init p fOwnerEx
  keys := .init
  requestWillBeNotified := true
  eKey := 0
  eventMap := fun _ => none
  raised := []

/-- `generate_event_key`: `eKey` is an `int` and wraps around. -/
def generateEventKey (st : Guest) : ℤ × Guest :=
  (st.eKey, { st with eKey := (st.eKey + 1).bmod (2 ^ 32) })

/-- The event built from the arguments of a notification. -/
def newEvent (n : Notification) (eventId : ℤ) : RawEvent :=
  { RawEvent.new with
    deviceFileId := n.deviceId
    eventId := eventId
    event_time := n.clock
    sample_index := UInt64.ofInt eventId
    h_tId := n.threadId
    h_data_addr := n.dataAddr
    data_addr := n.dataAddr
    h_ip_addr := n.ip
    ip_addr := n.ip
    addressSpaceType := n.addressType
    cpu := n.cpu
    isFixed := false
    eventContext_agent :=
      recordFrames 0 false ((List.range' 3 (n.count - 3).toNat).map n.contextFrames) }

/-- `postAgentProcessing` of a device, if there is one, for the event, if there is one. -/
def postAgentProcessing (tool : SampleTool) (getpid : ℕ) (st : Guest) (n : Notification)
    (dev : Option (ℕ × ℤ)) (event : Option RawEvent) (sessionId : ℤ) :
    List AgentCall × Outcome Guest Unit :=
  let handled :=
    if st.requestWillBeNotified then
      event.toList.map fun event => AgentCall.toolEventHandler event dev
    else []
  -- the tool's handler asks a null device for its type
  if dev = none ∧ handled ≠ [] ∧ tool.readsDevice then (handled, .ended .segv st)
  else
    match exec (Registry.step getpid) st.registry n.meanwhile with
    | .ended h r => (handled, .ended h { st with registry := r })
    | .running _ r =>
      let resumed :=
        if st.requestWillBeNotified then r.platform.resumeDevicesBySession n.gettid sessionId
        else []
      (handled ++ resumed.map AgentCall.enableDevice, .running () { st with registry := r })

/-- `done_processEvent`. A device that is not found is reported and used all the same. -/
def doneProcessEvent (tool : SampleTool) (getpid : ℕ) (st : Guest) (n : Notification)
    (event : Option RawEvent) (sessionId : ℤ) : List AgentCall × Outcome Guest Unit :=
  let dev := (st.registry.platform.getDevice n.gettid n.deviceId).map
    fun _ => (n.gettid, n.deviceId)
  let post := st.postAgentProcessing tool getpid n dev event sessionId
  (.postAgentProcessing dev sessionId :: post.1, post.2)

/-- `kvm__doneEventProcessing_HyPerf`. -/
def doneEventProcessing (b : BuildOptions) (tool : SampleTool) (getpid : ℕ) (st : Guest)
    (n : Notification) : List AgentCall × Outcome Guest Unit :=
  let sessionId := st.keys.keys.answer n.threadId
  let asked := { st with keys := st.keys.step tool (.query n.threadId) }
  if n.ip = 0 then asked.doneProcessEvent tool getpid n none sessionId
  else if b.considers n.addressType then
    let event := newEvent n asked.generateEventKey.1
    let kept := asked.generateEventKey.2
    { kept with eventMap := Function.update kept.eventMap event.eventId (some event)
      }.doneProcessEvent tool getpid n (some event) sessionId
  else asked.doneProcessEvent tool getpid n none sessionId

def step (b : BuildOptions) (tool : SampleTool) (getpid : ℕ) (st : Guest) :
    GuestInput → Outcome Guest Unit
  | .session op =>
    match st.registry.step getpid op with
    | .ended h r => .ended h { st with registry := r }
    | .running _ r => .running () { st with registry := r }
  | .key op => .running () { st with keys := st.keys.step tool op }
  | .eventWillbeHandledByOS val => .running () { st with requestWillBeNotified := val }
  | .raise k =>
    if st.registry.platform.getDevice k.1 k.2 = none then .running () st
    else .running () { st with raised := k :: st.raised }
  | .doneEventProcessing n => (st.doneEventProcessing b tool getpid n).2

/-- How the operations on the maps are used, those during a notification included. -/
def Used (ownerOf : ℤ → ℕ) (getpid : ℕ) (st : Guest) : GuestInput → Prop
  | .session op => Registry.Used ownerOf st.registry op
  | .doneEventProcessing n =>
    Along (Registry.step getpid) (Registry.Used ownerOf) st.registry n.meanwhile
  | _ => True

/-- The enabled devices of the session that thread `threadId` has, in the maps `r`. -/
def Due (st : Guest) (threadId : ℤ) (r : Registry) (k : ℕ × ℤ) : Prop :=
  ∃ s, st.keys.live threadId = some s ∧ r.platform.Due s k

/-- What completing a notification is for. `r` are the maps at the resume. -/
structure Protocol (b : BuildOptions) (tool : SampleTool) (getpid : ℕ) (st : Guest)
    (n : Notification) : Prop where
  resumed : st.registry.platform.getDevice n.gettid n.deviceId ≠ none →
    ∀ r, exec (Registry.step getpid) st.registry n.meanwhile = .running () r →
      ∀ k, st.Due n.threadId r k →
        (st.doneEventProcessing b tool getpid n).1.count (.enableDevice k) = 1
  removed : (n.gettid, n.deviceId) ∈ st.raised →
    st.registry.platform.getDevice n.gettid n.deviceId = none →
      (st.doneEventProcessing b tool getpid n).1 = [] ∧
        (st.doneEventProcessing b tool getpid n).2 = .running () st
  noNull : (st.doneEventProcessing b tool getpid n).1.any AgentCall.usesNull = false

/-- The resume of a notification reaches a device of the maps `r`. -/
structure Reaches (st : Guest) (n : Notification) (r : Registry) (k : ℕ × ℤ) : Prop where
  notified : st.requestWillBeNotified = true
  key : st.keys.live n.threadId = some (st.keys.keys.answer n.threadId)
  own : k.1 = n.gettid
  complete : (n.gettid, k.2, st.keys.keys.answer n.threadId) ∉ r.registering

variable {b : BuildOptions} {tool : SampleTool} {ownerOf : ℤ → ℕ} {getpid : ℕ} {st st' : Guest}
  {n : Notification}

/-- **Every branch comes to `done_processEvent`**, with the maps as they were. -/
theorem doneEventProcessing_eq (b : BuildOptions) (tool : SampleTool) (getpid : ℕ) (st : Guest)
    (n : Notification) :
    ∃ (event : Option RawEvent) (st' : Guest), st.doneEventProcessing b tool getpid n =
        st'.doneProcessEvent tool getpid n event (st.keys.keys.answer n.threadId) ∧
      st'.registry = st.registry ∧ st'.requestWillBeNotified = st.requestWillBeNotified := by
  unfold doneEventProcessing
  dsimp only
  split_ifs
  · exact ⟨none, _, rfl, rfl, rfl⟩
  · exact ⟨some _, _, rfl, rfl, rfl⟩
  · exact ⟨none, _, rfl, rfl, rfl⟩

/-- A null device is used as soon as the device is not found. -/
theorem usesNull_iff :
    (st.doneEventProcessing b tool getpid n).1.any AgentCall.usesNull = true ↔
      st.registry.platform.getDevice n.gettid n.deviceId = none := by
  obtain ⟨event, st', heq, hreg, -⟩ := doneEventProcessing_eq b tool getpid st n
  rw [heq, doneProcessEvent, hreg]
  cases hdev : st.registry.platform.getDevice n.gettid n.deviceId with
  | none => simp [AgentCall.usesNull]
  | some dev =>
    -- neither the tool nor the resume is handed a null device
    have hhandled : ∀ c ∈ (if st'.requestWillBeNotified then
        event.toList.map fun event => AgentCall.toolEventHandler event
          (some (n.gettid, n.deviceId)) else []), c.usesNull = false := by
      intro c hc
      split_ifs at hc
      · obtain ⟨e, -, rfl⟩ := List.mem_map.mp hc
        rfl
      · cases hc
    refine iff_of_false ?_ (Option.some_ne_none dev)
    rw [Bool.not_eq_true, List.any_eq_false]
    intro c hc
    rcases List.mem_cons.mp hc with rfl | hc
    · exact Bool.false_ne_true
    unfold postAgentProcessing at hc
    dsimp only [Option.map_some] at hc
    rw [if_neg (by simp)] at hc
    cases hr : exec (Registry.step getpid) st'.registry n.meanwhile with
    | ended h r =>
      rw [hr] at hc
      rw [hhandled c hc]
      exact Bool.false_ne_true
    | running u r =>
      rw [hr] at hc
      rcases List.mem_append.mp hc with hc | hc
      · rw [hhandled c hc]
        exact Bool.false_ne_true
      · obtain ⟨k, -, rfl⟩ := List.mem_map.mp hc
        exact Bool.false_ne_true

/-- How often a device is resumed when the device of the event is found. -/
theorem count_enableDevice {r : Registry}
    (hdev : st.registry.platform.getDevice n.gettid n.deviceId ≠ none)
    (hr : exec (Registry.step getpid) st.registry n.meanwhile = .running () r) (k : ℕ × ℤ) :
    (st.doneEventProcessing b tool getpid n).1.count (.enableDevice k) =
      if st.requestWillBeNotified then
        (r.platform.resumeDevicesBySession n.gettid (st.keys.keys.answer n.threadId)).count k
      else 0 := by
  obtain ⟨event, st', heq, hreg, hnot⟩ := doneEventProcessing_eq b tool getpid st n
  obtain ⟨dev, hdev⟩ := Option.ne_none_iff_exists'.mp hdev
  have hinj : Function.Injective AgentCall.enableDevice := fun a b h => AgentCall.enableDevice.inj h
  rw [heq, doneProcessEvent, postAgentProcessing, hreg, hnot, hdev]
  simp only [Option.map_some, reduceCtorEq, false_and, if_false, hr]
  rw [List.count_cons_of_ne (by simp), List.count_append]
  cases st.requestWillBeNotified with
  | false => simp
  | true =>
    rw [if_pos rfl, if_pos rfl, if_pos rfl, List.count_map_of_injective _ _ hinj]
    -- what the tool is called with is no resume
    have hzero : (event.toList.map fun event => AgentCall.toolEventHandler event
        (some (n.gettid, n.deviceId))).count (.enableDevice k) = 0 := by
      refine List.count_eq_zero.mpr fun hmem => ?_
      obtain ⟨e, -, he⟩ := List.mem_map.mp hmem
      cases he
    rw [hzero, Nat.zero_add]

/-! ### The maps agree along a run -/

/-- What completing a notification does to the maps. -/
theorem registry_of_done
    (hs : (st.doneEventProcessing b tool getpid n).2 = .running () st') :
    exec (Registry.step getpid) st.registry n.meanwhile = .running () st'.registry := by
  obtain ⟨event, st₁, heq, hreg, -⟩ := doneEventProcessing_eq b tool getpid st n
  rw [heq, doneProcessEvent, postAgentProcessing] at hs
  dsimp only at hs
  rw [← hreg]
  cases hr : exec (Registry.step getpid) st₁.registry n.meanwhile with
  | ended h r =>
    rw [hr] at hs
    split_ifs at hs
  | running u r =>
    rw [hr] at hs
    split_ifs at hs
    · obtain rfl := (Outcome.running.inj hs).2
      rfl
    · obtain rfl := (Outcome.running.inj hs).2
      rfl

theorem agree_step {i : GuestInput} (h : Registry.Agree ownerOf st.registry)
    (hu : Used ownerOf getpid st i) (hs : step b tool getpid st i = .running () st') :
    Registry.Agree ownerOf st'.registry := by
  -- only the operations on the registry change the maps
  cases i with
  | session op =>
    cases hr : st.registry.step getpid op with
    | ended e r => simp [step, hr] at hs
    | running u r =>
      obtain rfl : { st with registry := r } = st' := by simpa [step, hr] using hs
      exact h.step hu hr
  | key op =>
    obtain rfl := (Outcome.running.inj hs).2
    exact h
  | eventWillbeHandledByOS val =>
    obtain rfl := (Outcome.running.inj hs).2
    exact h
  -- an event that is raised touches no map
  | raise k =>
    dsimp only [step] at hs
    split_ifs at hs
    · obtain rfl := (Outcome.running.inj hs).2
      exact h
    · obtain rfl := (Outcome.running.inj hs).2
      exact h
  -- a notification runs the operations of the other threads that come meanwhile
  | doneEventProcessing n =>
    exact exec_invariant (fun _ _ _ _ h hu hs => h.step hu hs) h hu (registry_of_done hs)

/-- A device that is due is resumed once when the resume reaches it, and not at all
otherwise. -/
theorem count_eq_one_iff_reaches {r : Registry} {k : ℕ × ℤ}
    (hagree : Registry.Agree ownerOf st.registry)
    (hn : Used ownerOf getpid st (.doneEventProcessing n))
    (hdev : st.registry.platform.getDevice n.gettid n.deviceId ≠ none)
    (hr : exec (Registry.step getpid) st.registry n.meanwhile = .running () r)
    (hk : st.Due n.threadId r k) :
    (st.doneEventProcessing b tool getpid n).1.count (.enableDevice k) = 1 ↔ st.Reaches n r k := by
  obtain ⟨s, hlive, hdue⟩ := hk
  -- the maps agree at the resume too, whatever happened while the tool was busy
  have hr' : Registry.Agree ownerOf r :=
    exec_invariant (fun _ _ _ _ h hu hs => h.step hu hs) hagree hn hr
  have hnodup := Platform.pauseDevicesBySession_nodup hr'.index.nodup n.gettid
    (st.keys.keys.answer n.threadId)
  rw [count_enableDevice hdev hr, Platform.resumeDevicesBySession_eq]
  constructor
  · intro hone
    split_ifs at hone with hnot
    have hmem := hr'.mem_pause.mp (List.count_pos_iff.mp (hone ▸ Nat.one_pos))
    obtain ⟨⟨dev, hd, hsess, -⟩, hown, hlate⟩ := hmem
    obtain ⟨dev', hd', hsess', -⟩ := hdue
    -- the device has one session, so the answer is the session's key
    obtain rfl := Option.some.inj (hd.symm.trans hd')
    refine ⟨hnot, ?_, hown, hlate⟩
    rw [hlive, ← hsess, ← hsess']
  · rintro ⟨hnot, hkey, hown, hlate⟩
    obtain rfl := Option.some.inj (hlive.symm.trans hkey)
    rw [if_pos hnot]
    exact List.count_eq_one_of_mem hnodup (hr'.mem_pause.mpr ⟨hdue, hown, hlate⟩)

/-- **When a notification is completed as it should be.** In every state a run reaches,
it is exactly when the device is still registered for the calling thread and the resume
reaches every enabled device of the session of the thread that the guest names. -/
theorem protocol_iff (b : BuildOptions) (tool : SampleTool) (ownerOf : ℤ → ℕ) (getpid : ℕ)
    (p : Platform) (fOwnerEx : ℤ → ℕ) (is : List GuestInput) (st : Guest)
    (hused : Along (step b tool getpid) (Used ownerOf getpid) (init p fOwnerEx) is)
    (hrun : exec (step b tool getpid) (init p fOwnerEx) is = .running () st) (n : Notification)
    (hn : Used ownerOf getpid st (.doneEventProcessing n)) :
    Protocol b tool getpid st n ↔
      st.registry.platform.getDevice n.gettid n.deviceId ≠ none ∧
      ∀ r, exec (Registry.step getpid) st.registry n.meanwhile = .running () r →
        ∀ k, st.Due n.threadId r k → st.Reaches n r k := by
  -- the two maps agree at every point of the run
  have hagree : Registry.Agree ownerOf st.registry :=
    exec_invariant (I := fun st => Registry.Agree ownerOf st.registry)
      (fun _ _ _ _ h hu hs => agree_step h hu hs) (Registry.Agree.init p fOwnerEx) hused hrun
  constructor
  · intro h
    -- a device that is not there is the null pointer that is used
    have hdev : st.registry.platform.getDevice n.gettid n.deviceId ≠ none := by
      intro hnone
      have hnull := h.noNull
      rw [usesNull_iff.mpr hnone] at hnull
      cases hnull
    refine ⟨hdev, fun r hr k hk => ?_⟩
    exact (count_eq_one_iff_reaches hagree hn hdev hr hk).mp (h.resumed hdev r hr k hk)
  · rintro ⟨hdev, hreach⟩
    -- the device is there, so nothing is called on a null pointer
    refine ⟨fun _ r hr k hk => ?_, fun _ hnone => absurd hnone hdev, ?_⟩
    · exact (count_eq_one_iff_reaches hagree hn hdev hr hk).mpr (hreach r hr k hk)
    · cases hnull : (st.doneEventProcessing b tool getpid n).1.any AgentCall.usesNull with
      | false => rfl
      | true => exact absurd (usesNull_iff.mp hnull) hdev

/-- Thread 5 starts a session and registers a device for it, whose event is raised. -/
def raisedOnce : List GuestInput :=
  [.key (.sessionInit 5),
    .session (.addNewDevice 5 (BPDevice 1 1 64) 0 ⟨7, true, true, true, true, true, true⟩),
    .session (.addNewDeviceToSession 5 7 0), .raise (5, 7)]

/-- The guest is done with the event, and found no instruction for it. -/
def doneAtZero : Notification where
  gettid := 5
  contextFrames := fun _ => ⟨0, 0⟩
  count := 0
  ip := 0
  deviceId := 7
  threadId := 5
  dataAddr := 64
  addressType := 0
  cpu := 0
  clock := 0
  meanwhile := []

/-- The state after these inputs, in the process 5 with the EBS tool. -/
def guestAfter (is : List GuestInput) : Guest :=
  (exec (step ⟨true, false⟩ .sampleEBSTool 5)
    (init ⟨∅, [], fun _ => 0, ⟨[], []⟩⟩ fun _ => 0) is).state

theorem protocol_raisedOnce :
    Protocol ⟨true, false⟩ .sampleEBSTool 5 (guestAfter raisedOnce) doneAtZero := by
  refine (protocol_iff ⟨true, false⟩ .sampleEBSTool (fun _ => 5) 5 _ _ raisedOnce _ ?_ rfl
    doneAtZero trivial).mpr ⟨by decide, ?_⟩
  · exact .cons trivial rfl (.cons ⟨rfl, List.not_mem_nil⟩ rfl (.cons trivial rfl (.cons trivial rfl
      trivial)))
  · rintro r hr k ⟨s, hs, dev, hdev, -⟩
    obtain rfl := (Outcome.running.inj hr).2
    -- the one device of the maps is thread 5's
    have hk : k = (5, 7) := by
      by_contra hne
      have hnone : (guestAfter raisedOnce).registry.platform.getDevice k.1 k.2 = none :=
        AList.lookup_insert_ne hne
      cases hnone.symm.trans hdev
    subst hk
    exact ⟨rfl, rfl, rfl, by decide⟩

/-- The session has ended before the guest is done: the null device is used. -/
theorem protocol_broken :
    ¬ Protocol ⟨true, false⟩ .sampleEBSTool 5
      (guestAfter (raisedOnce ++
        [.session (.removeDeviceBySession 5 0 fun _ => ⟨true, true⟩), .key (.sessionExit 5)]))
      doneAtZero := by
  intro h
  exact Bool.noConfusion ((usesNull_iff.mpr (by decide)).symm.trans h.noNull)

end Guest

end Kognizance
