import Mathlib.Data.List.Nodup
import Kognizance.Platform.Event

/-!
# The frames of the native agent

`agent_retrieveBacktrace` of the native agent walks the stack and constructs a
`ContextFrame` for every frame it comes to. It keeps one frame for each function it can
name, from the signal frame on, and deletes the others at once. `processEvent` then copies
`eventContext_host` into `eventContext_agent`: the pointers, not the frames. `~Event`
deletes what it finds in both.

* `Backtrace.Accounted`: in the loop, every frame is either deleted or on the list.
* `backtrace_eq_nil_iff`: which stacks leave the list empty.
* `releasedOnce_iff`: these are the stacks whose frames are released exactly once.
-/

namespace Kognizance

/-- `Symbol`, by the keys of `symbolMap` -/
structure Symbol where
  symbolMap : List ℤ
  sorted : symbolMap.Pairwise (· ≤ ·)

/-- `getStartAddress` -/
def Symbol.getStartAddress (symbol : Symbol) (addr : ℤ) : ℤ :=
  -- what is before `lower_bound`, and what is from there on
  match (symbol.symbolMap.takeWhile (· < addr)).getLast?,
      symbol.symbolMap.dropWhile (· < addr) with
  | none, _ => addr
  | some _, [] => -1
  | some previous, found :: _ => if addr ∈ symbol.symbolMap then found else previous

namespace NativeAgent

/-- A `ContextFrame` on the heap, with the number of its construction. -/
structure FramePtr where
  self : ℕ
  frame : ContextFrame
  deriving DecidableEq, Repr

/-- What the agent uses of an `Event`, and the two vectors of pointers. -/
structure HostEvent where
  h_ip_addr : UInt64
  h_data_addr : UInt64
  h_cpu : ℤ
  h_pId : ℤ
  h_tId : ℤ
  ip_addr : UInt64
  data_addr : UInt64
  cpu : ℤ
  pId : ℤ
  tId : ℤ
  eventContext_host : List FramePtr
  eventContext_agent : List FramePtr
  deriving Repr

/-- An event as `handle_perf_event` hands it on. The parser enters no frames. -/
def HostEvent.parsed (raw : RawEvent) : HostEvent where
  h_ip_addr := raw.h_ip_addr
  h_data_addr := raw.h_data_addr
  h_cpu := raw.h_cpu
  h_pId := raw.h_pId
  h_tId := raw.h_tId
  ip_addr := raw.ip_addr
  data_addr := raw.data_addr
  cpu := raw.cpu
  pId := 0
  tId := 0
  eventContext_host := []
  eventContext_agent := []

/-- A frame of the stack, as `unw_step` comes to it. -/
structure UnwStep where
  ip : UInt64
  signalFrame : Bool
  deriving DecidableEq, Repr

/-- `(long)ip` -/
def toLong (ip : UInt64) : ℤ := ip.toInt64.toInt

/-- The variables of `agent_retrieveBacktrace`, with the vector it fills and the frames it
has constructed and deleted. -/
structure Backtrace where
  inSignalFrame : Bool
  parent_context_ip : ℤ
  map_for_recursion : List ℤ
  eventContext_host : List FramePtr
  constructed : ℕ
  /-- The last one first. -/
  deleted : List ℕ
  deriving Repr

/-- The body of the loop, over any `getStartAddress`. -/
def unwindStepBy (getStartAddress : ℤ → ℤ) (h_ip_addr : UInt64) (s : Backtrace) (step : UnwStep) :
    Backtrace :=
  let blank : ContextFrame := ⟨0, 0⟩
  let frame := if s.inSignalFrame then blank else { blank with binary_addr := toLong step.ip }
  let inSignalFrame := s.inSignalFrame && !step.signalFrame
  -- the precise address takes the place of the one of the signal frame
  let frame := if step.signalFrame then { frame with binary_addr := toLong h_ip_addr } else frame
  let contextFrame : FramePtr := ⟨s.constructed, frame⟩
  let s := { s with inSignalFrame := inSignalFrame, constructed := s.constructed + 1 }
  let fn_start := getStartAddress (toLong step.ip)
  if fn_start ≠ -1 ∧ inSignalFrame = false ∧ s.parent_context_ip ≠ toLong step.ip then
    if fn_start ∈ s.map_for_recursion then
      { s with deleted := contextFrame.self :: s.deleted }
    else
      { s with
        map_for_recursion := fn_start :: s.map_for_recursion
        eventContext_host := s.eventContext_host ++ [contextFrame]
        parent_context_ip := toLong step.ip }
  else { s with deleted := contextFrame.self :: s.deleted }

/-- `agent_retrieveBacktrace`, over any `getStartAddress`. -/
def agentRetrieveBacktraceBy (getStartAddress : ℤ → ℤ) (event : HostEvent) (steps : List UnwStep) :
    Backtrace :=
  steps.foldl (unwindStepBy getStartAddress event.h_ip_addr)
    { inSignalFrame := true
      parent_context_ip := -1
      map_for_recursion := []
      eventContext_host := event.eventContext_host
      constructed := 0
      deleted := [] }

/-- The body of the loop, over the symbols of the program. -/
def unwindStep (symbol : Symbol) : UInt64 → Backtrace → UnwStep → Backtrace :=
  unwindStepBy symbol.getStartAddress

/-- `agent_retrieveBacktrace` -/
def agentRetrieveBacktrace (symbol : Symbol) : HostEvent → List UnwStep → Backtrace :=
  agentRetrieveBacktraceBy symbol.getStartAddress

/-- `processEvent` -/
def processEvent (event : HostEvent) : HostEvent :=
  { event with
    ip_addr := event.h_ip_addr
    data_addr := event.h_data_addr
    cpu := event.h_cpu
    pId := event.h_pId
    tId := event.h_tId
    eventContext_agent := event.eventContext_host }

/-- The frames `~Event` deletes, in its order. -/
def HostEvent.released (event : HostEvent) : List ℕ :=
  event.eventContext_agent.reverse.map FramePtr.self ++
    event.eventContext_host.reverse.map FramePtr.self

/-- The event after the agent has had it. -/
def agentEvent (symbol : Symbol) (raw : RawEvent) (steps : List UnwStep) : HostEvent :=
  let event := HostEvent.parsed raw
  processEvent { event with
    eventContext_host := (agentRetrieveBacktrace symbol event steps).eventContext_host }

/-- Every frame constructed for the event is released exactly once. -/
structure ReleasedOnce (symbol : Symbol) (raw : RawEvent) (steps : List UnwStep) : Prop where
  /-- the frames that were pushed, by the destructor -/
  pushed : ∀ p ∈ (agentRetrieveBacktrace symbol (.parsed raw) steps).eventContext_host,
    (agentEvent symbol raw steps).released.count p.self = 1
  nodup : (agentEvent symbol raw steps).released.Nodup
  /-- all frames, by the loop or by the destructor -/
  every : ∀ id < (agentRetrieveBacktrace symbol (.parsed raw) steps).constructed,
    ((agentRetrieveBacktrace symbol (.parsed raw) steps).deleted
      ++ (agentEvent symbol raw steps).released).count id = 1

/-! ### The loop -/

section Loop

variable {symbol : Symbol} {h_ip_addr : UInt64} {s : Backtrace}

/-- The frame passes the tests of the loop. -/
def Names (symbol : Symbol) (s : Backtrace) (step : UnwStep) : Prop :=
  symbol.getStartAddress (toLong step.ip) ≠ -1 ∧ (s.inSignalFrame && !step.signalFrame) = false ∧
    s.parent_context_ip ≠ toLong step.ip ∧
    symbol.getStartAddress (toLong step.ip) ∉ s.map_for_recursion

/-- **What one round does.** The frame constructed is pushed, or it is deleted. -/
theorem unwindStep_cases (symbol : Symbol) (h_ip_addr : UInt64) (s : Backtrace) (step : UnwStep) :
    (Names symbol s step ∧ ∃ frame, unwindStep symbol h_ip_addr s step =
      { inSignalFrame := s.inSignalFrame && !step.signalFrame
        parent_context_ip := toLong step.ip
        map_for_recursion := symbol.getStartAddress (toLong step.ip) :: s.map_for_recursion
        eventContext_host := s.eventContext_host ++ [⟨s.constructed, frame⟩]
        constructed := s.constructed + 1
        deleted := s.deleted }) ∨
    (¬ Names symbol s step ∧ unwindStep symbol h_ip_addr s step =
      { s with
        inSignalFrame := s.inSignalFrame && !step.signalFrame
        constructed := s.constructed + 1
        deleted := s.constructed :: s.deleted }) := by
  unfold unwindStep unwindStepBy
  by_cases htests : symbol.getStartAddress (toLong step.ip) ≠ -1 ∧
      (s.inSignalFrame && !step.signalFrame) = false ∧ s.parent_context_ip ≠ toLong step.ip
  · simp only [if_pos htests]
    by_cases hknown : symbol.getStartAddress (toLong step.ip) ∈ s.map_for_recursion
    · rw [if_pos hknown]
      exact Or.inr ⟨fun h => h.2.2.2 hknown, rfl⟩
    · -- the frame is kept, and its function remembered
      rw [if_neg hknown]
      exact Or.inl ⟨⟨htests.1, htests.2.1, htests.2.2, hknown⟩, _, rfl⟩
  · simp only [if_neg htests]
    exact Or.inr ⟨fun h => htests ⟨h.1, h.2.1, h.2.2.1⟩, trivial⟩

/-- Every frame constructed so far has been deleted or is on the list, and none is both. -/
def Backtrace.Accounted (s : Backtrace) : Prop :=
  (s.deleted ++ s.eventContext_host.map FramePtr.self).Perm (List.range s.constructed)

theorem Backtrace.Accounted.step (h : s.Accounted) (step : UnwStep) :
    (unwindStep symbol h_ip_addr s step).Accounted := by
  have hnew : ((s.deleted ++ s.eventContext_host.map FramePtr.self) ++ [s.constructed]).Perm
      (List.range (s.constructed + 1)) := by
    rw [List.range_succ]
    exact h.append_right [s.constructed]
  unfold Backtrace.Accounted
  -- the fresh frame comes last on the list, or first among the deleted ones
  rcases unwindStep_cases symbol h_ip_addr s step with ⟨-, frame, heq⟩ | ⟨-, heq⟩
  · rw [heq, List.map_append, ← List.append_assoc]
    exact hnew
  · rw [heq, List.cons_append]
    exact (List.perm_append_singleton _ _).symm.trans hnew

theorem accounted_of_loop (h : s.Accounted) (steps : List UnwStep) :
    (steps.foldl (unwindStep symbol h_ip_addr) s).Accounted := by
  induction steps generalizing s with
  | nil => exact h
  | cons step steps ih => exact ih (h.step step)

/-- Before the first frame is pushed, the loop remembers nothing. -/
def Backtrace.Blank (s : Backtrace) : Prop :=
  s.eventContext_host = [] → s.parent_context_ip = -1 ∧ s.map_for_recursion = []

theorem Backtrace.Blank.step (h : s.Blank) (step : UnwStep) :
    (unwindStep symbol h_ip_addr s step).Blank := by
  rcases unwindStep_cases symbol h_ip_addr s step with ⟨-, frame, heq⟩ | ⟨-, heq⟩
  · rw [heq]
    exact fun hnil => absurd hnil (List.append_ne_nil_of_right_ne_nil _ (List.cons_ne_nil _ _))
  · rw [heq]
    exact h

/-- The loop can name no function for the frame. -/
def Nameless (symbol : Symbol) (step : UnwStep) : Prop :=
  symbol.getStartAddress (toLong step.ip) = -1 ∨ toLong step.ip = -1

/-- The frames of the stack from the signal frame on. -/
def interrupted (steps : List UnwStep) : List UnwStep :=
  steps.dropWhile fun step => !step.signalFrame

theorem names_iff_of_blank (h : s.Blank) (hnil : s.eventContext_host = []) (step : UnwStep) :
    Names symbol s step ↔
      (s.inSignalFrame && !step.signalFrame) = false ∧ ¬ Nameless symbol step := by
  obtain ⟨hparent, hmap⟩ := h hnil
  -- with nothing remembered, the test for recursion passes, and `parent_context_ip` is -1
  unfold Names Nameless
  rw [hparent, hmap, not_or]
  constructor
  · rintro ⟨hstart, hsignal, hip, -⟩
    exact ⟨hsignal, hstart, hip.symm⟩
  · rintro ⟨hsignal, hstart, hip⟩
    exact ⟨hstart, hsignal, Ne.symm hip, List.not_mem_nil⟩

/-- The list stays empty as long as no frame past the signal frame can be named. -/
theorem loop_eq_nil_iff (h : s.Blank) (steps : List UnwStep) :
    (steps.foldl (unwindStep symbol h_ip_addr) s).eventContext_host = [] ↔
      s.eventContext_host = [] ∧
        ∀ step ∈ if s.inSignalFrame then interrupted steps else steps, Nameless symbol step := by
  -- over the stack; the signal frame switches from the first list to the second
  induction steps generalizing s with
  | nil =>
    have hnone : (if s.inSignalFrame then interrupted [] else []) = [] := ite_self []
    rw [hnone]
    exact (and_iff_left (List.forall_mem_nil _)).symm
  | cons step steps ih =>
    rw [List.foldl_cons, ih (h.step step)]
    rcases unwindStep_cases symbol h_ip_addr s step with ⟨hnames, frame, heq⟩ | ⟨hnot, heq⟩
    · -- a frame that is pushed stays on the list
      rw [heq]
      simp only [List.append_eq_nil_iff, List.cons_ne_nil, and_false, false_and, false_iff]
      rintro ⟨hnil, hall⟩
      rw [names_iff_of_blank h hnil] at hnames
      refine hnames.2 (hall step ?_)
      cases hsignal : s.inSignalFrame with
      | false => exact List.mem_cons_self
      | true =>
        have hframe : step.signalFrame = true := by simpa [hsignal] using hnames.1
        simp [interrupted, hframe]
    · -- a frame that is not pushed lies before the signal frame, or has no name
      rw [heq]
      refine and_congr_right fun hnil => ?_
      rw [names_iff_of_blank h hnil, not_and_not_right] at hnot
      cases hsignal : s.inSignalFrame with
      | false =>
        have hnameless := hnot (by simp [hsignal])
        simp [hnameless]
      | true =>
        cases hframe : step.signalFrame with
        | false => simp [interrupted, hframe]
        | true =>
          have hnameless := hnot (by simp [hframe])
          simp [interrupted, hframe, hnameless]

/-- **Which stacks leave the list empty.** -/
theorem backtrace_eq_nil_iff (symbol : Symbol) (raw : RawEvent) (steps : List UnwStep) :
    (agentRetrieveBacktrace symbol (.parsed raw) steps).eventContext_host = [] ↔
      ∀ step ∈ interrupted steps, Nameless symbol step := by
  have hblank : Backtrace.Blank ⟨true, -1, [], [], 0, []⟩ := fun _ => ⟨rfl, rfl⟩
  exact (loop_eq_nil_iff hblank steps).trans (and_iff_right rfl)

end Loop

/-! ### The destructor -/

/-- The copies of the pointers are released as well. -/
theorem agentEvent_released (symbol : Symbol) (raw : RawEvent) (steps : List UnwStep) :
    let pushed := (agentRetrieveBacktrace symbol (.parsed raw) steps).eventContext_host
    (agentEvent symbol raw steps).released
      = pushed.reverse.map FramePtr.self ++ pushed.reverse.map FramePtr.self := rfl

/-- A frame that was pushed is released twice. -/
theorem not_releasedOnce {symbol : Symbol} {raw : RawEvent} {steps : List UnwStep}
    (h : (agentRetrieveBacktrace symbol (.parsed raw) steps).eventContext_host ≠ []) :
    ¬ ReleasedOnce symbol raw steps := by
  intro honce
  -- any frame on the list is in both halves of the destructor's list
  obtain ⟨p, hp⟩ := List.exists_mem_of_ne_nil _ h
  have hnodup := honce.nodup
  rw [agentEvent_released, List.nodup_append] at hnodup
  have hmem : p.self ∈ (agentRetrieveBacktrace symbol (.parsed raw)
      steps).eventContext_host.reverse.map FramePtr.self :=
    List.mem_map_of_mem (List.mem_reverse.mpr hp)
  exact hnodup.2.2 p.self hmem p.self hmem rfl

/-- **The frames of an event are released exactly once** iff there are none on its list: the
loop can name no function from the signal frame on. -/
theorem releasedOnce_iff (symbol : Symbol) (raw : RawEvent) (steps : List UnwStep) :
    ReleasedOnce symbol raw steps ↔ ∀ step ∈ interrupted steps, Nameless symbol step := by
  rw [← backtrace_eq_nil_iff symbol raw]
  constructor
  · intro honce
    by_contra hne
    exact not_releasedOnce hne honce
  · intro hnil
    have hreleased : (agentEvent symbol raw steps).released = [] := by
      rw [agentEvent_released, hnil]
      rfl
    refine ⟨?_, ?_, ?_⟩
    · rw [hnil]
      exact fun p hp => absurd hp List.not_mem_nil
    · rw [hreleased]
      exact List.nodup_nil
    · -- everything was deleted in the loop
      intro id hid
      have hstart : Backtrace.Accounted ⟨true, -1, [], [], 0, []⟩ := List.Perm.refl []
      have hall : (agentRetrieveBacktrace symbol (.parsed raw) steps).Accounted :=
        accounted_of_loop hstart steps
      unfold Backtrace.Accounted at hall
      rw [hnil, List.map_nil, List.append_nil] at hall
      rw [hreleased, List.append_nil, hall.count_eq]
      exact List.count_eq_one_of_mem List.nodup_range (List.mem_range.mpr hid)

/-! ### A signal in `main` -/

/-- Two functions. -/
def twoFunctions : Symbol := ⟨[0x1000, 0x2000], by decide⟩

/-- The handler's frame, the signal frame and the frame below it. -/
def signalInMain : List UnwStep := [⟨0x2100, false⟩, ⟨0x7000, true⟩, ⟨0x1010, false⟩]

/-- **The frame of `main` is released twice.** -/
theorem main_released_twice :
    (agentEvent twoFunctions .new signalInMain).released = [2, 2] ∧
      ¬ ReleasedOnce twoFunctions .new signalInMain :=
  ⟨by decide, not_releasedOnce (by decide)⟩

end NativeAgent

end Kognizance
