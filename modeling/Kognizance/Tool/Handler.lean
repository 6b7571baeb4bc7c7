import Kognizance.Watchpoint.SlotTable
import Kognizance.Witch.Steps

/-!
# The tool

`mytool.cpp`: a sample of the PEBS device is given to the logic, which remembers its
context under the sample's `eventId`, and then armed; a trigger of a breakpoint device
goes to `OnWatchPoint`, which asks the logic. Here the watchpoint library and the logic
meet in one state, `World WitchLogic`.

`toolPEBSEventHandler_cases` says what handling a sample can do; it puts together what
`Sampled` says about the logic and leaves the rest to `WP_Subscribe`. `toolStep` takes one
step of a run of the tool.
-/

namespace Kognizance

open Process WitchLogic

/-- The macros that make the handler drop samples of some instructions. -/
structure AvoidFlags where
  avoidPush : Bool
  avoidCallq : Bool
  avoidLock : Bool

/-- A build of the tool, and how it is configured. -/
structure Setup where
  flags : BuildFlags
  avoid : AvoidFlags
  logicType : WitchLogicType
  cfg : WPConfig
  float : FloatUnit

namespace Setup

variable (S : Setup)

/-- The logic of the build. -/
def logic : Logic := .ofType S.flags S.logicType

/-- What the watchpoint library sees of the tool. -/
def tool : Tool WitchLogic where
  cfg := S.cfg
  logicType := S.logicType
  witchOnWPCallback := S.logic.witchOnWPCallback S.float

/-- The instruction is one the build avoids. -/
def avoids (inst : UInt64) : Bool :=
  (S.avoid.avoidPush && inst == 0x41) || (S.avoid.avoidCallq && inst == 0xE8) ||
    (S.avoid.avoidLock && inst == 0xF0)

end Setup

/-- The arguments of the handler's call of `WP_Subscribe`. -/
def Setup.request (S : Setup) (event : Event) : Request :=
  let watchLen := getFloorWPLength event.accessLength.toNat
  match S.logicType with
  | .redSpy => ⟨event.h_data_addr, watchLen, .write, some event⟩
  | .dupSpy => ⟨event.h_ip_addr, 8, .inst, some event⟩
  | .deadSpy | .loadSpy | .falseShare => ⟨event.h_data_addr, watchLen, .rw, some event⟩

/-- The sample is handed over with its request. -/
theorem Setup.request_sampleEvent (S : Setup) (event : Event) :
    (S.request event).sampleEvent = some event := by
  unfold Setup.request
  cases S.logicType with
  | redSpy | dupSpy | deadSpy | loadSpy | falseShare => rfl

/-- `event->isFixed || fixIP(event)`, and the event as `fixIP` leaves it. -/
def tryFixIP (fixIP : Event → Bool × Event) (event : Event) : Bool × Event :=
  if event.isFixed then (true, event) else fixIP event

/-- `OnWatchPoint` disables the slot that fired, or asks the logic. -/
theorem decideAction_cases {L : Type} (T : Tool L) (logic : L) (wpi : WPRegisterInfo)
    (sample event : Event) (fixIP : Event → Bool × Event) :
    let d := decideAction T logic wpi sample event fixIP
    (¬ (event.h_ip_addr ≠ 0 ∧ (tryFixIP fixIP event).1 = true) ∧ d = (.disable, logic, false)) ∨
    (event.h_ip_addr ≠ 0 ∧ (tryFixIP fixIP event).1 = true ∧
      d = ((T.witchOnWPCallback (tryFixIP fixIP event).2 sample ⟨wpi.va, wpi.wpLength⟩ logic).1,
        (T.witchOnWPCallback (tryFixIP fixIP event).2 sample ⟨wpi.va, wpi.wpLength⟩ logic).2,
        true)) := by
  intro d
  by_cases hzero : event.h_ip_addr = 0
  · exact Or.inl ⟨fun h => h.1 hzero, if_pos hzero⟩
  · have hd : d = if !(tryFixIP fixIP event).1 then (.disable, logic, false)
        else ((T.witchOnWPCallback (tryFixIP fixIP event).2 sample ⟨wpi.va, wpi.wpLength⟩ logic).1,
          (T.witchOnWPCallback (tryFixIP fixIP event).2 sample ⟨wpi.va, wpi.wpLength⟩ logic).2,
          true) := if_neg hzero
    rw [hd]
    cases hfixed : (tryFixIP fixIP event).1 with
    | false => exact Or.inl ⟨fun h => Bool.false_ne_true h.2, rfl⟩
    | true => exact Or.inr ⟨hzero, rfl, rfl⟩

/-- What is decided outside while a sample is handled. -/
structure SampleAnswers where
  fixIP : Event → Bool × Event
  subscribe : SubscribeAnswers

/-- `tool_PEBSEventHandler`. The value is `ret`, which nothing reads, and 0 where the
handler returns before. -/
def toolPEBSEventHandler (S : Setup) (w : World WitchLogic) (gettid : ℕ) (event : Event)
    (ans : SampleAnswers) : Outcome (World WitchLogic) ℤ :=
  if event.h_data_addr ≠ 0 ∧ event.h_ip_addr ≠ 0 ∧ event.h_ip_addr > 0xfffff00000000000 then
    let fixed := tryFixIP ans.fixIP event
    let event := fixed.2
    if !fixed.1 then .running 0 w
    else if event.accessType = .unknown then .running 0 w
    -- a part of the kernel is left out
    else if event.h_ip_addr ≥ 0xffffffff810bb1f0 ∧ event.h_ip_addr ≤ 0xffffffff811271a0 then
      .running 0 w
    else if S.avoids event.inst then .running 0 (w.note [.delete event])
    else
      let sampled := w.logic.witchOnSampleCallback event
      let w := { w with logic := sampled.2 }
      if !sampled.1 then .running 0 w
      else wpSubscribe S.tool w gettid (S.request event) ans.subscribe
  else .running 0 w

/-- The handler passes the event on to the logic. -/
structure PassedOn (S : Setup) (event : Event) (ans : SampleAnswers) (event' : Event) : Prop where
  addrs : event.h_data_addr ≠ 0 ∧ event.h_ip_addr ≠ 0 ∧ event.h_ip_addr > 0xfffff00000000000
  fixed : tryFixIP ans.fixIP event = (true, event')
  known : event'.accessType ≠ .unknown
  foreign : ¬ (event'.h_ip_addr ≥ 0xffffffff810bb1f0 ∧ event'.h_ip_addr ≤ 0xffffffff811271a0)
  wanted : S.avoids event'.inst = false

/-- Every way the handler of a sample can return. -/
inductive SampleHandled (S : Setup) (w : World WitchLogic) (tid : ℕ) (event : Event)
    (ans : SampleAnswers) : World WitchLogic → Prop
  /-- the logic does not get the sample, or it has no frames -/
  | dropped (w' : World WitchLogic) (htData : w'.tData = w.tData) (hlogic : w'.logic = w.logic) :
    SampleHandled S w tid event ans w'
  /-- the logic takes the sample, and it is to be armed -/
  | taken (event' : Event) (σ : WitchLogic) (ret : ℤ) (w' : World WitchLogic)
    (hpassed : PassedOn S event ans event') (hs : Sampled w.logic event' true σ)
    (hsub : wpSubscribe S.tool { w with logic := σ } tid (S.request event') ans.subscribe
      = .running ret w') :
    SampleHandled S w tid event ans w'

/-- **Every way the handler of a sample can return.** -/
theorem toolPEBSEventHandler_cases {S : Setup} {w w' : World WitchLogic} {tid : ℕ} {event : Event}
    {ans : SampleAnswers} {ret : ℤ} (htree : w.logic.TreeOk)
    (h : toolPEBSEventHandler S w tid event ans = .running ret w') :
    SampleHandled S w tid event ans w' := by
  have hdrop : ∀ {u : World WitchLogic} {r : ℤ}, u.tData = w.tData → u.logic = w.logic →
      Outcome.running r u = .running ret w' → SampleHandled S w tid event ans w' := by
    intro u r htData hlogic heq
    obtain ⟨-, rfl⟩ := Outcome.running.inj heq
    exact .dropped u htData hlogic
  unfold toolPEBSEventHandler at h
  -- the guards in the order of the source; every early return drops the sample
  split at h
  next haddrs =>
    simp only at h
    cases hfixed : tryFixIP ans.fixIP event with
    | mk ok event' =>
      rw [hfixed] at h
      cases ok with
      | false => exact hdrop rfl rfl h
      | true =>
        simp only [Bool.not_true, Bool.false_eq_true, if_false] at h
        split at h
        · exact hdrop rfl rfl h
        next hknown =>
        split at h
        · exact hdrop rfl rfl h
        next hforeign =>
        split at h
        · exact hdrop (u := w.note [.delete event']) rfl rfl h
        next hwanted =>
        have hs := witchOnSampleCallback_sampled htree event'
        -- the sample is handed to the logic, which may still refuse it
        generalize hsampled : w.logic.witchOnSampleCallback event' = sampled at h hs
        obtain ⟨taken, σ⟩ := sampled
        cases taken with
        | false =>
          simp only [Bool.not_false, if_true] at h
          cases hs with
          | failed => exact hdrop (u := w) rfl rfl h
        | true =>
          simp only [Bool.not_true, Bool.false_eq_true, if_false] at h
          exact .taken event' σ ret w'
            ⟨haddrs, hfixed, hknown, hforeign, Bool.eq_false_of_not_eq_true hwanted⟩ hs h
  · exact hdrop rfl rfl h

/-! ### Runs of the tool -/

/-- One call of a handler, or of what surrounds them. -/
inductive ToolOp
  | threadInit (tid : ℕ) (ans : InitAnswers)
  | sample (tid : ℕ) (event : Event) (ans : SampleAnswers)
  | trigger (tid : ℕ) (fd : ℤ) (event : Event) (ans : TriggerAnswers)
  | threadTerminate (tid : ℕ) (ans : ℕ → RemoveAnswers)
  /-- other code changes the platform's devices in any way -/
  | devices (p : Platform)

/-- One step of a run. `tool_BPEventHandler` is nothing but `OnWatchPoint`. -/
def toolStep (S : Setup) (w : World WitchLogic) : ToolOp → Outcome (World WitchLogic) ℤ
  | .threadInit tid ans => wpThreadInit S.tool w tid ans
  | .sample tid event ans => toolPEBSEventHandler S w tid event ans
  | .trigger tid fd event ans => onWatchPoint S.tool w tid fd event ans
  | .threadTerminate tid ans => wpThreadTerminate S.tool w tid ans
  | .devices p => .running 0 { w with platform := p }

end Kognizance
