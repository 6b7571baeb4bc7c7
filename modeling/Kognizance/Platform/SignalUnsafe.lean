import Kognizance.Lib.Nesting
import Kognizance.Platform.SignalHandler

/-!
# The allocation guard of the signal handler

The allocation wrappers of the monitor call `monitor_pre_X` before and
`monitor_post_X` after the real function, for six functions `X`. All of them write
one thread-local flag, `signalUnsafe`, which `generic_dev_signal_handler` tests
before it lets a device handle its event.

A thread's callbacks are a well-nested word of brackets, the signals fall between
them. The flag holds whether the last callback was a `monitor_pre`
(`signalUnsafe_runThread`), so it tells a pending `monitor_pre` only until the first
nested call has returned (`guard_iff`).
-/

namespace Kognizance

open Nesting

/-- The allocation functions that are wrapped. -/
inductive AllocFunction
  | malloc
  | calloc
  | realloc
  | memalign
  | posixMemalign
  | free
  deriving DecidableEq, Repr

/-- A `monitor_pre_X` opens, the `monitor_post_X` after it closes. -/
abbrev MonitorCallback := Paren AllocFunction

/-- `ENTERING_SIGNAL_UNSAFE`. -/
def enteringSignalUnsafe (tl : ThreadLocals) : ThreadLocals := { tl with signalUnsafe := true }

/-- `EXITING_SIGNAL_UNSAFE`. -/
def exitingSignalUnsafe (tl : ThreadLocals) : ThreadLocals := { tl with signalUnsafe := false }

/-- The twelve callbacks: every `monitor_pre_X` and every `monitor_post_X` does the
same. -/
def monitorCallback (tl : ThreadLocals) : MonitorCallback → ThreadLocals
  | .opening _ => enteringSignalUnsafe tl
  | .closing _ => exitingSignalUnsafe tl

/-- The callbacks of a stretch of code, one after the other. -/
def runCallbacks (cs : List MonitorCallback) (tl : ThreadLocals) : ThreadLocals :=
  cs.foldl monitorCallback tl

/-- What happens on a thread: it calls back from an allocation, or a device signals
it. `body` are the callbacks of the device's own handler, should it be entered. -/
inductive ThreadInput
  | callback (c : MonitorCallback)
  | signal (p : Platform) (requestWillBeNotified : Bool) (gettid : ℕ) (fd : ℤ)
      (body : List MonitorCallback)

namespace ThreadInput

/-- The callback of the interrupted code, if it is one. -/
def callback? : ThreadInput → Option MonitorCallback
  | .callback c => some c
  | .signal .. => none

/-- The device's own handler completes the allocations it makes. -/
def Completes : ThreadInput → Prop
  | .callback _ => True
  | .signal _ _ _ _ body => unmatched [] body = some []

end ThreadInput

/-- One input on a thread. -/
def threadStep (tl : ThreadLocals) : ThreadInput → ThreadLocals
  | .callback c => monitorCallback tl c
  | .signal p rwbn gettid fd body =>
    (genericDevSignalHandler p rwbn gettid fd (runCallbacks body) tl).2

/-- A thread from its start. -/
def runThread (is : List ThreadInput) : ThreadLocals := is.foldl threadStep .init

/-- The callbacks of the interrupted code, without those made inside a handler. -/
def callbacks (is : List ThreadInput) : List MonitorCallback := is.filterMap ThreadInput.callback?

@[simp] theorem callbacks_concat_callback (is : List ThreadInput) (c : MonitorCallback) :
    callbacks (is ++ [.callback c]) = callbacks is ++ [c] := by
  rw [callbacks, List.filterMap_append]
  rfl

@[simp] theorem callbacks_concat_signal (is : List ThreadInput) (p : Platform) (rwbn : Bool)
    (gettid : ℕ) (fd : ℤ) (body : List MonitorCallback) :
    callbacks (is ++ [.signal p rwbn gettid fd body]) = callbacks is := by
  rw [callbacks, List.filterMap_append]
  exact List.append_nil _

theorem runCallbacks_eq (cs : List MonitorCallback) (tl : ThreadLocals) :
    runCallbacks cs tl = { tl with signalUnsafe := lastOpens tl.signalUnsafe cs } := by
  induction cs generalizing tl with
  | nil => rfl
  | cons c cs ih =>
    refine (ih (monitorCallback tl c)).trans ?_
    cases c <;> rfl

/-- Between the inputs of a thread no handler runs, and the guard holds whether the
last callback of the interrupted code was a `monitor_pre`. -/
theorem runThread_eq {is : List ThreadInput} (his : ∀ i ∈ is, i.Completes) :
    runThread is = ⟨lastOpens false (callbacks is), false⟩ := by
  induction is using List.reverseRecOn with
  | nil => rfl
  | append_singleton is i ih =>
    have hrun : runThread (is ++ [i]) = threadStep (runThread is) i := by simp [runThread]
    rw [hrun, ih fun j hj => his j (List.mem_append_left _ hj)]
    cases i with
    | callback c =>
      rw [callbacks_concat_callback, lastOpens_concat]
      cases c <;> rfl
    | signal p rwbn gettid fd body =>
      have hbody : unmatched [] body = some [] :=
        his _ (List.mem_append_right _ List.mem_cons_self)
      rw [callbacks_concat_signal]
      -- a signal leaves the guard as it was: set, or cleared again by the handler
      cases hl : lastOpens false (callbacks is) with
      | true => exact (genericDevSignalHandler_guarded rfl).2
      | false =>
        refine (genericDevSignalHandler_admitted rfl).2.trans ?_
        rw [runCallbacks_eq, lastOpens_of_closed hbody]
        split <;> rfl

/-- **When the guard works.** Let a signal arrive after the inputs `is`, whose
callbacks leave the calls `pending` open. The device's handler is entered only when
nothing is pending, and the guard afterwards tells whether something is, if and only
if nothing is pending or the last callback was a `monitor_pre`. -/
theorem guard_iff (is : List ThreadInput) (pending : List AllocFunction)
    (hnested : unmatched [] (callbacks is) = some pending) (his : ∀ i ∈ is, i.Completes)
    (p : Platform) (rwbn : Bool) (gettid : ℕ) (fd : ℤ) (body : List MonitorCallback)
    (hbody : unmatched [] body = some []) :
    (((∃ k, .devSignalHandler k ∈
          (genericDevSignalHandler p rwbn gettid fd (runCallbacks body) (runThread is)).1) →
        pending = []) ∧
      ((runThread (is ++ [.signal p rwbn gettid fd body])).signalUnsafe = true ↔ pending ≠ [])) ↔
    (pending = [] ∨ ∃ X, (callbacks is).getLast? = some (.opening X)) := by
  have hflag : (runThread (is ++ [.signal p rwbn gettid fd body])).signalUnsafe
      = lastOpens false (callbacks is) := by
    rw [runThread_eq, callbacks_concat_signal]
    · intro i hi
      rcases List.mem_append.mp hi with hi | hi
      · exact his i hi
      · obtain rfl := List.mem_singleton.mp hi
        exact hbody
  rw [hflag, ← lastOpens_iff]
  constructor
  · rintro ⟨-, hguard⟩
    rw [hguard]
    exact em (pending = [])
  · intro h
    cases hl : lastOpens false (callbacks is) with
    | true =>
      -- the guard is set: the handler is turned away, and something is pending
      have hpending := unmatched_ne_nil_of_lastOpens hnested hl
      refine ⟨?_, iff_of_true rfl hpending⟩
      rintro ⟨k, hk⟩
      rw [runThread_eq his, hl] at hk
      exact absurd hk ((genericDevSignalHandler_guarded rfl).1 k)
    | false =>
      rw [hl] at h
      obtain rfl : pending = [] := h.resolve_right Bool.false_ne_true
      exact ⟨fun _ => rfl, by simp⟩

/-- A platform on which thread 5 has one device. -/
def oneDevicePlatform : Platform :=
  ⟨AList.singleton (5, 7) (BPDevice 1 1 64), [], fun _ => 0, ⟨[], []⟩⟩

theorem guard_malloc :
    (runThread ([.callback (.opening .malloc)] ++
      [.signal oneDevicePlatform false 5 7 []])).signalUnsafe = true ↔
    [AllocFunction.malloc] ≠ [] :=
  ((guard_iff [.callback (.opening .malloc)] [.malloc] rfl (by simp [ThreadInput.Completes])
    oneDevicePlatform false 5 7 [] rfl).mpr (Or.inr ⟨.malloc, rfl⟩)).2

/-- A `calloc` nested in a `posix_memalign` has returned: the handler is entered while
the `posix_memalign` is pending. -/
theorem guard_nested :
    ¬ ((∃ k, .devSignalHandler k ∈ (genericDevSignalHandler oneDevicePlatform false 5 7
        (runCallbacks []) (runThread [.callback (.opening .posixMemalign),
          .callback (.opening .calloc), .callback (.closing .calloc)])).1) →
      [AllocFunction.posixMemalign] = []) := by
  intro h
  have hentered : HandlerCall.devSignalHandler (5, 7) ∈
      (genericDevSignalHandler oneDevicePlatform false 5 7 (runCallbacks [])
        (runThread [.callback (.opening .posixMemalign), .callback (.opening .calloc),
          .callback (.closing .calloc)])).1 := by decide
  exact absurd (h ⟨_, hentered⟩) (List.cons_ne_nil _ _)

end Kognizance
