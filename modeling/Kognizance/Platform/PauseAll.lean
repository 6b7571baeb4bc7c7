import Kognizance.Platform.MapsAgree
import Kognizance.Platform.SignalUnsafe

/-!
# Signal handlers on several threads

`generic_dev_signal_handler` step by step, on any number of threads at once, for an
agent that does not notify (`requestWillBeNotified` is false): the handler pauses all
devices first and resumes all of them on each of its three ways out. Pausing,
resuming and looking up a device hold `devicemap_mtx`, so each of them is one step;
between them the other threads go on, with their own handlers, allocations and
operations on the device map.

* `Handlers.advance` is one step of a handler, `handler_refines` puts the steps of an
  undisturbed one together to the whole call.
* `Handlers.Relies` says that a handler has paused the devices and is on its way to,
  or in, the device's own handler.
* `paused_of_run`: if no handler resumes the devices while another relies on them being
  paused, no device is enabled while a handler is in `dev_signal_handler`.
-/

namespace Kognizance

open Process

/-- Where a thread is in `generic_dev_signal_handler`. -/
inductive HandlerPc
  | outside
  | pause (fd : ℤ)
  | testUnsafe (fd : ℤ)
  | resumeUnsafe
  | testInHandler (fd : ℤ)
  | resumeInHandler
  | lookup (fd : ℤ)
  /-- In `dev_signal_handler` of the device. -/
  | handling (k : ℕ × ℤ)
  | exiting
  | resume
  deriving DecidableEq, Repr

/-- The places where a thread runs code other than the handler's. -/
def HandlerPc.runsCode : HandlerPc → Bool
  | .outside => true
  | .handling _ => true
  | _ => false

/-- The process and the handlers of its threads. -/
structure Handlers where
  registry : Registry
  /-- The devices that `resume_all_devices` has enabled and nothing has disabled since. -/
  resumed : ℕ × ℤ → Bool
  locals : ℕ → ThreadLocals
  pc : ℕ → HandlerPc

/-- What happens next: a signal arrives, a handler makes its next step, an allocation
calls back, or a thread operates on the device map. -/
inductive HandlerInput
  | signal (gettid : ℕ) (fd : ℤ)
  | advance (gettid : ℕ)
  | callback (gettid : ℕ) (c : MonitorCallback)
  | session (op : SessionOp)

/-- The thread whose devices an operation adds or removes. -/
def SessionOp.actor : SessionOp → Option ℕ
  | .addNewDevice gettid _ _ _ => some gettid
  | .addNewDeviceToSession gettid _ _ => some gettid
  | .removeDevice gettid _ _ => some gettid
  | .removeDeviceBySession gettid _ _ => some gettid
  | _ => none

/-- The operation disables the device it is about. -/
def SessionOp.disables (k : ℕ × ℤ) : SessionOp → Bool
  | .endDevice k' => k' = k
  | _ => false

namespace Handlers

def init (r : Registry) : Handlers := ⟨r, fun _ => false, fun _ => .init, fun _ => .outside⟩

def goto (st : Handlers) (t : ℕ) (pc : HandlerPc) : Handlers :=
  { st with pc := Function.update st.pc t pc }

def setLocals (st : Handlers) (t : ℕ) (tl : ThreadLocals) : Handlers :=
  { st with locals := Function.update st.locals t tl }

/-- `pause_all_devices`. -/
def pauseAll (st : Handlers) : Handlers :=
  { st with resumed := fun k => st.resumed k && k ∉ st.registry.platform.pauseAllDevices }

/-- `resume_all_devices`. -/
def resumeAll (st : Handlers) : Handlers :=
  { st with resumed := fun k => st.resumed k || k ∈ st.registry.platform.resumeAllDevices }

/-- The next step of the handler on thread `t`. -/
def advance (st : Handlers) (t : ℕ) : Handlers :=
  match st.pc t with
  | .outside => st
  | .pause fd => st.pauseAll.goto t (.testUnsafe fd)
  | .testUnsafe fd =>
    -- the flag is left as it was found: a test-and-set, and a release if it was clear
    if (st.locals t).signalUnsafe then st.goto t .resumeUnsafe
    else st.goto t (.testInHandler fd)
  | .resumeUnsafe => st.resumeAll.goto t .outside
  | .testInHandler fd =>
    if (st.locals t).inSignalHandler then st.goto t .resumeInHandler
    else (st.setLocals t { st.locals t with inSignalHandler := true }).goto t (.lookup fd)
  | .resumeInHandler => st.resumeAll.goto t .outside
  | .lookup fd =>
    match st.registry.platform.getDevice t fd with
    | none => st.goto t .exiting
    | some _ => st.goto t (.handling (t, fd))
  | .handling _ => st.goto t .exiting
  | .exiting =>
    (st.setLocals t { st.locals t with inSignalHandler := false }).goto t .resume
  | .resume => st.resumeAll.goto t .outside

/-- What the next step of the handler calls. -/
def call (st : Handlers) (t : ℕ) : List HandlerCall :=
  match st.pc t with
  | .pause _ => [.pauseAllDevices]
  | .resumeUnsafe => [.resumeAllDevices]
  | .resumeInHandler => [.resumeAllDevices]
  | .resume => [.resumeAllDevices]
  | .handling k => [.devSignalHandler k]
  | _ => []

/-- The devices left enabled by a resume when an operation has changed the map: a
device that comes or goes is not one of them. -/
def resumedAfter (st : Handlers) (op : SessionOp) (r : Registry) (k : ℕ × ℤ) : Bool :=
  st.resumed k && (st.registry.platform.getDevice k.1 k.2).isSome &&
    (r.platform.getDevice k.1 k.2).isSome && !op.disables k

/-- One step of the process `getpid`. Signals are blocked while a handler runs, and a
thread works on the map only while it runs code of its own or of a tool. -/
def step (getpid : ℕ) (st : Handlers) : HandlerInput → Outcome Handlers Unit
  | .signal t fd =>
    if st.pc t = .outside then .running () (st.goto t (.pause fd)) else .running () st
  | .advance t => .running () (st.advance t)
  | .callback t c =>
    if (st.pc t).runsCode then .running () (st.setLocals t (monitorCallback (st.locals t) c))
    else .running () st
  | .session op =>
    if op.actor.all fun t => (st.pc t).runsCode then
      match st.registry.step getpid op with
      | .ended h _ => .ended h st
      | .running _ r => .running () { st with registry := r, resumed := st.resumedAfter op r }
    else .running () st

/-- The handler on thread `t` has paused the devices, and the flags and the map as they
are take it to `dev_signal_handler`, or it is there. -/
def Relies (st : Handlers) (t : ℕ) : Prop :=
  match st.pc t with
  | .testUnsafe fd => st.locals t = .init ∧ st.registry.platform.getDevice t fd ≠ none
  | .testInHandler fd =>
    (st.locals t).inSignalHandler = false ∧ st.registry.platform.getDevice t fd ≠ none
  | .lookup fd => st.registry.platform.getDevice t fd ≠ none
  | .handling _ => True
  | _ => False

/-- The next step of the handler is a `resume_all_devices`. -/
def Resumes (st : Handlers) (t : ℕ) : Prop := .resumeAllDevices ∈ st.call t

/-- A handler resumes the devices only when no other one relies on the pause. -/
def ResumesAlone (st : Handlers) : HandlerInput → Prop
  | .advance t => st.Resumes t → ∀ t', t' ≠ t → ¬ st.Relies t'
  | _ => True

/-- No device of the map is enabled by a resume. -/
def Quiet (st : Handlers) : Prop :=
  ∀ t fd, st.registry.platform.getDevice t fd ≠ none → st.resumed (t, fd) = false

/-! ### An undisturbed handler is the whole call -/

/-- The next `n` steps of one handler, and what they call. -/
def advances : ℕ → Handlers → ℕ → List HandlerCall × Handlers
  | 0, st, _ => ([], st)
  | n + 1, st, t => (st.call t ++ (advances n (st.advance t) t).1, (advances n (st.advance t) t).2)

/-- **The steps make up the handler.** Run to its end without interference, a handler
calls what `genericDevSignalHandler` says and leaves the flags it says. -/
theorem handler_refines {st : Handlers} {t : ℕ} {fd : ℤ} (h : st.pc t = .pause fd) :
    ∃ n, (advances n st t).1 =
        (genericDevSignalHandler st.registry.platform false t fd id (st.locals t)).1 ∧
      (advances n st t).2.pc t = .outside ∧
      (advances n st t).2.locals t =
        (genericDevSignalHandler st.registry.platform false t fd id (st.locals t)).2 := by
  unfold genericDevSignalHandler
  -- along the handler's own branches, with as many steps as each of them has
  cases hl : st.locals t with
  | mk u i =>
    cases u with
    | true => exact ⟨3, by simp [advances, call, advance, h, goto, pauseAll, resumeAll, hl]⟩
    | false =>
      cases i with
      | true => exact ⟨4, by simp [advances, call, advance, h, goto, pauseAll, resumeAll, hl]⟩
      | false =>
        cases hdev : st.registry.platform.getDevice t fd with
        | none =>
          exact ⟨6, by simp [advances, call, advance, h, goto, setLocals, pauseAll, resumeAll,
            hl, hdev]⟩
        | some dev =>
          exact ⟨7, by simp [advances, call, advance, h, goto, setLocals, pauseAll, resumeAll,
            hl, hdev]⟩

/-! ### What a step does to the handlers that rely on the pause -/

variable {st st' : Handlers}

theorem relies_congr (st st' : Handlers) {t : ℕ} (hpc : st'.pc t = st.pc t)
    (hl : st'.locals t = st.locals t) (hr : st'.registry = st.registry) :
    st'.Relies t ↔ st.Relies t := by
  unfold Relies
  rw [hpc, hl, hr]

theorem relies_goto_ne {t t' : ℕ} {pc : HandlerPc} (h : t' ≠ t) :
    (st.goto t pc).Relies t' ↔ st.Relies t' :=
  relies_congr st (st.goto t pc) (Function.update_of_ne h _ _) rfl rfl

theorem relies_setLocals_ne {t t' : ℕ} {tl : ThreadLocals} (h : t' ≠ t) :
    (st.setLocals t tl).Relies t' ↔ st.Relies t' :=
  relies_congr st (st.setLocals t tl) rfl (Function.update_of_ne h _ _) rfl

@[simp] theorem relies_goto_self {t : ℕ} {pc : HandlerPc} :
    (st.goto t pc).Relies t ↔
      match pc with
      | .testUnsafe fd => st.locals t = .init ∧ st.registry.platform.getDevice t fd ≠ none
      | .testInHandler fd =>
        (st.locals t).inSignalHandler = false ∧ st.registry.platform.getDevice t fd ≠ none
      | .lookup fd => st.registry.platform.getDevice t fd ≠ none
      | .handling _ => True
      | _ => False := by
  simp only [Relies, goto, Function.update_self]

/-- What one thread relies on is not changed by a step of another one. -/
theorem relies_advance_ne (st : Handlers) {t t' : ℕ} (h : t' ≠ t) :
    (st.advance t).Relies t' ↔ st.Relies t' := by
  unfold advance
  -- over where thread `t` is; it moves itself, and may set its own locals
  split
  · exact Iff.rfl
  · exact relies_goto_ne h
  · split
    · exact relies_goto_ne h
    · exact relies_goto_ne h
  · exact relies_goto_ne h
  · split
    · exact relies_goto_ne h
    · exact (relies_goto_ne h).trans (relies_setLocals_ne h)
  · exact relies_goto_ne h
  · split
    · exact relies_goto_ne h
    · exact relies_goto_ne h
  · exact relies_goto_ne h
  · exact (relies_goto_ne h).trans (relies_setLocals_ne h)
  · exact relies_goto_ne h

/-- What holds the devices down: while some handler relies on the pause, no device is
enabled by a resume. -/
def PauseInv (st : Handlers) : Prop := ∀ t, st.Relies t → st.Quiet

theorem PauseInv.init (r : Registry) : PauseInv (Handlers.init r) :=
  fun _ h => h.elim

theorem PauseInv.keep (h : PauseInv st) (hq : st.Quiet → st'.Quiet)
    (hr : ∀ t, st'.Relies t → st.Relies t) : PauseInv st' :=
  fun t ht => hq (h t (hr t ht))

/-- A move of one thread that does not make it rely on the pause anew. -/
theorem PauseInv.goto (h : PauseInv st) {t : ℕ} {pc : HandlerPc}
    (hr : (st.goto t pc).Relies t → st.Relies t) : PauseInv (st.goto t pc) := by
  refine h.keep id fun t' ht' => ?_
  by_cases htt : t' = t
  · exact htt ▸ hr (htt ▸ ht')
  · exact (relies_goto_ne htt).mp ht'

theorem PauseInv.setLocals (h : PauseInv st) {t : ℕ} {tl : ThreadLocals}
    (hr : (st.setLocals t tl).Relies t → st.Relies t) : PauseInv (st.setLocals t tl) := by
  refine h.keep id fun t' ht' => ?_
  by_cases htt : t' = t
  · exact htt ▸ hr (htt ▸ ht')
  · exact (relies_setLocals_ne htt).mp ht'

/-- A resume: nobody is left who relies on the pause. -/
theorem PauseInv.resume {t : ℕ} (hres : ∀ t', t' ≠ t → ¬ st.Relies t') :
    PauseInv (st.resumeAll.goto t .outside) := by
  intro t' ht'
  by_cases htt : t' = t
  · subst htt
    exact (relies_goto_self.mp ht').elim
  · have ht : st.Relies t' :=
      (relies_congr st st.resumeAll rfl rfl rfl).mp ((relies_goto_ne htt).mp ht')
    exact absurd ht (hres t' htt)

/-- A pause reaches every device of the map. -/
theorem quiet_pauseAll (st : Handlers) : st.pauseAll.Quiet := by
  intro t fd hdev
  have hkey : (t, fd) ∈ st.registry.platform.pauseAllDevices := by
    rw [Platform.pauseAllDevices, ← AList.mem_keys]
    exact AList.lookup_isSome.mp (Option.isSome_iff_ne_none.mpr hdev)
  simp [pauseAll, hkey]

theorem PauseInv.advance (h : PauseInv st) {t : ℕ}
    (hres : st.Resumes t → ∀ t', t' ≠ t → ¬ st.Relies t') : PauseInv (st.advance t) := by
  unfold Handlers.advance
  -- by the place in the handler; the three resumes are where `hres` is needed
  cases hpc : st.pc t with
  | outside => exact h
  | pause fd =>
    intro _ _
    exact quiet_pauseAll st
  | testUnsafe fd =>
    dsimp only
    split_ifs with hu
    · exact h.goto fun ht => (relies_goto_self.mp ht).elim
    · refine h.goto fun ht => ?_
      obtain ⟨hi, hdev⟩ := relies_goto_self.mp ht
      -- with both flags clear the thread's locals are those of a fresh thread
      simp only [Relies, hpc]
      refine ⟨?_, hdev⟩
      cases hl : st.locals t with
      | mk u i =>
        rw [hl] at hu hi
        obtain rfl : i = false := hi
        obtain rfl : u = false := by simpa using hu
        rfl
  | resumeUnsafe => exact PauseInv.resume (hres (by simp [Resumes, call, hpc]))
  | testInHandler fd =>
    dsimp only
    split_ifs with hi
    · exact h.goto fun ht => (relies_goto_self.mp ht).elim
    · have hflag : (st.locals t).inSignalHandler = false := by simpa using hi
      -- the flag was clear, so the handler is as much on its way as before
      have hgoto : PauseInv (st.goto t (.lookup fd)) := by
        refine h.goto fun ht => ?_
        simp only [Relies, hpc]
        exact ⟨hflag, relies_goto_self.mp ht⟩
      change PauseInv ((st.goto t (.lookup fd)).setLocals t _)
      refine hgoto.setLocals fun ht => ?_
      simpa [Relies, Handlers.setLocals, Handlers.goto] using ht
  | resumeInHandler => exact PauseInv.resume (hres (by simp [Resumes, call, hpc]))
  | lookup fd =>
    dsimp only
    split
    · exact h.goto fun ht => (relies_goto_self.mp ht).elim
    · next dev hdev =>
      refine h.goto fun _ => ?_
      simp [Relies, hpc, hdev]
  | handling k => exact h.goto fun ht => (relies_goto_self.mp ht).elim
  | exiting =>
    refine (h.setLocals fun ht => ?_).goto fun ht => (relies_goto_self.mp ht).elim
    simp [Relies, Handlers.setLocals, hpc] at ht
  | resume => exact PauseInv.resume (hres (by simp [Resumes, call, hpc]))

/-- An operation that goes on enters keys of the thread that makes it only. -/
theorem getDevice_of_step {getpid : ℕ} {r r' : Registry} {op : SessionOp} {t : ℕ} {fd : ℤ}
    (hs : r.step getpid op = .running () r') (ht : ∀ u, op.actor = some u → u ≠ t)
    (hdev : r'.platform.getDevice t fd ≠ none) : r.platform.getDevice t fd ≠ none := by
  rcases Registry.step_entered hs hdev with ⟨hold, -⟩ | ⟨gettid, dev, sId, ans, rfl, -, hold⟩
  · exact hold
  · exact hold (ht gettid rfl).symm

/-- A handler between its pause and the device's handler is not where the thread runs
other code. -/
theorem relies_of_runsCode (st : Handlers) {t : ℕ} (hpc : (st.pc t).runsCode = true)
    (h : st.Relies t) :
    ∃ k, st.pc t = .handling k := by
  unfold Relies at h
  cases hp : st.pc t <;> simp_all [HandlerPc.runsCode]

theorem PauseInv.session (h : PauseInv st) {getpid : ℕ} {op : SessionOp} {r : Registry}
    (hact : op.actor.all (fun t => (st.pc t).runsCode) = true)
    (hs : st.registry.step getpid op = .running () r) :
    PauseInv { st with registry := r, resumed := st.resumedAfter op r } := by
  refine h.keep (fun hq t fd _ => ?_) fun t ht => ?_
  · -- a device that was in the map stays as it was, a new one is not resumed
    change st.resumedAfter op r (t, fd) = false
    unfold resumedAfter
    by_cases hdev : st.registry.platform.getDevice t fd = none
    · simp [hdev]
    · simp [hq t fd hdev]
  · by_cases hcode : (st.pc t).runsCode = true
    · obtain ⟨k, hk⟩ : ∃ k, st.pc t = .handling k :=
        relies_of_runsCode { st with registry := r, resumed := _ } hcode ht
      simp [Relies, hk]
    · -- the device is looked up for a thread in its handler, so not for the acting one
      have hother : ∀ u, op.actor = some u → u ≠ t := by
        rintro u hu rfl
        rw [hu] at hact
        exact hcode hact
      have hkeep : ∀ fd, r.platform.getDevice t fd ≠ none →
          st.registry.platform.getDevice t fd ≠ none := fun fd => getDevice_of_step hs hother
      unfold Relies at ht ⊢
      dsimp only at ht
      cases hpc : st.pc t with
      | testUnsafe fd =>
        rw [hpc] at ht
        exact ⟨ht.1, hkeep fd ht.2⟩
      | testInHandler fd =>
        rw [hpc] at ht
        exact ⟨ht.1, hkeep fd ht.2⟩
      | lookup fd =>
        rw [hpc] at ht
        exact hkeep fd ht
      | handling k => trivial
      | _ => simp [hpc] at ht

/-- **One step keeps the devices down** for the handlers that rely on it. -/
theorem PauseInv.step (h : PauseInv st) {getpid : ℕ} {i : HandlerInput}
    (hC : st.ResumesAlone i) (hs : Handlers.step getpid st i = .running () st') :
    PauseInv st' := by
  cases i with
  | signal t fd =>
    dsimp only [Handlers.step] at hs
    split_ifs at hs
    · obtain rfl := (Outcome.running.inj hs).2
      exact h.goto fun ht => (relies_goto_self.mp ht).elim
    · obtain rfl := (Outcome.running.inj hs).2
      exact h
  | advance t =>
    obtain rfl := (Outcome.running.inj hs).2
    exact h.advance hC
  | callback t c =>
    dsimp only [Handlers.step] at hs
    split_ifs at hs with hcode
    · obtain rfl := (Outcome.running.inj hs).2
      -- where a thread runs other code its flags do not matter
      refine h.setLocals fun ht => ?_
      obtain ⟨k, hk⟩ := relies_of_runsCode (st.setLocals t _) hcode ht
      have hpc : st.pc t = .handling k := hk
      simp [Relies, hpc]
    · obtain rfl := (Outcome.running.inj hs).2
      exact h
  | session op =>
    dsimp only [Handlers.step] at hs
    split_ifs at hs with hact
    · cases hr : st.registry.step getpid op with
      | ended e r => simp [hr] at hs
      | running u r =>
        simp only [hr] at hs
        obtain rfl := (Outcome.running.inj hs).2
        exact h.session hact hr
    · obtain rfl := (Outcome.running.inj hs).2
      exact h

/-- **The devices stay paused while an event is handled**, in every run in which no
handler resumes them while another one relies on the pause. -/
theorem paused_of_run (getpid : ℕ) (r : Registry) (is : List HandlerInput) (st : Handlers)
    (halone : Along (step getpid) ResumesAlone (init r) is)
    (hrun : exec (step getpid) (init r) is = .running () st) (t : ℕ) (k : ℕ × ℤ)
    (ht : st.pc t = .handling k) : st.Quiet := by
  have hinv : PauseInv st :=
    exec_invariant (fun _ _ _ _ h hC hs => PauseInv.step h hC hs) (PauseInv.init r) halone hrun
  exact hinv t (by simp [Relies, ht])

/-- Thread 6 registers a device of its own, for session 1. -/
def twoDevices : Registry :=
  (exec (Registry.step 5) (Registry.oneDeviceRegistry 5)
    [.addNewDevice 6 (BPDevice 1 1 64) 1 ⟨9, true, true, true, true, true, true⟩,
      .addNewDeviceToSession 6 9 1]).state

/-- The handler of thread 5 runs to `dev_signal_handler`. -/
def enterHandler : List HandlerInput :=
  [.signal 5 7, .advance 5, .advance 5, .advance 5, .advance 5]

/-- Thread 6 is signalled inside an allocation: its handler pauses, finds the guard set
and resumes. -/
def earlyReturn : List HandlerInput :=
  [.callback 6 (.opening .malloc), .signal 6 9, .advance 6, .advance 6, .advance 6]

/-- Thread 6 pauses and resumes, and then thread 5 enters its handler. -/
theorem paused_enterHandler :
    (exec (step 5) (init twoDevices) (earlyReturn ++ enterHandler)).state.Quiet := by
  refine paused_of_run 5 twoDevices (earlyReturn ++ enterHandler) _ ?_ rfl 5 (5, 7) (by decide)
  refine .cons trivial rfl (.cons trivial rfl (.cons ?_ rfl (.cons ?_ rfl (.cons ?_ rfl
    (.cons trivial rfl (.cons ?_ rfl (.cons ?_ rfl (.cons ?_ rfl (.cons ?_ rfl trivial)))))))))
  · exact fun h => absurd (show _ ∈ _ from h) (by decide)
  · exact fun h => absurd (show _ ∈ _ from h) (by decide)
  · -- when thread 6 resumes the devices no other thread is in its handler
    intro _ t' ht' hrelies
    rw [relies_advance_ne _ ht', relies_advance_ne _ ht', relies_goto_ne ht',
      relies_setLocals_ne ht'] at hrelies
    exact hrelies
  -- the pause, two tests and the look-up of thread 5: no resume among them
  · exact fun h => absurd (show _ ∈ _ from h) (by decide)
  · exact fun h => absurd (show _ ∈ _ from h) (by decide)
  · exact fun h => absurd (show _ ∈ _ from h) (by decide)
  · exact fun h => absurd (show _ ∈ _ from h) (by decide)

/-- The early return of thread 6 enables the device of thread 5, whose event is being
handled. -/
theorem resumed_while_handling :
    (exec (step 5) (init twoDevices) (enterHandler ++ earlyReturn)).state.pc 5
      = .handling (5, 7) ∧
    ¬ (exec (step 5) (init twoDevices) (enterHandler ++ earlyReturn)).state.Quiet := by
  refine ⟨by decide, fun h => ?_⟩
  have hresumed : (exec (step 5) (init twoDevices) (enterHandler ++ earlyReturn)).state.resumed
      (5, 7) = true := by decide
  rw [h 5 7 (by decide)] at hresumed
  exact Bool.false_ne_true hresumed

end Handlers

end Kognizance
