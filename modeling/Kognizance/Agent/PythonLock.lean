import Kognizance.Lib.Run
import Mathlib.Logic.Function.Basic
import Mathlib.Tactic.Common

/-!
# The spin lock of the Python agent

`pyagent_aquire_lock` spins on one word of the process until a test-and-set finds it clear.
`pyAgent_print_stack`, which Python code calls, and `sig_handler_getContext`, which the handler
of a device calls, take the lock around their look at the thread's state. The handler runs in
the place of the interrupted code, so a signal that arrives while `pyAgent_print_stack` has the
lock makes the thread wait for itself, and then every other thread waits for it too.

* `PyLock.step`: one step of one thread, a call of `pyAgent_print_stack` or a signal.
* `PyLock.LockInv` says who has the lock.
* `spinlock_of_run`: one frame has the lock at a time; each thread waits for itself iff a signal
  of it has arrived inside of the section; and a frame that spins can get the lock iff no thread
  waits for itself.
-/

namespace Kognizance

open Process

/-- Where a function is that takes the lock once. -/
inductive LockPlace
  | outside
  /-- in the loop of `pyagent_aquire_lock` -/
  | spinning
  /-- between `pyagent_aquire_lock` and `pyagent_release_lock` -/
  | inside
  deriving DecidableEq, Repr

/-- The code of a thread, and the handler that interrupts it. -/
inductive FrameLevel
  | code
  | handler
  deriving DecidableEq, Repr

/-- The lock, and every thread of the process. -/
structure PyLock where
  spinlock : Bool
  place : ℕ × FrameLevel → LockPlace
  inHandler : ℕ → Bool

/-- What happens next. Every signal is blocked while a handler runs. -/
inductive PyInput
  /-- Python code calls `libperform.print_stack`. -/
  | printStack (t : ℕ)
  /-- A device signals the thread, and its handler calls `processEvent`. -/
  | signal (t : ℕ)
  /-- The code that runs on the thread takes a step. -/
  | advance (t : ℕ)
  deriving DecidableEq, Repr

namespace PyLock

def init : PyLock := ⟨false, fun _ => .outside, fun _ => false⟩

/-- The frame that runs on the thread. -/
def running (st : PyLock) (t : ℕ) : ℕ × FrameLevel :=
  (t, if st.inHandler t then .handler else .code)

def goto (st : PyLock) (f : ℕ × FrameLevel) (place : LockPlace) : PyLock :=
  { st with place := Function.update st.place f place }

def setHandler (st : PyLock) (t : ℕ) (b : Bool) : PyLock :=
  { st with inHandler := Function.update st.inHandler t b }

/-- `__sync_lock_test_and_set`, `__sync_lock_release`, or what follows. -/
def advance (st : PyLock) (t : ℕ) : PyLock :=
  match st.place (st.running t) with
  | .spinning =>
    if st.spinlock then st else { st with spinlock := true }.goto (st.running t) .inside
  | .inside => { st with spinlock := false }.goto (st.running t) .outside
  -- the stack is walked without the lock, and the handler returns
  | .outside => st.setHandler t false

def step (st : PyLock) : PyInput → Outcome PyLock Unit
  | .printStack t =>
    if st.inHandler t = false ∧ st.place (t, .code) = .outside then
      .running () (st.goto (t, .code) .spinning)
    else .running () st
  | .signal t =>
    if st.inHandler t then .running () st
    else .running () ((st.setHandler t true).goto (t, .handler) .spinning)
  | .advance t => .running () (st.advance t)

/-- No signal of thread `t` arrives while its code has the lock. -/
def SignalsOutside (t : ℕ) (st : PyLock) : PyInput → Prop
  | .signal t' => t' = t → st.inHandler t = false → st.place (t, .code) ≠ .inside
  | _ => True

/-- The handler of the thread waits for the code that it has interrupted. -/
structure WaitsForItself (st : PyLock) (t : ℕ) : Prop where
  interrupted : st.inHandler t = true
  code : st.place (t, .code) = .inside
  handler : st.place (t, .handler) = .spinning

def Deadlocked (st : PyLock) : Prop :=
  ∃ t, st.WaitsForItself t

/-- One frame has the lock when it is taken, and a handler that has returned is nowhere. -/
structure LockInv (st : PyLock) : Prop where
  taken : st.spinlock = true ↔ ∃ f, st.place f = .inside
  one : ∀ f f', st.place f = .inside → st.place f' = .inside → f = f'
  returned : ∀ t, st.inHandler t = false → st.place (t, .handler) = .outside

/-! ### One step -/

variable {st st' : PyLock} {t : ℕ} {f : ℕ × FrameLevel}

@[simp] theorem place_goto_self (place : LockPlace) : (st.goto f place).place f = place :=
  Function.update_self ..

theorem place_goto_ne {f' : ℕ × FrameLevel} (place : LockPlace) (h : f' ≠ f) :
    (st.goto f place).place f' = st.place f' :=
  Function.update_of_ne h _ _

theorem inHandler_setHandler_self (b : Bool) : (st.setHandler t b).inHandler t = b :=
  Function.update_self ..

theorem inHandler_setHandler_ne {t' : ℕ} (b : Bool) (h : t' ≠ t) :
    (st.setHandler t b).inHandler t' = st.inHandler t' :=
  Function.update_of_ne h _ _

theorem running_eq_handler (h : st.inHandler t = true) : st.running t = (t, .handler) := by
  rw [running, if_pos h]

theorem running_eq_code (h : st.inHandler t = false) : st.running t = (t, .code) := by
  rw [running, if_neg (h ▸ Bool.false_ne_true)]

/-- Every way a step can go. -/
inductive Stepped (st : PyLock) : PyInput → PyLock → Prop
  /-- The thread spins, or what should happen cannot. -/
  | waits {i : PyInput} : Stepped st i st
  | calls {t : ℕ} (ht : st.inHandler t = false) (hf : st.place (t, .code) = .outside) :
      Stepped st (.printStack t) (st.goto (t, .code) .spinning)
  | signals {t : ℕ} (ht : st.inHandler t = false) :
      Stepped st (.signal t) ((st.setHandler t true).goto (t, .handler) .spinning)
  | takes {t : ℕ} (hf : st.place (st.running t) = .spinning) (hfree : st.spinlock = false) :
      Stepped st (.advance t) ({ st with spinlock := true }.goto (st.running t) .inside)
  | gives {t : ℕ} (hf : st.place (st.running t) = .inside) :
      Stepped st (.advance t) ({ st with spinlock := false }.goto (st.running t) .outside)
  | returns {t : ℕ} (hf : st.place (st.running t) = .outside) :
      Stepped st (.advance t) (st.setHandler t false)

theorem step_cases {i : PyInput} (hs : step st i = .running () st') : Stepped st i st' := by
  cases i with
  | printStack t =>
    dsimp only [step] at hs
    split_ifs at hs with h
    · obtain rfl := (Outcome.running.inj hs).2
      exact .calls h.1 h.2
    · obtain rfl := (Outcome.running.inj hs).2
      exact .waits
  | signal t =>
    dsimp only [step] at hs
    split_ifs at hs with h
    · obtain rfl := (Outcome.running.inj hs).2
      exact .waits
    · obtain rfl := (Outcome.running.inj hs).2
      exact .signals (Bool.eq_false_iff.mpr h)
  | advance t =>
    obtain rfl := (Outcome.running.inj hs).2
    -- what the thread does next depends on where its running frame is
    unfold advance
    cases hf : st.place (st.running t) with
    | outside => exact .returns hf
    | inside => exact .gives hf
    | spinning =>
      dsimp only
      split_ifs with h
      · exact .waits
      · exact .takes hf (Bool.eq_false_iff.mpr h)

theorem LockInv.init : LockInv PyLock.init where
  taken := by
    refine iff_of_false Bool.false_ne_true ?_
    rintro ⟨_, h⟩
    cases h
  one := fun _ _ h => by cases h
  returned := fun _ _ => rfl

/-- A frame that does not have the lock goes to where it does not have it. -/
theorem LockInv.goto (h : LockInv st) {place : LockPlace} (hf : st.place f ≠ .inside)
    (hp : place ≠ .inside)
    (hret : ∀ t, st.inHandler t = false → f = (t, .handler) → place = .outside) :
    LockInv (st.goto f place) := by
  -- the frame is inside neither before nor after, so nobody else's place matters
  have hsame : ∀ f', (st.goto f place).place f' = .inside ↔ st.place f' = .inside := by
    intro f'
    by_cases hff : f' = f
    · subst hff
      rw [place_goto_self]
      exact iff_of_false hp hf
    · rw [place_goto_ne _ hff]
  refine ⟨?_, fun f₁ f₂ h₁ h₂ => h.one f₁ f₂ ((hsame f₁).mp h₁) ((hsame f₂).mp h₂), ?_⟩
  · exact h.taken.trans (exists_congr fun f' => (hsame f').symm)
  · intro t ht
    by_cases hff : (t, .handler) = f
    · subst hff
      rw [place_goto_self]
      exact hret t ht rfl
    · rw [place_goto_ne _ hff]
      exact h.returned t ht

/-- A handler that has the lock does not return. -/
theorem LockInv.setHandler (h : LockInv st) {b : Bool}
    (hb : b = false → st.place (t, .handler) = .outside) : LockInv (st.setHandler t b) := by
  refine ⟨h.taken, h.one, fun t' ht' => ?_⟩
  show st.place (t', .handler) = .outside
  by_cases htt : t' = t
  · rw [htt] at ht' ⊢
    exact hb ((inHandler_setHandler_self b).symm.trans ht')
  · exact h.returned t' ((inHandler_setHandler_ne b htt).symm.trans ht')

/-- The frame that runs is not a handler that has returned. -/
theorem LockInv.outside_of_ne (h : LockInv st) {t' : ℕ} {place : LockPlace}
    (ht' : st.inHandler t' = false) (hf : st.place (st.running t) ≠ .outside) :
    (st.goto (st.running t) place).place (t', .handler) = .outside := by
  have hout := h.returned t' ht'
  have hne : (t', .handler) ≠ st.running t := by
    intro he
    rw [← he] at hf
    exact hf hout
  rw [place_goto_ne _ hne, hout]

/-- Nobody has the lock, and the frame that runs takes it. -/
theorem LockInv.takes (h : LockInv st) (hf : st.place (st.running t) = .spinning)
    (hfree : st.spinlock = false) :
    LockInv ({ st with spinlock := true }.goto (st.running t) .inside) := by
  have honly : ∀ f, (st.goto (st.running t) .inside).place f = .inside → f = st.running t := by
    intro f hin
    by_contra hne
    rw [place_goto_ne _ hne] at hin
    exact Bool.false_ne_true (hfree.symm.trans (h.taken.mpr ⟨f, hin⟩))
  have hne : st.place (st.running t) ≠ .outside := by
    rw [hf]
    nofun
  exact ⟨iff_of_true rfl ⟨_, place_goto_self _⟩,
    fun f f' hin hin' => (honly f hin).trans (honly f' hin').symm,
    fun t' ht' => h.outside_of_ne ht' hne⟩

/-- The owner of the lock gives it back, and nobody has it. -/
theorem LockInv.gives (h : LockInv st) (hf : st.place (st.running t) = .inside) :
    LockInv ({ st with spinlock := false }.goto (st.running t) .outside) := by
  have hnone : ∀ f, (st.goto (st.running t) .outside).place f ≠ .inside := by
    intro f hin
    by_cases hff : f = st.running t
    · rw [hff, place_goto_self] at hin
      cases hin
    · rw [place_goto_ne _ hff] at hin
      exact hff (h.one f _ hin hf)
  have hne : st.place (st.running t) ≠ .outside := by
    rw [hf]
    nofun
  exact ⟨iff_of_false Bool.false_ne_true (not_exists.mpr hnone),
    fun f _ hin => absurd hin (hnone f), fun t' ht' => h.outside_of_ne ht' hne⟩

theorem LockInv.step (h : LockInv st) {i : PyInput} (hs : PyLock.step st i = .running () st') :
    LockInv st' := by
  cases step_cases hs with
  | waits => exact h
  | @calls t ht hf =>
    refine h.goto ?_ nofun fun t' _ he => ?_
    · rw [hf]
      nofun
    · cases (Prod.mk.inj he).2
  | @signals t ht =>
    -- the handler starts outside, as it had returned before
    have hset : LockInv (st.setHandler t true) :=
      h.setHandler fun hb => absurd hb.symm Bool.false_ne_true
    refine hset.goto ?_ nofun fun t' ht' he => ?_
    · show st.place (t, .handler) ≠ .inside
      rw [h.returned t ht]
      nofun
    · obtain rfl := (Prod.mk.inj he).1
      exact absurd (ht'.symm.trans (inHandler_setHandler_self true)) Bool.false_ne_true
  | takes hf hfree => exact h.takes hf hfree
  | gives hf => exact h.gives hf
  | @returns t hf =>
    -- a handler returns from outside of the section
    apply h.setHandler
    intro _
    cases ht : st.inHandler t with
    | false => exact h.returned t ht
    | true => rwa [running_eq_handler ht] at hf

/-! ### A thread that waits for itself -/

theorem WaitsForItself.goto (h : st.WaitsForItself t) {place : LockPlace}
    (hcode : f ≠ (t, .code)) (hhandler : f ≠ (t, .handler)) :
    (st.goto f place).WaitsForItself t where
  interrupted := h.interrupted
  code := (place_goto_ne _ hcode.symm).trans h.code
  handler := (place_goto_ne _ hhandler.symm).trans h.handler

theorem WaitsForItself.setHandler (h : st.WaitsForItself t) {t' : ℕ} {b : Bool} (hne : t' ≠ t) :
    (st.setHandler t' b).WaitsForItself t where
  interrupted := (inHandler_setHandler_ne b hne.symm).trans h.interrupted
  code := h.code
  handler := h.handler

/-- Nobody can end the wait: the lock is not free, its owner does not run, and the handler that
runs in its place spins. -/
theorem WaitsForItself.step (h : LockInv st) (hw : st.WaitsForItself t) {i : PyInput}
    (hs : PyLock.step st i = .running () st') : st'.WaitsForItself t := by
  -- the code of the thread does not run
  have hother : ∀ t', st.inHandler t' = false → t' ≠ t := by
    rintro t' ht' rfl
    exact Bool.false_ne_true (ht'.symm.trans hw.interrupted)
  have hframe : ∀ {t' l l'}, t' ≠ t → ((t', l) : ℕ × FrameLevel) ≠ (t, l') :=
    fun hne he => hne (Prod.mk.inj he).1
  cases step_cases hs with
  | waits => exact hw
  | calls ht hf => exact hw.goto (hframe (hother _ ht)) (hframe (hother _ ht))
  | signals ht =>
    exact (hw.setHandler (hother _ ht)).goto (hframe (hother _ ht)) (hframe (hother _ ht))
  | takes hf hfree => exact absurd (hfree.symm.trans (h.taken.mpr ⟨_, hw.code⟩)) Bool.false_ne_true
  | @gives t' hf =>
    -- the owner would be running
    have hown : st.running t' = (t, .code) := h.one _ _ hf hw.code
    obtain rfl : t' = t := (Prod.mk.inj hown).1
    rw [running_eq_handler hw.interrupted] at hown
    cases (Prod.mk.inj hown).2
  | @returns t' hf =>
    apply hw.setHandler
    rintro rfl
    rw [running_eq_handler hw.interrupted, hw.handler] at hf
    cases hf

theorem WaitsForItself.exec (h : LockInv st) (hw : st.WaitsForItself t) {inputs : List PyInput}
    (hrun : Process.exec PyLock.step st inputs = .running () st') :
    LockInv st' ∧ st'.WaitsForItself t :=
  exec_invariant (I := fun s => LockInv s ∧ s.WaitsForItself t) (C := fun _ _ => True)
    (fun _ _ _ _ hI _ hs => ⟨hI.1.step hs, hI.2.step hI.1 hs⟩) ⟨h, hw⟩
    (along_of_forall fun _ _ => trivial) hrun

/-- A signal in the section. -/
theorem waitsForItself_of_signal (ht : st.inHandler t = false)
    (hin : st.place (t, .code) = .inside) (hs : step st (.signal t) = .running () st') :
    st'.WaitsForItself t := by
  dsimp only [step] at hs
  rw [if_neg (ht ▸ Bool.false_ne_true)] at hs
  obtain rfl := (Outcome.running.inj hs).2
  refine ⟨inHandler_setHandler_self true, ?_, place_goto_self _⟩
  have hne : (t, FrameLevel.code) ≠ (t, .handler) := fun he => by cases (Prod.mk.inj he).2
  exact (place_goto_ne _ hne).trans hin

/-- **Every step returns.** -/
theorem step_running (st : PyLock) (i : PyInput) : ∃ st', step st i = .running () st' := by
  cases i with
  | printStack t =>
    dsimp only [step]
    split_ifs
    · exact ⟨_, rfl⟩
    · exact ⟨_, rfl⟩
  | signal t =>
    dsimp only [step]
    split_ifs
    · exact ⟨_, rfl⟩
    · exact ⟨_, rfl⟩
  | advance t => exact ⟨_, rfl⟩

/-- From the first signal in its section on, a thread waits for itself. -/
theorem waitsForItself_of_not_along {inputs : List PyInput} (h : LockInv st)
    (hrun : exec step st inputs = .running () st')
    (hnot : ¬ Along step (SignalsOutside t) st inputs) : st'.WaitsForItself t := by
  induction inputs generalizing st with
  | nil => exact absurd trivial hnot
  | cons i is ih =>
    obtain ⟨s, hs⟩ := step_running st i
    rw [exec_cons_running _ hs] at hrun
    by_cases hC : SignalsOutside t st i
    · exact ih (h.step hs) hrun fun hrest => hnot (Along.cons hC hs hrest)
    · cases i with
      | printStack t' => exact absurd trivial hC
      | advance t' => exact absurd trivial hC
      | signal t' =>
        obtain ⟨rfl, hC⟩ := Classical.not_imp.mp hC
        obtain ⟨ht, hin⟩ := Classical.not_imp.mp hC
        -- the wait lasts to the end of the run
        exact ((waitsForItself_of_signal ht (not_not.mp hin) hs).exec (h.step hs) hrun).2

/-- The code that the handler of thread `t` interrupts does not have the lock. -/
def Clear (t : ℕ) (st : PyLock) : Prop :=
  st.inHandler t = true → st.place (t, .code) ≠ .inside

theorem Clear.not_waitsForItself (h : Clear t st) : ¬ st.WaitsForItself t :=
  fun hw => h hw.interrupted hw.code

theorem Clear.goto (h : Clear t st) {place : LockPlace} (hp : place ≠ .inside) :
    Clear t (st.goto f place) := by
  intro ht
  by_cases hff : (t, .code) = f
  · rw [← hff, place_goto_self]
    exact hp
  · rw [place_goto_ne _ hff]
    exact h ht

theorem Clear.setHandler (h : Clear t st) {t' : ℕ} {b : Bool}
    (hb : t' = t → b = true → st.place (t, .code) ≠ .inside) : Clear t (st.setHandler t' b) := by
  intro ht
  show st.place (t, .code) ≠ .inside
  by_cases htt : t' = t
  · rw [← htt, inHandler_setHandler_self] at ht
    exact hb htt ht
  · rw [inHandler_setHandler_ne _ (Ne.symm htt)] at ht
    exact h ht

theorem Clear.step (h : Clear t st) {i : PyInput} (hC : SignalsOutside t st i)
    (hs : PyLock.step st i = .running () st') : Clear t st' := by
  cases step_cases hs with
  | waits => exact h
  | calls ht hf => exact h.goto nofun
  | @signals t' ht =>
    have hset : Clear t (st.setHandler t' true) := by
      apply h.setHandler
      rintro rfl -
      exact hC rfl ht
    exact hset.goto nofun
  | @takes t' hf hfree =>
    intro ht
    have hin : st.inHandler t = true := ht
    by_cases hff : (t, .code) = st.running t'
    · -- the frame that runs is not the code of a thread in its handler
      obtain rfl : t = t' := (Prod.mk.inj hff).1
      rw [running_eq_handler hin] at hff
      cases (Prod.mk.inj hff).2
    · rw [place_goto_ne _ hff]
      exact h hin
  | gives hf =>
    have hfree : Clear t { st with spinlock := false } := h
    exact hfree.goto nofun
  | returns hf => exact h.setHandler fun _ hb => absurd hb Bool.false_ne_true

/-! ### A frame that gets the lock -/

theorem step_takes (hf : st.place (st.running t) = .spinning) (hfree : st.spinlock = false) :
    step st (.advance t) =
      .running () ({ st with spinlock := true }.goto (st.running t) .inside) := by
  simp only [step, advance, hf]
  rw [if_neg (hfree ▸ Bool.false_ne_true)]

theorem step_gives (hf : st.place (st.running t) = .inside) :
    step st (.advance t) =
      .running () ({ st with spinlock := false }.goto (st.running t) .outside) := by
  simp only [step, advance, hf]

theorem step_returns (hf : st.place (st.running t) = .outside) :
    step st (.advance t) = .running () (st.setHandler t false) := by
  simp only [step, advance, hf]

/-- What can be reached from here. -/
def Reaches (st st' : PyLock) : Prop :=
  ∃ rest, exec step st rest = .running () st'

theorem Reaches.refl (st : PyLock) : st.Reaches st :=
  ⟨[], rfl⟩

theorem Reaches.cons {s : PyLock} {i : PyInput} (hs : step st i = .running () s)
    (h : s.Reaches st') : st.Reaches st' := by
  obtain ⟨rest, hrest⟩ := h
  exact ⟨i :: rest, (exec_cons_running rest hs).trans hrest⟩

theorem Reaches.trans {s : PyLock} (h : st.Reaches s) (h' : s.Reaches st') : st.Reaches st' := by
  obtain ⟨rest, hrest⟩ := h
  obtain ⟨rest', hrest'⟩ := h'
  exact ⟨rest ++ rest', (exec_append hrest rest').trans hrest'⟩

theorem Reaches.lockInv (h : LockInv st) (hr : st.Reaches st') : LockInv st' := by
  obtain ⟨rest, hrest⟩ := hr
  exact exec_invariant (I := LockInv) (C := fun _ _ => True) (fun _ _ _ _ hI _ hs => hI.step hs) h
    (along_of_forall fun _ _ => trivial) hrest

/-- The frame that runs gives the lock back. -/
theorem reaches_gives (hf : st.place (st.running t) = .inside) :
    ∃ st', st.Reaches st' ∧ st'.spinlock = false ∧ st'.inHandler = st.inHandler ∧
      st'.place (st.running t) = .outside ∧
      ∀ f, f ≠ st.running t → st'.place f = st.place f :=
  ⟨_, .cons (step_gives hf) (.refl _), rfl, rfl, place_goto_self _,
    fun _ hne => place_goto_ne _ hne⟩

/-- The owner of the lock gives it back, from its handler if it is in one. Those who spin
still do. -/
theorem reaches_free (h : LockInv st) (hdead : ¬ st.Deadlocked) :
    ∃ st', st.Reaches st' ∧ st'.spinlock = false ∧
      ∀ f, st.place f = .spinning → st'.place f = .spinning := by
  cases hlock : st.spinlock with
  | false => exact ⟨st, .refl st, hlock, fun _ hf => hf⟩
  | true =>
    obtain ⟨⟨t, l⟩, hin⟩ := h.taken.mp hlock
    -- when the owner is the frame that runs
    have hruns : ∀ s : PyLock, s.place = st.place → s.running t = (t, l) →
        ∃ st', s.Reaches st' ∧ st'.spinlock = false ∧
          ∀ f, st.place f = .spinning → st'.place f = .spinning := by
      intro s hplace hrun
      have hown : s.place (s.running t) = .inside := by rw [hrun, hplace, hin]
      obtain ⟨st', hreach, hfree, -, -, hsame⟩ := reaches_gives hown
      refine ⟨st', hreach, hfree, fun f hf => ?_⟩
      rw [hsame f, hplace, hf]
      rintro rfl
      rw [hrun, hin] at hf
      cases hf
    cases hhandler : st.inHandler t with
    | false =>
      apply hruns st rfl
      rw [running_eq_code hhandler]
      cases l with
      | code => rfl
      | handler =>
        rw [h.returned t hhandler] at hin
        cases hin
    | true =>
      have hrun := running_eq_handler hhandler
      cases l with
      | handler => exact hruns st rfl hrun
      | code =>
        -- the handler has given the lock back before, and returns
        have hout : st.place (t, .handler) = .outside := by
          cases hp : st.place (t, .handler) with
          | outside => rfl
          | spinning => exact absurd ⟨t, hhandler, hin, hp⟩ hdead
          | inside => cases (Prod.mk.inj (h.one _ _ hp hin)).2
        obtain ⟨st', hreach, hst'⟩ := hruns (st.setHandler t false) rfl
          (running_eq_code (inHandler_setHandler_self false))
        exact ⟨st', .cons (step_returns (hrun ▸ hout)) hreach, hst'⟩

/-- A handler that finds the lock free takes it, gives it back and returns. -/
theorem reaches_code (h : LockInv st) (hfree : st.spinlock = false) (t : ℕ) :
    ∃ st', st.Reaches st' ∧ st'.spinlock = false ∧ st'.inHandler t = false ∧
      st'.place (t, .code) = st.place (t, .code) := by
  -- the last step
  have hreturns : ∀ s : PyLock, s.spinlock = false → s.inHandler t = true →
      s.place (t, .handler) = .outside → ∃ st', s.Reaches st' ∧ st'.spinlock = false ∧
        st'.inHandler t = false ∧ st'.place (t, .code) = s.place (t, .code) := by
    intro s hs hin hout
    rw [← running_eq_handler hin] at hout
    exact ⟨_, .cons (step_returns hout) (.refl _), hs, inHandler_setHandler_self false, rfl⟩
  cases hhandler : st.inHandler t with
  | false => exact ⟨st, .refl st, hfree, hhandler, rfl⟩
  | true =>
    have hrun := running_eq_handler hhandler
    cases hp : st.place (t, .handler) with
    | outside => exact hreturns st hfree hhandler hp
    | inside => exact absurd (hfree.symm.trans (h.taken.mpr ⟨_, hp⟩)) Bool.false_ne_true
    | spinning =>
      have htake := step_takes (hrun ▸ hp) hfree
      rw [hrun] at htake
      have hne : (t, FrameLevel.code) ≠ (t, .handler) := fun he => by cases (Prod.mk.inj he).2
      have hrun' : ({ st with spinlock := true }.goto (t, .handler) .inside).running t =
          (t, .handler) := hrun
      have hown : ({ st with spinlock := true }.goto (t, .handler) .inside).place
          (({ st with spinlock := true }.goto (t, .handler) .inside).running t) = .inside := by
        rw [hrun', place_goto_self]
      obtain ⟨s, hreach, hs, hin, hout, hsame⟩ := reaches_gives hown
      rw [hrun'] at hout hsame
      obtain ⟨st', hreach', hs', hin', hcode⟩ :=
        hreturns s hs ((congrFun hin t).trans hhandler) hout
      refine ⟨st', .cons htake (hreach.trans hreach'), hs', hin', ?_⟩
      calc st'.place (t, .code) = s.place (t, .code) := hcode
        _ = _ := hsame _ hne
        _ = st.place (t, .code) := place_goto_ne _ hne

/-- **A frame that spins gets the lock**, if no thread waits for itself. -/
theorem reaches_inside (h : LockInv st) (hdead : ¬ st.Deadlocked) (hf : st.place f = .spinning) :
    ∃ st', st.Reaches st' ∧ st'.place f = .inside := by
  obtain ⟨s, hreach, hfree, hspin⟩ := reaches_free h hdead
  have hs := hreach.lockInv h
  -- when the frame runs and the lock is free
  have htakes : ∀ s' : PyLock, s'.spinlock = false → s'.running f.1 = f → s'.place f = .spinning →
      ∃ st', s'.Reaches st' ∧ st'.place f = .inside := by
    intro s' hfree' hrun hf'
    rw [← hrun] at hf'
    refine ⟨_, .cons (step_takes hf' hfree') (.refl _), ?_⟩
    rw [hrun]
    exact place_goto_self _
  obtain ⟨t, l⟩ := f
  cases l with
  | handler =>
    cases hhandler : s.inHandler t with
    | false =>
      have hout := hs.returned t hhandler
      rw [hspin _ hf] at hout
      cases hout
    | true =>
      obtain ⟨st', hreach', hin⟩ := htakes s hfree (running_eq_handler hhandler) (hspin _ hf)
      exact ⟨st', hreach.trans hreach', hin⟩
  | code =>
    obtain ⟨s', hreach', hfree', hhandler, hcode⟩ := reaches_code hs hfree t
    obtain ⟨st', hreach'', hin⟩ := htakes s' hfree' (running_eq_code hhandler)
      (hcode.trans (hspin _ hf))
    exact ⟨st', (hreach.trans hreach').trans hreach'', hin⟩

/-- The lock in every run. One frame has it at a time. A thread waits for itself exactly when a
signal of it has arrived in the section of its code, and from then on nobody who spins gets the
lock; until then everybody who spins can get it. -/
theorem spinlock_of_run {inputs : List PyInput} (hrun : exec step init inputs = .running () st) :
    (∀ f f', st.place f = .inside → st.place f' = .inside → f = f') ∧
    (∀ t, st.WaitsForItself t ↔ ¬ Along step (SignalsOutside t) init inputs) ∧
    ∀ f, st.place f = .spinning →
      ((∃ rest st', exec step st rest = .running () st' ∧ st'.place f = .inside) ↔
        ¬ st.Deadlocked) := by
  have hinv : LockInv st := Reaches.lockInv .init ⟨inputs, hrun⟩
  refine ⟨hinv.one, fun t => ⟨fun hw halong => ?_, waitsForItself_of_not_along .init hrun⟩,
    fun f hf => ?_⟩
  · have hclear : Clear t st :=
      exec_invariant (fun _ _ _ _ h hC hs => h.step hC hs) (fun h => by cases h) halong hrun
    exact hclear.not_waitsForItself hw
  · constructor
    · rintro ⟨rest, st', hrest, hin⟩ ⟨t, hw⟩
      -- the thread that waits has the lock at the end too
      obtain ⟨hinv', hw'⟩ := hw.exec hinv hrest
      obtain rfl := hinv'.one _ _ hin hw'.code
      rw [hw.code] at hf
      cases hf
    · intro hdead
      obtain ⟨st', ⟨rest, hrest⟩, hin⟩ := reaches_inside hinv hdead hf
      exact ⟨rest, st', hrest, hin⟩

/-- A signal of thread 1 arrives in its section, and thread 2 calls: thread 1 waits for itself,
thread 2 does not, and never gets the lock. -/
theorem spinlock_signalInside :
    ∃ st, exec step init [.printStack 1, .advance 1, .signal 1, .printStack 2] =
        .running () st ∧ st.WaitsForItself 1 ∧ ¬ st.WaitsForItself 2 ∧
      ∀ rest st', exec step st rest = .running () st' → st'.place (2, .code) ≠ .inside := by
  obtain ⟨st, hst⟩ : ∃ st, exec step init
      [.printStack 1, .advance 1, .signal 1, .printStack 2] = .running () st := ⟨_, rfl⟩
  obtain ⟨-, hself, hgets⟩ := spinlock_of_run hst
  have hfirst : st.WaitsForItself 1 := by
    obtain rfl := (Outcome.running.inj hst).2
    exact ⟨rfl, rfl, rfl⟩
  have hsecond : ¬ st.WaitsForItself 2 := by
    refine fun hw => (hself 2).mp hw (.cons trivial rfl (.cons trivial rfl (.cons ?_ rfl
      (.cons trivial rfl trivial))))
    exact fun h => absurd h (by decide)
  have hspin : st.place (2, .code) = .spinning := by
    obtain rfl := (Outcome.running.inj hst).2
    rfl
  refine ⟨st, hst, hfirst, hsecond, fun rest st' hrest hin => ?_⟩
  exact (hgets (2, .code) hspin).mp ⟨rest, st', hrest, hin⟩ ⟨1, hfirst⟩

end PyLock

end Kognizance
