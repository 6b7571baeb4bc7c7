import Mathlib.Data.Nat.Notation
import Mathlib.Logic.Basic

/-!
# Runs of a process that may end

A process is a step function `step : σ → ι → Outcome σ α`. An input `ι` carries
everything the step does not compute itself (arguments, answers of the
environment), so a run is a list of inputs and `exec` evaluates it.

* `Outcome` separates a call that returns from one that ends the process, and
  keeps the state in both cases.
* `Along step C s is` says that every input of the run meets `C` in the state it
  is read in.
* `exec_invariant` and `exec_final` are the two induction rules: what every
  step preserves holds in every state reached, and what every ending step
  establishes holds of the state an ended process leaves.
* `exec_ofFn` is the rule for an invariant that counts the steps.
* `exec_append`, `Along.left` and `Along.right` cut a run in two.
* `exec_history` is the rule for an invariant that remembers the inputs.
* `lockstep` and `lockstep_along` are the rules for two processes that read the same inputs.
-/

namespace Process

/-- How a process ends without being asked to. -/
inductive Halt
  | exit
  | abort
  | segv
  deriving DecidableEq, Repr

/-- What a call leaves behind: a value and a state, or an ended process and the
state it ended in. -/
inductive Outcome (σ α : Type)
  | running (a : α) (s : σ)
  | ended (h : Halt) (s : σ)

namespace Outcome

variable {σ α : Type}

/-- The state an outcome leaves, whether or not the process goes on. -/
def state : Outcome σ α → σ
  | running _ s => s
  | ended _ s => s

/-- The value of a call that returned. -/
def value : Outcome σ α → Option α
  | running a _ => some a
  | ended _ _ => none

/-- How the process ended, if it did. -/
def halt : Outcome σ α → Option Halt
  | running _ _ => none
  | ended h _ => some h

theorem eq_running {o : Outcome σ α} {a : α} (h : o.value = some a) : o = running a o.state := by
  cases o with
  | running b s =>
    obtain rfl := Option.some.inj h
    rfl
  | ended e s => cases h

@[simp] theorem state_running (a : α) (s : σ) : (running a s).state = s := rfl

@[simp] theorem state_ended (h : Halt) (s : σ) :
    (ended h s : Outcome σ α).state = s := rfl

end Outcome

variable {σ ι α : Type}

/-- Read the inputs one after the other, until they are used up or the process
ends. -/
def exec (step : σ → ι → Outcome σ α) : σ → List ι → Outcome σ Unit
  | s, [] => .running () s
  | s, i :: is =>
    match step s i with
    | .running _ s' => exec step s' is
    | .ended h s' => .ended h s'

/-- Every input of the run meets `C` in the state it is read in. -/
def Along (step : σ → ι → Outcome σ α) (C : σ → ι → Prop) : σ → List ι → Prop
  | _, [] => True
  | s, i :: is => C s i ∧ ∀ a s', step s i = .running a s' → Along step C s' is

variable {step : σ → ι → Outcome σ α} {C : σ → ι → Prop}

theorem exec_cons_running {s s' : σ} {i : ι} {a : α} (is : List ι)
    (h : step s i = .running a s') : exec step s (i :: is) = exec step s' is := by
  simp [exec, h]

theorem exec_cons_ended {s s' : σ} {i : ι} {e : Halt} (is : List ι)
    (h : step s i = .ended e s') : exec step s (i :: is) = .ended e s' := by
  simp [exec, h]

/-- A step known to return hands the condition on to the state it leaves. -/
theorem Along.cons {s s' : σ} {i : ι} {a : α} {is : List ι} (hC : C s i)
    (hs : step s i = .running a s') (h : Along step C s' is) : Along step C s (i :: is) := by
  refine ⟨hC, fun b t ht => ?_⟩
  obtain ⟨-, rfl⟩ := Outcome.running.inj (hs.symm.trans ht)
  exact h

/-- Conditions can be weakened along a run. -/
theorem Along.mono {D : σ → ι → Prop} (hCD : ∀ s i, C s i → D s i) {s : σ} {is : List ι}
    (h : Along step C s is) : Along step D s is := by
  induction is generalizing s with
  | nil => trivial
  | cons i is ih => exact ⟨hCD s i h.1, fun a s' hs => ih (h.2 a s' hs)⟩

theorem Along.and {D : σ → ι → Prop} {s : σ} {is : List ι} (hC : Along step C s is)
    (hD : Along step D s is) : Along step (fun s i => C s i ∧ D s i) s is := by
  induction is generalizing s with
  | nil => trivial
  | cons i is ih => exact ⟨⟨hC.1, hD.1⟩, fun a s' hs => ih (hC.2 a s' hs) (hD.2 a s' hs)⟩

/-- A condition on the inputs alone holds along every run of such inputs. -/
theorem along_of_forall {D : ι → Prop} {s : σ} {is : List ι} (h : ∀ i ∈ is, D i) :
    Along step (fun _ i => D i) s is := by
  induction is generalizing s with
  | nil => trivial
  | cons i is ih =>
    exact ⟨h i List.mem_cons_self, fun _ _ _ => ih fun j hj => h j (List.mem_cons_of_mem i hj)⟩

/-- **The invariant rule.** What holds at the start and survives every step that
meets `C` holds in every state the run reaches. -/
theorem exec_invariant {I : σ → Prop}
    (hstep : ∀ s i a s', I s → C s i → step s i = .running a s' → I s')
    {s s' : σ} {is : List ι} (h0 : I s) (hC : Along step C s is)
    (h : exec step s is = .running () s') : I s' := by
  -- over the inputs; a run that returned has no step that ended it
  induction is generalizing s with
  | nil =>
    obtain ⟨⟩ := h
    exact h0
  | cons i is ih =>
    cases hs : step s i with
    | running a t =>
      rw [exec_cons_running _ hs] at h
      exact ih (hstep s i a t h0 hC.1 hs) (hC.2 a t hs) h
    | ended e t =>
      rw [exec_cons_ended _ hs] at h
      cases h

/-- With an invariant, a condition along a run yields what each of its steps does. -/
theorem Along.of_invariant {I : σ → Prop} {D : σ → ι → Prop}
    (hstep : ∀ s i a s', I s → C s i → step s i = .running a s' → I s')
    (hD : ∀ s i, I s → C s i → D s i) {s : σ} {is : List ι} (h0 : I s)
    (hC : Along step C s is) : Along step D s is := by
  induction is generalizing s with
  | nil => trivial
  | cons i is ih =>
    exact ⟨hD s i h0 hC.1, fun a s' hs => ih (hstep s i a s' h0 hC.1 hs) (hC.2 a s' hs)⟩

/-- **The invariant rule with ended processes.** `P` holds of the state a run
leaves when the invariant implies it and every ending step establishes it. -/
theorem exec_final {I P : σ → Prop}
    (hstep : ∀ s i a s', I s → C s i → step s i = .running a s' → I s')
    (hP : ∀ s, I s → P s)
    (hend : ∀ s i e s', I s → C s i → step s i = .ended e s' → P s')
    {s : σ} {is : List ι} (h0 : I s) (hC : Along step C s is) :
    P (exec step s is).state := by
  -- the run stops at the first step that ends the process
  induction is generalizing s with
  | nil => exact hP s h0
  | cons i is ih =>
    cases hs : step s i with
    | running a t =>
      rw [exec_cons_running _ hs]
      exact ih (hstep s i a t h0 hC.1 hs) (hC.2 a t hs)
    | ended e t =>
      rw [exec_cons_ended _ hs]
      exact hend s i e t h0 hC.1 hs

/-- **The numbered invariant rule.** When step `m` leads from `I m` to `I (m + 1)`, the
whole run returns, and leads to `I n`. -/
theorem exec_ofFn {n : ℕ} {op : Fin n → ι} {I : ℕ → σ → Prop}
    (hstep : ∀ (m : Fin n) s, I m s → C s (op m) →
      ∃ a s', step s (op m) = .running a s' ∧ I (m + 1) s')
    {s : σ} (h0 : I 0 s) (hC : Along step C s (List.ofFn op)) :
    ∃ s', exec step s (List.ofFn op) = .running () s' ∧ I n s' := by
  -- over the number of steps; behind the first one the numbers are shifted
  induction n generalizing I s with
  | zero => exact ⟨s, by rw [List.ofFn_zero, exec], h0⟩
  | succ n ih =>
    rw [List.ofFn_succ] at hC ⊢
    obtain ⟨a, t, ht, h1⟩ := hstep 0 s h0 hC.1
    rw [exec_cons_running _ ht]
    exact @ih (fun m => op m.succ) (fun m => I (m + 1)) (fun m s' => hstep m.succ s') t h1
      (hC.2 a t ht)

/-! ### A run in two parts -/

theorem exec_append {s s' : σ} {is : List ι} (h : exec step s is = .running () s')
    (js : List ι) : exec step s (is ++ js) = exec step s' js := by
  induction is generalizing s with
  | nil =>
    obtain ⟨⟩ := h
    rfl
  | cons i is ih =>
    cases hs : step s i with
    | running a t =>
      rw [exec_cons_running _ hs] at h
      rw [List.cons_append, exec_cons_running _ hs, ih h]
    | ended e t =>
      rw [exec_cons_ended _ hs] at h
      cases h

theorem Along.left {s : σ} {is js : List ι} (h : Along step C s (is ++ js)) :
    Along step C s is := by
  induction is generalizing s with
  | nil => trivial
  | cons i is ih => exact ⟨h.1, fun a t ht => ih (h.2 a t ht)⟩

theorem Along.right {s s' : σ} {is js : List ι} (h : Along step C s (is ++ js))
    (hs : exec step s is = .running () s') : Along step C s' js := by
  induction is generalizing s with
  | nil =>
    obtain ⟨⟩ := hs
    exact h
  | cons i is ih =>
    cases ht : step s i with
    | running a t =>
      rw [exec_cons_running _ ht] at hs
      exact ih (h.2 a t ht) hs
    | ended e t =>
      rw [exec_cons_ended _ ht] at hs
      cases hs

/-- **The invariant rule with a history.** `I` speaks of the inputs read so far, too. -/
theorem exec_history {I : List ι → σ → Prop}
    (hstep : ∀ pre s i a s', I pre s → step s i = .running a s' → I (pre ++ [i]) s')
    {pre is : List ι} {s s' : σ} (h0 : I pre s) (h : exec step s is = .running () s') :
    I (pre ++ is) s' := by
  induction is generalizing pre s with
  | nil =>
    obtain ⟨⟩ := h
    rwa [List.append_nil]
  | cons i is ih =>
    cases hs : step s i with
    | running a t =>
      rw [exec_cons_running _ hs] at h
      rw [List.append_cons]
      exact ih (hstep pre s i a t h0 hs) h
    | ended e t =>
      rw [exec_cons_ended _ hs] at h
      cases h

/-! ### Two processes in lockstep -/

/-- The values that the steps of a run return. -/
def values (step : σ → ι → Outcome σ α) : σ → List ι → List α
  | _, [] => []
  | s, i :: is =>
    match step s i with
    | .running a s' => a :: values step s' is
    | .ended _ _ => []

/-- The lockstep rule, for a run along which `C` holds in the states of the first process. -/
theorem lockstep_along {τ : Type} {step' : τ → ι → Outcome τ α} {R : σ → τ → Prop}
    (hstep : ∀ s t i, R s t → C s i →
      ∃ a s' t', step s i = .running a s' ∧ step' t i = .running a t' ∧ R s' t')
    {s : σ} {t : τ} {is : List ι} (h : R s t) (hC : Along step C s is) :
    values step s is = values step' t is ∧ R (exec step s is).state (exec step' t is).state := by
  induction is generalizing s t with
  | nil => exact ⟨rfl, h⟩
  | cons i is ih =>
    obtain ⟨a, s', t', hs, ht, h'⟩ := hstep s t i h hC.1
    obtain ⟨hvalues, hR⟩ := ih h' (hC.2 a s' hs)
    rw [exec_cons_running _ hs, exec_cons_running _ ht]
    refine ⟨?_, hR⟩
    unfold values
    rw [hs, ht]
    exact congrArg (a :: ·) hvalues

/-- **The lockstep rule.** If two processes return the same value from related states and
stay related, on every input that meets `D`, then so do their runs. -/
theorem lockstep {τ : Type} {step' : τ → ι → Outcome τ α} {R : σ → τ → Prop} {D : ι → Prop}
    (hstep : ∀ s t i, R s t → D i →
      ∃ a s' t', step s i = .running a s' ∧ step' t i = .running a t' ∧ R s' t')
    {s : σ} {t : τ} {is : List ι} (h : R s t) (hD : ∀ i ∈ is, D i) :
    values step s is = values step' t is ∧ R (exec step s is).state (exec step' t is).state :=
  lockstep_along hstep h (along_of_forall hD)

/-! ### The inputs of a run one by one -/

/-- Nothing is read in an empty run. -/
theorem forall_split_nil {P : List ι → ι → Prop} :
    ∀ pre i post, ([] : List ι) = pre ++ i :: post → P pre i := by
  intro pre i post h
  simp at h

/-- What holds of the first input and of each later one holds of every input together
with those before it. -/
theorem forall_split_cons {P : List ι → ι → Prop} {j : ι} {is : List ι} (hj : P [] j)
    (his : ∀ pre i post, is = pre ++ i :: post → P (j :: pre) i) :
    ∀ pre i post, j :: is = pre ++ i :: post → P pre i := by
  intro pre i post h
  cases pre with
  | nil =>
    obtain ⟨rfl, -⟩ := List.cons.inj h
    exact hj
  | cons k pre =>
    obtain ⟨rfl, hsplit⟩ := List.cons.inj h
    exact his pre i post hsplit

/-- The same from the other end. -/
theorem forall_split_concat {P : List ι → ι → Prop} {j : ι} {is : List ι}
    (his : ∀ pre i post, is = pre ++ i :: post → P pre i) (hj : P is j) :
    ∀ pre i post, is ++ [j] = pre ++ i :: post → P pre i := by
  intro pre i post h
  rcases List.eq_nil_or_concat post with rfl | ⟨post, k, rfl⟩
  · obtain ⟨rfl, hi⟩ := List.append_inj' h rfl
    obtain ⟨rfl, -⟩ := List.cons.inj hi
    exact hj
  · rw [List.concat_eq_append, ← List.cons_append, ← List.append_assoc] at h
    exact his pre i post (List.append_inj' h rfl).1

end Process
