import Mathlib.Data.Bool.Basic

/-!
# Code that locks and unlocks one mutex

Sequential code over a state `σ` and a mutex that is not recursive. Locking it again blocks
the thread for ever, unlocking it while it is free is undefined; either is a `Fault`.

* `Ends c s held a s'`: from `s`, with the mutex held or not, the code returns `a` in `s'` and
  leaves the mutex free.
* `ends_lock`, `ends_unlock`, `ends_act`, `ends_pure` and `ends_bind`: one rule for each kind of
  step; a branch is taken apart by cases.
* `ends_forM`: calls that each end so can follow on each other.
-/

namespace Mutex

/-- What goes wrong with the mutex. -/
inductive Fault
  /-- the thread waits for itself -/
  | blocked
  /-- the thread gives back what it does not have -/
  | notHeld
  deriving DecidableEq, Repr

/-- Code over a state and the mutex, which is held or not. -/
abbrev Code (σ α : Type) := StateT (σ × Bool) (Except Fault) α

variable {σ α β ι : Type}

def lock : Code σ Unit := fun s => if s.2 then throw .blocked else pure ((), s.1, true)

def unlock : Code σ Unit := fun s => if s.2 then pure ((), s.1, false) else throw .notHeld

/-- A step that leaves the mutex alone. -/
def act (f : σ → α × σ) : Code σ α := fun s => pure ((f s.1).1, (f s.1).2, s.2)

/-- The code returns, and leaves the mutex free. -/
def Ends (c : Code σ α) (s : σ) (held : Bool) (a : α) (s' : σ) : Prop :=
  c (s, held) = .ok (a, s', false)

variable {s s' s'' : σ} {a : α} {b : β} {held : Bool}

theorem ends_pure : Ends (pure a : Code σ α) s false a s := rfl

theorem ends_lock {k : Unit → Code σ α} (h : Ends (k ()) s true a s') :
    Ends (lock >>= k) s false a s' := h

theorem ends_unlock {k : Unit → Code σ α} (h : Ends (k ()) s false a s') :
    Ends (unlock >>= k) s true a s' := h

theorem ends_act {f : σ → α × σ} {k : α → Code σ β} (h : Ends (k (f s).1) (f s).2 held b s') :
    Ends (act f >>= k) s held b s' := h

/-- A call of code that locks and unlocks by itself. -/
theorem ends_bind {c : Code σ α} {k : α → Code σ β} (hc : Ends c s false a s')
    (hk : Ends (k a) s' false b s'') : Ends (c >>= k) s false b s'' := by
  have hrun : (c >>= k) (s, false) = (c (s, false) >>= fun r => k r.1 r.2) := rfl
  unfold Ends
  rw [hrun, hc]
  exact hk

/-- **A sequence of calls.** If each call ends from every state, so does the sequence. -/
theorem ends_forM {call : ι → Code σ Unit} {f : σ → ι → σ}
    (h : ∀ s i, Ends (call i) s false () (f s i)) (s : σ) (is : List ι) :
    Ends (is.forM call) s false () (is.foldl f s) := by
  induction is generalizing s with
  | nil => exact ends_pure
  | cons i is ih => exact ends_bind (h s i) (ih (f s i))

end Mutex
