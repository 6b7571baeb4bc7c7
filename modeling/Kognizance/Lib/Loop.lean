import Mathlib.Logic.Function.Iterate
import Mathlib.Data.Nat.Notation

/-!
# Loops

A loop takes one `step` after the other, until a `stop` test holds.
A loop that has stopped stays where it is, so its states can be numbered.

* `round_invariant`: what one step preserves holds after any number of rounds.
* `stop_of_bounded`: a loop whose place goes up with every step, and which stops at the last
  place, stops after as many rounds as there are places left.
* `trace_of_stop` and `trace_succ`: the states of a loop, one after the other.
-/

namespace Loop

variable {σ : Type} (step : σ → σ) (stop : σ → Bool)

/-- One round of `for (; !stop; step)`. -/
def round (s : σ) : σ := if stop s then s else step s

/-- The states the body of the loop runs in, and the state the loop leaves. -/
def trace : ℕ → σ → List σ × σ
  | 0, s => ([], s)
  | fuel + 1, s =>
    if stop s then ([], s)
    else ((s :: (trace fuel (step s)).1), (trace fuel (step s)).2)

variable {step stop} {s : σ}

theorem round_of_stop (h : stop s = true) : round step stop s = s := if_pos h

theorem round_of_not_stop (h : stop s = false) : round step stop s = step s := by
  simp [round, h]

theorem iterate_round_of_stop (h : stop s = true) (k : ℕ) : (round step stop)^[k] s = s :=
  Function.iterate_fixed (round_of_stop h) k

/-- What a step keeps where the loop goes on, every round keeps. -/
theorem round_invariant (inv : σ → Prop)
    (hstep : ∀ s, inv s → stop s = false → inv (step s)) (h : inv s) (k : ℕ) :
    inv ((round step stop)^[k] s) := by
  induction k with
  | zero => exact h
  | succ k ih =>
    rw [Function.iterate_succ_apply']
    cases hstop : stop ((round step stop)^[k] s) with
    | true => rwa [round_of_stop hstop]
    | false =>
      rw [round_of_not_stop hstop]
      exact hstep _ ih hstop

/-- **The loop stops**: its place goes up, and it stops at place `n`. -/
theorem stop_of_bounded (inv : σ → Prop) (pos : σ → ℕ) (n : ℕ)
    (hstep : ∀ s, inv s → stop s = false → inv (step s) ∧ pos s < pos (step s))
    (hlast : ∀ s, inv s → n ≤ pos s → stop s = true) (h : inv s) {k : ℕ} (hk : n ≤ pos s + k) :
    stop ((round step stop)^[k] s) = true := by
  induction k generalizing s with
  | zero => exact hlast s h hk
  | succ k ih =>
    cases hstop : stop s with
    | true => rwa [iterate_round_of_stop hstop]
    | false =>
      obtain ⟨hinv, hup⟩ := hstep s h hstop
      rw [Function.iterate_succ_apply, round_of_not_stop hstop]
      exact ih hinv (by omega)

theorem trace_of_stop (h : stop s = true) (fuel : ℕ) : trace step stop fuel s = ([], s) := by
  cases fuel <;> simp [trace, h]

theorem trace_succ (h : stop s = false) (fuel : ℕ) : trace step stop (fuel + 1) s =
    ((s :: (trace step stop fuel (step s)).1), (trace step stop fuel (step s)).2) := by
  simp [trace, h]

end Loop
