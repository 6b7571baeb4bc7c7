import Mathlib.Data.List.Induction
import Mathlib.Tactic.Common

/-!
# Well-nested words

A word of brackets over labels `α`: `Nesting.unmatched [] w` are the brackets `w`
leaves open, innermost first, and `none` when a bracket closes that is not the
innermost open one.

`Nesting.lastOpens` is what a single flag knows of a word: whether its last bracket
was an opening one. It sees an opening bracket that is still open
(`unmatched_ne_nil_of_lastOpens`), and it is off after a word that closes everything
(`lastOpens_of_closed`); after an inner bracket has closed it forgets the outer ones.
-/

namespace Nesting

/-- A parenthesis with its label. -/
inductive Paren (α : Type)
  | opening (a : α)
  | closing (a : α)
  deriving DecidableEq, Repr

variable {α : Type}

/-- Whether a bracket opens. -/
def isOpening : Paren α → Bool
  | .opening _ => true
  | .closing _ => false

/-- A flag that every opening bracket sets and every closing bracket clears. -/
def lastOpens (flag : Bool) (w : List (Paren α)) : Bool :=
  w.foldl (fun _ c => isOpening c) flag

theorem lastOpens_concat (flag : Bool) (w : List (Paren α)) (c : Paren α) :
    lastOpens flag (w ++ [c]) = isOpening c := by
  simp [lastOpens]

theorem lastOpens_iff {w : List (Paren α)} :
    lastOpens false w = true ↔ ∃ a, w.getLast? = some (.opening a) := by
  induction w using List.reverseRecOn with
  | nil => simp [lastOpens]
  | append_singleton w c _ =>
    rw [lastOpens_concat, List.getLast?_concat]
    cases c <;> simp [isOpening]

variable [DecidableEq α]

/-- The brackets open after a word, given those open before it. -/
def unmatched : List α → List (Paren α) → Option (List α)
  | st, [] => some st
  | st, .opening a :: w => unmatched (a :: st) w
  | [], .closing _ :: _ => none
  | a :: st, .closing b :: w => if a = b then unmatched st w else none

theorem unmatched_append (st : List α) (u w : List (Paren α)) :
    unmatched st (u ++ w) = (unmatched st u).bind fun st' => unmatched st' w := by
  -- over the first word, with the open brackets carried along
  induction u generalizing st with
  | nil => rfl
  | cons c u ih =>
    cases c with
    | opening a => exact ih (a :: st)
    | closing b =>
      cases st with
      | nil => rfl
      | cons a st =>
        simp only [List.cons_append, unmatched]
        split
        · exact ih st
        · rfl

/-- After an opening bracket something is open. -/
theorem unmatched_ne_nil_of_lastOpens {st st' : List α} {w : List (Paren α)}
    (h : unmatched st w = some st') (hl : lastOpens false w = true) : st' ≠ [] := by
  induction w using List.reverseRecOn with
  | nil => cases hl
  | append_singleton w c _ =>
    rw [lastOpens_concat] at hl
    cases c with
    | closing b => cases hl
    | opening a =>
      rw [unmatched_append] at h
      cases hw : unmatched st w with
      | none => simp [hw] at h
      | some st₀ =>
        obtain rfl : a :: st₀ = st' := by simpa [hw, unmatched] using h
        exact List.cons_ne_nil a st₀

/-- A word that closes all it opens leaves the flag cleared. -/
theorem lastOpens_of_closed {w : List (Paren α)} (h : unmatched [] w = some []) :
    lastOpens false w = false := by
  cases hl : lastOpens false w with
  | false => rfl
  | true => exact absurd rfl (unmatched_ne_nil_of_lastOpens h hl)

end Nesting
