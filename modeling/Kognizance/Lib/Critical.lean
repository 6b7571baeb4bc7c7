import Mathlib.Data.Bool.Basic

/-!
# Critical sections of sequential code

Code is a list of steps of any type; `kind` says which of them take and give back one
mutex. A `call` stands for code that enters and leaves sections of its own and is put
in its place when it is reached (`Bracketed.expand`).

* `inside code` says that the code left is within a section: its next operation on the
  mutex gives it back.
* `Bracketed b code` says that the operations on the mutex alternate, from a mutex that
  is held (`b`) or not, and leave it free at the end.
-/

namespace Critical

/-- What a step is to the mutex. -/
inductive Kind
  | lock
  | unlock
  | call
  | other
  deriving DecidableEq, Repr

variable {α : Type} (kind : α → Kind)

/-- The next operation on the mutex gives it back. -/
def inside : List α → Bool
  | [] => false
  | a :: as =>
    match kind a with
    | .lock => false
    | .unlock => true
    | .call => false
    | .other => inside as

/-- The operations on the mutex alternate, and the code ends without it. -/
def Bracketed : Bool → List α → Prop
  | b, [] => b = false
  | b, a :: as =>
    match kind a with
    | .lock => b = false ∧ Bracketed true as
    | .unlock => b = true ∧ Bracketed false as
    | .call => b = false ∧ Bracketed false as
    | .other => Bracketed b as

/-- What a step of this kind may put in its place: calls bracketed code, the others
code that leaves the mutex alone. -/
def Expands (k : Kind) (more : List α) : Prop :=
  match k with
  | .call => Bracketed kind false more
  | _ => ∀ a ∈ more, kind a = .other

variable {kind} {b : Bool} {a : α} {as more : List α}

theorem bracketed_nil : Bracketed kind b [] ↔ b = false := Iff.rfl

theorem bracketed_lock (ha : kind a = .lock) :
    Bracketed kind b (a :: as) ↔ b = false ∧ Bracketed kind true as := by
  rw [Bracketed, ha]

theorem bracketed_unlock (ha : kind a = .unlock) :
    Bracketed kind b (a :: as) ↔ b = true ∧ Bracketed kind false as := by
  rw [Bracketed, ha]

theorem bracketed_call (ha : kind a = .call) :
    Bracketed kind b (a :: as) ↔ b = false ∧ Bracketed kind false as := by
  rw [Bracketed, ha]

theorem bracketed_other (ha : kind a = .other) :
    Bracketed kind b (a :: as) ↔ Bracketed kind b as := by
  rw [Bracketed, ha]

/-- In bracketed code the place tells whether the mutex is held. -/
theorem Bracketed.inside_eq (h : Bracketed kind b as) : inside kind as = b := by
  -- up to the next operation on the mutex
  induction as generalizing b with
  | nil => exact h.symm
  | cons a as ih =>
    unfold inside
    cases ha : kind a with
    | lock => exact ((bracketed_lock ha).mp h).1.symm
    | unlock => exact ((bracketed_unlock ha).mp h).1.symm
    | call => exact ((bracketed_call ha).mp h).1.symm
    | other => exact ih ((bracketed_other ha).mp h)

theorem Bracketed.append (h : Bracketed kind b more) (has : Bracketed kind false as) :
    Bracketed kind b (more ++ as) := by
  -- over the code in front, with the mutex as that code has it
  induction more generalizing b with
  | nil =>
    obtain rfl := bracketed_nil.mp h
    exact has
  | cons a more ih =>
    rw [List.cons_append]
    cases ha : kind a with
    | lock =>
      obtain ⟨hb, hmore⟩ := (bracketed_lock ha).mp h
      exact (bracketed_lock ha).mpr ⟨hb, ih hmore⟩
    | unlock =>
      obtain ⟨hb, hmore⟩ := (bracketed_unlock ha).mp h
      exact (bracketed_unlock ha).mpr ⟨hb, ih hmore⟩
    | call =>
      obtain ⟨hb, hmore⟩ := (bracketed_call ha).mp h
      exact (bracketed_call ha).mpr ⟨hb, ih hmore⟩
    | other => exact (bracketed_other ha).mpr (ih ((bracketed_other ha).mp h))

/-- Code that leaves the mutex alone can stand anywhere. -/
theorem Bracketed.prepend (hmore : ∀ a ∈ more, kind a = .other) (has : Bracketed kind b as) :
    Bracketed kind b (more ++ as) := by
  induction more with
  | nil => exact has
  | cons a more ih =>
    rw [List.cons_append, bracketed_other (hmore a List.mem_cons_self)]
    exact ih fun a ha => hmore a (List.mem_cons_of_mem _ ha)

/-- **A step that is replaced by what it stands for leaves bracketed code.** -/
theorem Bracketed.expand (h : Bracketed kind b (a :: as)) (hne : kind a ≠ .lock)
    (hne' : kind a ≠ .unlock) (hmore : Expands kind (kind a) more) :
    Bracketed kind b (more ++ as) := by
  cases ha : kind a with
  | lock => exact absurd ha hne
  | unlock => exact absurd ha hne'
  | call =>
    rw [ha] at hmore
    obtain ⟨rfl, has⟩ := (bracketed_call ha).mp h
    exact Bracketed.append hmore has
  | other =>
    rw [ha] at hmore
    exact Bracketed.prepend hmore ((bracketed_other ha).mp h)

/-- A sequence of calls can stand wherever the mutex is free. -/
theorem bracketed_calls (h : ∀ a ∈ as, kind a = .call) : Bracketed kind false as := by
  induction as with
  | nil => exact bracketed_nil.mpr rfl
  | cons a as ih =>
    rw [bracketed_call (h a List.mem_cons_self)]
    exact ⟨rfl, ih fun a ha => h a (List.mem_cons_of_mem _ ha)⟩

end Critical
