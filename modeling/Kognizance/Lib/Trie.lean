import Kognizance.Lib.Arena

/-!
# Tries in an arena

The nodes of an arena carry labels, and a list of labels leads from a node to a node. If the
arena is a forest, a node is reached from another one by one list at most; if siblings differ
in their labels (`Distinct`), a list leads to one node at most. Then the node reached and the
list read determine each other (`Forest.path_eq_iff`).

* `Path.mono`: hanging nodes elsewhere keeps the paths.
* `Distinct.hang`: a fresh node keeps siblings apart if its label is new among them.
-/

namespace Arena

variable {α : Type} {kids kids' : ℕ → List ℕ} {label label' : ℕ → α} {bound : ℕ}

/-- The labels `as` lead from the first node to the second. -/
inductive Path (kids : ℕ → List ℕ) (label : ℕ → α) : ℕ → List α → ℕ → Prop
  | nil (c : ℕ) : Path kids label c [] c
  | cons {c d e : ℕ} {as : List α} (hd : d ∈ kids c) (h : Path kids label d as e) :
    Path kids label c (label d :: as) e

/-- Siblings have different labels. -/
def Distinct (kids : ℕ → List ℕ) (label : ℕ → α) : Prop :=
  ∀ p, ∀ c ∈ kids p, ∀ d ∈ kids p, label c = label d → c = d

namespace Path

variable {c d e : ℕ} {as bs : List α}

theorem reaches (h : Path kids label c as d) : Below kids c d := by
  induction h with
  | nil => exact .refl
  | cons hd _ ih => exact .head hd ih

theorem append (h : Path kids label c as d) (h' : Path kids label d bs e) :
    Path kids label c (as ++ bs) e := by
  induction h with
  | nil => exact h'
  | cons hd _ ih => exact .cons hd (ih h')

/-- Edges that are kept, to nodes that keep their labels, keep the path. -/
theorem mono (h : Path kids label c as d) (hkids : ∀ p, kids p ⊆ kids' p)
    (hlabel : ∀ p, ∀ c ∈ kids p, label' c = label c) : Path kids' label' c as d := by
  induction h with
  | nil => exact .nil _
  | cons hd _ ih =>
    rw [← hlabel _ _ hd]
    exact .cons (hkids _ hd) ih

/-- The last label of a path is that of its end. -/
theorem split_last {a : α} (h : Path kids label c (as ++ [a]) e) :
    ∃ d, Path kids label c as d ∧ e ∈ kids d ∧ label e = a := by
  induction as generalizing c with
  | nil =>
    cases h with
    | cons hd h =>
      cases h
      exact ⟨c, .nil c, hd, rfl⟩
  | cons b as ih =>
    cases h with
    | cons hd h =>
      obtain ⟨d, hpath, he, hlabel⟩ := ih h
      exact ⟨d, .cons hd hpath, he, hlabel⟩

/-- **A list leads to one node at most** if siblings differ. -/
theorem end_unique (hD : Distinct kids label) (h : Path kids label c as d)
    (h' : Path kids label c as e) : d = e := by
  induction h with
  | nil =>
    cases h'
    rfl
  | @cons c x d as hx _ ih =>
    generalize hbs : label x :: as = bs at h'
    cases h' with
    | nil => cases hbs
    | @cons _ y _ _ hy h' =>
      obtain ⟨hlabel, rfl⟩ := List.cons.inj hbs
      obtain rfl := hD c x hx y hy hlabel
      exact ih h'

end Path

namespace Forest

variable {c d e : ℕ} {as bs : List α}

/-- **A node is reached by one list at most.** -/
theorem path_unique (hF : Forest kids bound) (h : Path kids label c as d)
    (h' : Path kids label c bs d) : as = bs := by
  induction h generalizing bs with
  | nil =>
    cases h' with
    | nil => rfl
    | cons hy h' => exact absurd (hF.le_of_below h'.reaches) (not_le.mpr (hF.lt hy))
  | @cons c x d as hx h ih =>
    cases h' with
    | nil => exact absurd (hF.le_of_below h.reaches) (not_le.mpr (hF.lt hx))
    | @cons _ y _ _ hy h' =>
      -- the first nodes of the two paths are siblings above a common node
      have hxy : x = y := by
        by_contra hne
        exact hF.siblings_disjoint hx hy hne h.reaches h'.reaches
      subst hxy
      rw [ih h']

/-- **The node and the list determine each other.** -/
theorem path_eq_iff (hF : Forest kids bound) (hD : Distinct kids label)
    (h : Path kids label c as d) (h' : Path kids label c bs e) : d = e ↔ as = bs := by
  constructor
  · rintro rfl
    exact hF.path_unique h h'
  · rintro rfl
    exact h.end_unique hD h'

/-- Hanging the next node keeps siblings apart, if no sibling of it has its label. -/
theorem distinct_hang (hF : Forest kids bound) (hD : Distinct kids label) {p : ℕ}
    (hlabel : ∀ q, ∀ c ∈ kids q, label' c = label c)
    (hnew : ∀ c ∈ kids p, label c ≠ label' bound) :
    Distinct (Arena.hang kids p bound) label' := by
  intro q c hc d hd heq
  rcases mem_hang.mp hc with ⟨hq, rfl⟩ | hc'
  · rcases mem_hang.mp hd with ⟨-, rfl⟩ | hd'
    · rfl
    · subst hq
      exact absurd (heq.trans (hlabel q d hd')).symm (hnew d hd')
  · rcases mem_hang.mp hd with ⟨rfl, rfl⟩ | hd'
    · exact absurd ((hlabel q c hc').symm.trans heq) (hnew c hc')
    · rw [hlabel q c hc', hlabel q d hd'] at heq
      exact hD q c hc' d hd' heq

end Forest

end Arena
