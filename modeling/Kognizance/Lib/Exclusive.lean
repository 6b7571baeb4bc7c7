import Mathlib.Data.Set.Lattice
import Mathlib.Logic.Function.Basic
import Mathlib.Order.CompletePartialOrder
import Mathlib.Order.Interval.Set.Disjoint

/-!
# Exclusive claims on a set

Owners `ι` each claim at most one set of resources: `f i = some s` says that `i`
claims `s`. `Exclusive f` says that no two owners claim the same resource. It
survives every release (`Exclusive.release`) and every claim of a set that is
free of the others' (`Exclusive.claim`).
-/

variable {ι α : Type}

/-- No two owners claim the same resource. -/
def Exclusive (f : ι → Option (Set α)) : Prop :=
  ∀ i j s t, i ≠ j → f i = some s → f j = some t → Disjoint s t

namespace Exclusive

/-- Nobody claims anything. -/
theorem empty : Exclusive fun _ : ι => (none : Option (Set α)) := by
  intro i j s t _ hi
  cases hi

/-- Owners that keep their claim or give it up stay exclusive. -/
theorem release {f g : ι → Option (Set α)} (h : Exclusive f)
    (hg : ∀ i s, g i = some s → f i = some s) : Exclusive g :=
  fun i j s t hij hi hj => h i j s t hij (hg i s hi) (hg j t hj)

/-- One owner may claim a set that every other claim is disjoint from. -/
theorem claim {f g : ι → Option (Set α)} (h : Exclusive f) {i : ι} {s : Set α}
    (hi : g i = some s) (hg : ∀ j, j ≠ i → ∀ t, g j = some t → f j = some t)
    (hs : ∀ j, j ≠ i → ∀ t, g j = some t → Disjoint s t) : Exclusive g := by
  intro j k t u hjk hj hk
  by_cases hji : j = i
  · subst hji
    obtain rfl : s = t := Option.some.inj (hi.symm.trans hj)
    exact hs k (Ne.symm hjk) u hk
  · by_cases hki : k = i
    · subst hki
      obtain rfl : s = u := Option.some.inj (hi.symm.trans hk)
      exact (hs j hji t hj).symm
    · exact h j k t u hjk (hg j hji t hj) (hg k hki u hk)

end Exclusive
