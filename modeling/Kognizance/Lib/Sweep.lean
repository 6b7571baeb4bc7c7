import Mathlib.Order.Monotone.Basic
import Mathlib.Logic.Function.Iterate

/-!
# Linear sweeps

A sweep starts somewhere and goes up, one step after the other. It visits the places its steps
come to. A search follows the sweep until it has found a place, or has passed the last one.

* `search_total`: a search that always finds before the same target gives the one place it can
  find; it ends after as many rounds as there are places.
* `sameLanding_iff`: two sweeps that differ only in steps past the target land at the same place
  iff neither lands after a fork.
-/

namespace Sweep

/-- The sweep from `start` comes to `x`. -/
def Visited (next : ℕ → ℕ) (start x : ℕ) : Prop := ∃ n, next^[n] start = x

/-- The search: the place found, or none when the sweep has come to `stop`. -/
def search (next : ℕ → ℕ) (stop : ℕ) (found : ℕ → Bool) : ℕ → ℕ → Option (Option ℕ)
  | 0, _ => none
  | fuel + 1, x =>
    if x < stop then
      if found x then some (some x) else search next stop found fuel (next x)
    else some none

variable {next next' : ℕ → ℕ} {s x y p t : ℕ}

theorem Visited.refl (next : ℕ → ℕ) (s : ℕ) : Visited next s s := ⟨0, rfl⟩

theorem Visited.step (h : Visited next s x) : Visited next s (next x) := by
  obtain ⟨n, rfl⟩ := h
  exact ⟨n + 1, Function.iterate_succ_apply' next n s⟩

theorem Visited.trans (h : Visited next s x) (h' : Visited next x y) : Visited next s y := by
  obtain ⟨m, rfl⟩ := h
  obtain ⟨n, rfl⟩ := h'
  exact ⟨n + m, Function.iterate_add_apply next n m s⟩

/-- A sweep visits its start, and what the sweep from the next place visits. -/
theorem visited_iff : Visited next s x ↔ x = s ∨ Visited next (next s) x := by
  constructor
  · rintro ⟨_ | n, rfl⟩
    · exact Or.inl rfl
    · exact Or.inr ⟨n, rfl⟩
  · rintro (rfl | h)
    · exact Visited.refl next x
    · exact (Visited.refl next s).step.trans h

section Up

variable (hnext : ∀ x, x < next x)

include hnext

theorem strictMono_iterate (s : ℕ) : StrictMono fun n => next^[n] s :=
  strictMono_nat_of_lt_succ fun n => by
    rw [Function.iterate_succ_apply']
    exact hnext _

theorem Visited.le (h : Visited next s x) : s ≤ x := by
  obtain ⟨n, rfl⟩ := h
  exact (strictMono_iterate hnext s).monotone n.zero_le

/-- Of two places of a sweep, the higher one is visited from the lower one on. -/
theorem Visited.after (hx : Visited next s x) (hp : Visited next s p) (hlt : x < p) :
    Visited next (next x) p := by
  obtain ⟨m, rfl⟩ := hx
  obtain ⟨n, rfl⟩ := hp
  have hmn : m < n := (strictMono_iterate hnext s).lt_iff_lt.mp hlt
  refine ⟨n - (m + 1), ?_⟩
  rw [← Function.iterate_succ_apply' next m s, ← Function.iterate_add_apply,
    Nat.sub_add_cancel hmn]

/-- What is found lies right before the target, so there is one such place at most. -/
theorem Visited.unique (hx : Visited next s x) (hp : Visited next s p) (hxt : next x = t)
    (hpt : next p = t) : x = p := by
  rcases lt_trichotomy x p with hlt | heq | hlt
  · have hle := (hx.after hnext hp hlt).le hnext
    have hp' := hnext p
    omega
  · exact heq
  · have hle := (hp.after hnext hx hlt).le hnext
    have hx' := hnext x
    omega

/-- **What a search gives.** The fuel is the number of places, and one round to end. -/
theorem search_spec {found : ℕ → Bool} {stop fuel : ℕ}
    (hfound : ∀ x, found x = true → next x = t) (hfuel : stop - s < fuel) :
    ∃ r, search next stop found fuel s = some r ∧
      ∀ p, r = some p ↔ Visited next s p ∧ p < stop ∧ found p = true := by
  -- over the fuel, which bounds the places that are left
  induction fuel generalizing s with
  | zero => omega
  | succ fuel ih =>
    unfold search
    by_cases hstop : s < stop
    · rw [if_pos hstop]
      by_cases hs : found s = true
      · -- the start is the only place that can be found
        rw [if_pos hs]
        refine ⟨some s, rfl, fun p => ⟨?_, ?_⟩⟩
        · rintro ⟨rfl⟩
          exact ⟨Visited.refl next s, hstop, hs⟩
        · rintro ⟨hp, -, hp'⟩
          exact congrArg some ((Visited.refl next s).unique hnext hp (hfound s hs) (hfound p hp'))
      · rw [if_neg hs]
        -- the places visited from `s` on are `s`, which is not found, and those from `next s` on
        have hup := hnext s
        obtain ⟨r, hr, hspec⟩ := ih (s := next s) (by omega)
        refine ⟨r, hr, fun p => (hspec p).trans (and_congr_left fun hp => ?_)⟩
        rw [visited_iff (s := s)]
        exact (or_iff_right fun heq : p = s => hs (heq ▸ hp.2)).symm
    · -- the sweep has come to the end
      rw [if_neg hstop]
      refine ⟨none, rfl, fun p => ⟨fun h => (Option.some_ne_none p h.symm).elim, ?_⟩⟩
      rintro ⟨hp, hlt, -⟩
      have hle := hp.le hnext
      omega

/-! ### Two sweeps -/

/-- The result does not depend on the fuel, if that is enough. -/
theorem search_total {found : ℕ → Bool} (stop : ℕ) (s : ℕ)
    (hfound : ∀ x, found x = true → next x = t) :
    ∃ r, (∀ fuel, stop - s < fuel → search next stop found fuel s = some r) ∧
      ∀ p, r = some p ↔ Visited next s p ∧ p < stop ∧ found p = true := by
  obtain ⟨r, -, hspec⟩ := search_spec hnext hfound (Nat.lt_succ_self (stop - s))
  refine ⟨r, fun fuel hfuel => ?_, hspec⟩
  obtain ⟨r', hr', hspec'⟩ := search_spec hnext hfound hfuel
  have heq : r' = r := Option.ext fun p => (hspec' p).trans (hspec p).symm
  exact heq ▸ hr'

/-- What one sweep visits below the target the other one visits as well, unless they have forked
before. -/
theorem visited_or_fork (next' : ℕ → ℕ) (h : Visited next s p) (hp : p < t) :
    Visited next' s p ∨ ∃ x < t, Visited next s x ∧ Visited next' s x ∧ next x ≠ next' x ∧
      Visited next (next x) p := by
  obtain ⟨n, rfl⟩ := h
  induction n with
  | zero => exact Or.inl (Visited.refl next' s)
  | succ n ih =>
    have hup := hnext (next^[n] s)
    have hvisited : Visited next s (next^[n] s) := ⟨n, rfl⟩
    rw [Function.iterate_succ_apply'] at hp ⊢
    rcases ih (hup.trans hp) with h | ⟨x, hxt, hx, hx', hne, hafter⟩
    · by_cases heq : next (next^[n] s) = next' (next^[n] s)
      · exact Or.inl (heq ▸ h.step)
      · exact Or.inr ⟨_, hup.trans hp, hvisited, h, heq, Visited.refl _ _⟩
    · exact Or.inr ⟨x, hxt, hx, hx', hne, hafter.step⟩

/-- At a fork one of the steps leads past the target, so only the other sweep can land. -/
theorem not_lands_after_fork (hnext' : ∀ x, x < next' x)
    (hfork : t ≤ next x ∨ t ≤ next' x) (hx' : Visited next' s x) (hp : p < t)
    (hsame : Visited next' s p) : ¬ Visited next (next x) p := by
  intro h
  have hle := h.le hnext
  have hxp := (hnext x).trans_le hle
  have hle' := (hx'.after hnext' hsame hxp).le hnext'
  omega

end Up

/-- **Two sweeps land at the same places** iff neither lands after a fork. -/
theorem sameLanding_iff {lands : ℕ → Prop} (hnext : ∀ x, x < next x) (hnext' : ∀ x, x < next' x)
    (hlands : ∀ p, lands p → p < t)
    (hfork : ∀ x, s ≤ x → x < t → next x ≠ next' x → t ≤ next x ∨ t ≤ next' x) :
    (∀ p, lands p → (Visited next s p ↔ Visited next' s p)) ↔
      ∀ x < t, Visited next s x → Visited next' s x → next x ≠ next' x →
        ∀ p, lands p → ¬ Visited next (next x) p ∧ ¬ Visited next' (next' x) p := by
  constructor
  · -- after a fork the two sweeps are apart for good, so a landing there is one sweep's only
    intro hsame x hxt hx hx' hne p hp
    constructor
    · intro h
      exact not_lands_after_fork hnext hnext' (hfork x (hx.le hnext) hxt hne) hx'
        (hlands p hp)
        ((hsame p hp).mp (hx.step.trans h)) h
    · intro h
      exact not_lands_after_fork hnext' hnext (hfork x (hx.le hnext) hxt hne).symm hx
        (hlands p hp)
        ((hsame p hp).mpr (hx'.step.trans h)) h
  · -- a landing that the other sweep misses lies behind a fork
    intro hforks p hp
    constructor
    · intro h
      rcases visited_or_fork hnext next' h (hlands p hp) with
        h' | ⟨x, hxt, hx, hx', hne, hafter⟩
      · exact h'
      · exact absurd hafter (hforks x hxt hx hx' hne p hp).1
    · intro h
      rcases visited_or_fork hnext' next h (hlands p hp) with
        h' | ⟨x, hxt, hx, hx', hne, hafter⟩
      · exact h'
      · exact absurd hafter (hforks x hxt hx' hx hne.symm p hp).2

end Sweep
