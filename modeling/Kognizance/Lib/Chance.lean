import Mathlib.Algebra.BigOperators.Field
import Mathlib.Algebra.BigOperators.Intervals
import Mathlib.Algebra.BigOperators.Ring.Finset
import Mathlib.Data.Finset.Density
import Mathlib.Data.Fintype.BigOperators
import Mathlib.Data.Fintype.Fin
import Mathlib.Data.Rat.Cast.Order
import Mathlib.Tactic.FieldSimp
import Mathlib.Tactic.Ring

/-!
# Chances in a finite space

`chance p` is the share of the outcomes of a finite space that lie in the event `p`,
every outcome being equally likely. Independent draws are a product: the outcomes of
`n` of them are the functions `∀ i, Ω i`.

* `chance_forall`: an event that asks something of every draw has the product of the
  chances.
* `chance_apply` and `chance_prod`: an event about one draw, and an event whose chance
  does not depend on the first of two draws.
* `chance_fin_eq` and `chance_fin_lt`: a number below `n` is drawn.
* `prod_keep` is the product of a sample that is put in certainly, or with chance
  `1 / (i + 1)`, and then kept with chance `m / (m + 1)` in each round `m`.
-/

namespace Chance

open Finset

open Classical in
/-- The chance of an event, all outcomes being equally likely. -/
noncomputable def chance {Ω : Type} [Fintype Ω] (p : Ω → Prop) : ℚ :=
  ({ω | p ω} : Finset Ω).dens

section

variable {Ω : Type} [Fintype Ω] {p q : Ω → Prop}

theorem chance_eq_card (p : Ω → Prop) [DecidablePred p] :
    chance p = (#{ω | p ω} : ℚ) / Fintype.card Ω := by
  rw [chance, nnratCast_dens]
  congr

theorem chance_congr (h : ∀ ω, p ω ↔ q ω) : chance p = chance q :=
  congrArg chance (funext fun ω => propext (h ω))

/-- A part has at most the chance of the whole. -/
theorem chance_mono (h : ∀ ω, p ω → q ω) : chance p ≤ chance q := by
  classical
  exact NNRat.cast_le.mpr (dens_le_dens fun ω => by simpa using h ω)

/-- A proper part has a smaller chance. -/
theorem chance_lt (h : ∀ ω, p ω → q ω) (hlt : ∃ ω, q ω ∧ ¬ p ω) : chance p < chance q := by
  classical
  obtain ⟨ω, hq, hp⟩ := hlt
  refine NNRat.cast_lt.mpr (dens_lt_dens ⟨fun ω => by simpa using h ω, fun hsub => hp ?_⟩)
  exact (mem_filter_univ ω).mp (hsub ((mem_filter_univ ω).mpr hq))

theorem exists_of_chance_pos (h : 0 < chance p) : ∃ ω, p ω := by
  classical
  obtain ⟨ω, hω⟩ := dens_pos.mp (NNRat.cast_pos.mp h)
  exact ⟨ω, (mem_filter_univ ω).mp hω⟩

variable [Nonempty Ω]

theorem chance_eq_one (h : ∀ ω, p ω) : chance p = 1 := by
  classical
  have huniv : ({ω | p ω} : Finset Ω) = univ := by
    ext ω
    simpa using h ω
  rw [chance, huniv, dens_univ, NNRat.cast_one]

theorem chance_not (p : Ω → Prop) : chance (fun ω => ¬ p ω) = 1 - chance p := by
  classical
  rw [eq_sub_iff_add_eq', chance, chance, ← NNRat.cast_add,
    dens_filter_add_dens_filter_not_eq_dens, dens_univ, NNRat.cast_one]

end

/-! ### Independent draws -/

section

variable {ι : Type} [Fintype ι] [DecidableEq ι]

/-- **The product rule.** -/
theorem chance_forall {Ω : ι → Type} [∀ i, Fintype (Ω i)] (p : ∀ i, Ω i → Prop) :
    chance (fun ω : ∀ i, Ω i => ∀ i, p i (ω i)) = ∏ i, chance (p i) := by
  classical
  -- the event is a box, and a box has as many points as the product of its sides
  have hset : ({ω | ∀ i, p i (ω i)} : Finset (∀ i, Ω i))
      = Fintype.piFinset fun i => {x | p i x} := by
    ext ω
    simp
  simp only [chance_eq_card, Finset.prod_div_distrib]
  rw [hset, Fintype.card_piFinset, Fintype.card_pi, Nat.cast_prod, Nat.cast_prod]

/-- An event about one of the draws. -/
theorem chance_apply {Ω : Type} [Fintype Ω] [Nonempty Ω] (i : ι) (p : Ω → Prop) :
    chance (fun ω : ι → Ω => p (ω i)) = chance p := by
  -- the other draws are asked nothing
  have hone : ∀ j, chance (fun x : Ω => j = i → p x) = if j = i then chance p else 1 := by
    intro j
    by_cases hj : j = i
    · rw [if_pos hj]
      exact chance_congr fun x => ⟨fun h => h hj, fun h _ => h⟩
    · rw [if_neg hj]
      exact chance_eq_one fun x h => absurd h hj
  calc chance (fun ω : ι → Ω => p (ω i))
      = chance (fun ω : ι → Ω => ∀ j, j = i → p (ω j)) :=
        chance_congr fun ω => ⟨fun h j hj => hj ▸ h, fun h => h i rfl⟩
    _ = ∏ j, chance (fun x : Ω => j = i → p x) := chance_forall fun j x => j = i → p x
    _ = chance p := by
        simp only [hone]
        rw [Finset.prod_ite_eq' univ i, if_pos (mem_univ i)]

end

/-- An event that has the same chance whatever the first draw is. -/
theorem chance_prod {α β : Type} [Fintype α] [Fintype β] [Nonempty α] {p : α × β → Prop}
    {c : ℚ} (h : ∀ a, chance (fun b => p (a, b)) = c) : chance p = c := by
  classical
  have ha : (Fintype.card α : ℚ) ≠ 0 := Nat.cast_ne_zero.mpr Fintype.card_ne_zero
  -- counted slice by slice
  have hcard : (#{x | p x} : ℚ) = ∑ a : α, (#{b | p (a, b)} : ℚ) := by
    rw [← Nat.cast_sum]
    simp only [Finset.card_filter, Fintype.sum_prod_type]
  simp only [chance_eq_card] at h ⊢
  rw [hcard, Fintype.card_prod, Nat.cast_mul, ← div_div, div_right_comm, Finset.sum_div]
  simp only [h]
  rw [Finset.sum_const, card_univ, nsmul_eq_mul, mul_div_cancel_left₀ c ha]

/-! ### Numbers -/

/-- A number is drawn with the same chance as any other. -/
theorem chance_fin_eq {n i : ℕ} (hi : i < n) : chance (fun v : Fin n => (v : ℕ) = i) = 1 / n := by
  have hset : ({v | (v : ℕ) = i} : Finset (Fin n)) = {⟨i, hi⟩} := by
    ext v
    simp [Fin.ext_iff]
  rw [chance_eq_card, hset, card_singleton, Fintype.card_fin, Nat.cast_one]

theorem chance_fin_lt {n m : ℕ} (hm : m ≤ n) : chance (fun v : Fin n => (v : ℕ) < m) = m / n := by
  rw [chance_eq_card, Fin.card_filter_val_lt, Nat.min_eq_right hm, Fintype.card_fin]

/-! ### Keeping a sample -/

/-- In round `m` a sample is kept with chance `m / (m + 1)`. Over the rounds from `i`
to `n` that is `i / n`. -/
theorem prod_keep (i : ℕ) {n : ℕ} (hi : 0 < i) (hn : i ≤ n) :
    ∏ m ∈ Finset.Ico i n, ((m : ℚ) / (m + 1)) = i / n := by
  -- the factors telescope
  induction n, hn using Nat.le_induction with
  | base =>
    have hne : (i : ℚ) ≠ 0 := Nat.cast_ne_zero.mpr hi.ne'
    rw [Finset.Ico_self, prod_empty, div_self hne]
  | succ n hn ih =>
    have hne : (n : ℚ) ≠ 0 := Nat.cast_ne_zero.mpr (hi.trans_le hn).ne'
    rw [prod_Ico_succ_top hn, ih, Nat.cast_succ]
    field_simp

end Chance
