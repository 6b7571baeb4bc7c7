import Mathlib.Algebra.Order.BigOperators.GroupWithZero.Finset
import Mathlib.Algebra.Order.Field.Basic
import Mathlib.Tactic.Positivity
import Kognizance.Lib.Chance
import Kognizance.Watchpoint.Library

/-!
# Which slot a sample gets

Samples that come one after the other, none of them refused, fill a fresh table from
slot 0 up; from then on `GetVictim` offers every slot to the sample with a chance of
`1 / (1 + counter)`, in a random order, until one takes it. A slot's counter is the
number of samples since the table was created, less the slot's own index.

* `attemptReplace_eq`: the attempts read the counters the table had before, and every
  slot survives the sample.
* `target`: the slot the sample `m` gets, by the draws made for it.
* `chance_target_zero`, `chance_target_zero_lt`: slot 0 takes the sample `m` with
  chance `1 / (m + 1)` when it is the only slot, and with a smaller one otherwise,
  because some other slot can be asked first.
* `retained_iff`: all samples are retained with the same chance iff there is one slot,
  or no sample after the table is full.
-/

namespace Kognizance

open Chance

/-! ### The attempts to replace -/

/-- The slot that is replaced, when slot `i` has survived `counter i` samples; `k` counts the
draws made. -/
def replaced (counter : ℕ → ℕ) (drand : ℕ → ℚ) : List ℕ → ℕ → Option ℕ
  | [], _ => none
  | loc :: rest, k =>
    if drand k ≤ 1 / (1 + counter loc) then some loc else replaced counter drand rest (k + 1)

theorem surviveAll_apply {is : List ℕ} (hnd : is.Nodup) (slots : Slots) (i : ℕ) :
    surviveAll slots is i = if i ∈ is then (slots i).survive else slots i := by
  -- over the list; the slot at its head is not in the rest
  induction is generalizing slots with
  | nil => rw [if_neg List.not_mem_nil, surviveAll, List.foldl_nil]
  | cons j is ih =>
    obtain ⟨hj, his⟩ := List.nodup_cons.mp hnd
    rw [surviveAll, List.foldl_cons]
    refine (ih his _).trans ?_
    by_cases hij : i = j
    · subst hij
      rw [if_neg hj, if_pos List.mem_cons_self, Function.update_self]
    · simp only [Function.update_of_ne hij, List.mem_cons, hij, false_or]

/-- **The attempts.** No slot is visited twice, so an attempt reads the counter the
table had at the start. -/
theorem attemptReplace_eq {counter : ℕ → ℕ} {is : List ℕ} (hnd : is.Nodup) (drand : ℕ → ℚ)
    (k : ℕ) (slots : Slots) (hc : ∀ i ∈ is, (slots i).samplePostFull = counter i) :
    attemptReplace drand is k slots
      = (replaced counter drand is k, surviveAll slots is) := by
  induction is generalizing k slots with
  | nil => rfl
  | cons j is ih =>
    obtain ⟨hj, his⟩ := List.nodup_cons.mp hnd
    have hcj : (slots j).samplePostFull = counter j := hc j List.mem_cons_self
    by_cases hd : drand k ≤ 1 / (1 + (counter j : ℚ))
    · simp only [attemptReplace, replaced, hcj, if_pos hd]
      rfl
    · -- slot `j` has survived, which none of the later attempts looks at
      simp only [attemptReplace, replaced, hcj, if_neg hd]
      refine (ih his (k + 1) _ fun i hi => ?_).trans rfl
      have hij : i ≠ j := fun h => hj (h ▸ hi)
      rw [Function.update_of_ne hij]
      exact hc i (List.mem_cons_of_mem j hi)

theorem mem_of_replaced {counter : ℕ → ℕ} {drand : ℕ → ℚ} {is : List ℕ} {k loc : ℕ}
    (h : replaced counter drand is k = some loc) : loc ∈ is := by
  induction is generalizing k with
  | nil => cases h
  | cons j is ih =>
    unfold replaced at h
    split at h
    · exact Option.some.inj h ▸ List.mem_cons_self
    · exact List.mem_cons_of_mem j (ih h)

/-- A slot is replaced by the draw made at its turn. -/
theorem drand_of_replaced {counter : ℕ → ℕ} {drand : ℕ → ℚ} {is : List ℕ} (hnd : is.Nodup)
    {k loc : ℕ} (h : replaced counter drand is k = some loc) :
    drand (k + is.idxOf loc) ≤ 1 / (1 + counter loc) := by
  induction is generalizing k with
  | nil => cases h
  | cons j is ih =>
    obtain ⟨hj, his⟩ := List.nodup_cons.mp hnd
    unfold replaced at h
    split at h
    · next hd =>
      obtain rfl := Option.some.inj h
      rw [List.idxOf_cons_self, add_zero]
      exact hd
    · -- a slot passed over does not come back, so the first turn of `loc` is its only one
      have hne : j ≠ loc := fun heq => hj (heq ▸ mem_of_replaced h)
      rw [List.idxOf_cons_ne is hne, Nat.add_succ, ← Nat.succ_add]
      exact ih his h

/-! ### The draws of one subscription -/

/-- `lrand48_r` and `drand48_r` on a buffer, each with a finite space of draws. -/
structure RandBuffer (A B : Type) where
  lrand48 : A → ℕ
  drand48 : B → ℚ

/-- The draws for one subscription: at most one of each kind a slot. -/
abbrev Draws (maxWP : ℕ) (A B : Type) := (Fin maxWP → A) × (Fin maxWP → B)

section

variable {A B : Type} {maxWP : ℕ}

/-- Ideal draws, as far as `GetVictim` can tell among `n` samples: `lrand48_r` gives every
slot with the same chance, and `drand48_r` is at most `1 / d` with chance `1 / d`. -/
structure RandBuffer.Uniform [Fintype A] [Fintype B] (R : RandBuffer A B) (maxWP n : ℕ) :
    Prop where
  lrand : ∀ i, i < maxWP → chance (fun a => R.lrand48 a % maxWP = i) = 1 / maxWP
  drand : ∀ d : ℕ, 1 ≤ d → d ≤ n → chance (fun b => R.drand48 b ≤ 1 / d) = 1 / d

/-- The values `lrand48_r` returns to one call of `GetVictim`. -/
def RandBuffer.lrand (R : RandBuffer A B) (lr : Fin maxWP → A) (i : ℕ) : ℕ :=
  if h : i < maxWP then R.lrand48 (lr ⟨i, h⟩) else 0

/-- The values `drand48_r` returns to one call of `GetVictim`. -/
def RandBuffer.drand (R : RandBuffer A B) (dr : Fin maxWP → B) (i : ℕ) : ℚ :=
  if h : i < maxWP then R.drand48 (dr ⟨i, h⟩) else 0

/-- The slot the sample `m` is put into: the next free one, or one that is replaced. Slot `i`
has survived `m - i` samples by then. -/
def target (R : RandBuffer A B) (m : ℕ) (d : Draws maxWP A B) : Option ℕ :=
  if m < maxWP then some m
  else replaced (fun i => m - i) (R.drand d.2) (shuffle maxWP (R.lrand d.1)) 0

variable {R : RandBuffer A B} {m n : ℕ}

theorem nodup_shuffle (lrand : ℕ → ℕ) : (shuffle maxWP lrand).Nodup :=
  (shuffle_perm maxWP lrand).nodup_iff.mpr List.nodup_range

/-- Every slot has its turn. -/
theorem turn_lt {i : ℕ} (hi : i < maxWP) (lrand : ℕ → ℕ) :
    (shuffle maxWP lrand).idxOf i < maxWP := by
  have hmem : i ∈ shuffle maxWP lrand :=
    (shuffle_perm _ _).mem_iff.mpr (List.mem_range.mpr hi)
  have hlt := List.idxOf_lt_length_of_mem hmem
  rwa [(shuffle_perm _ _).length_eq, List.length_range] at hlt

theorem target_lt {d : Draws maxWP A B} {i : ℕ} (h : target R m d = some i) : i < maxWP := by
  unfold target at h
  split at h
  · next hm => exact Option.some.inj h ▸ hm
  · exact lt_of_mem_shuffle (mem_of_replaced h)

/-- A sample gets no slot behind the next free one. -/
theorem target_le {d : Draws maxWP A B} {i : ℕ} (h : target R m d = some i) : i ≤ m := by
  rcases Nat.lt_or_ge m maxWP with hm | hm
  · rw [target, if_pos hm] at h
    exact (Option.some.inj h).ge
  · exact (target_lt h).le.trans hm

/-- A slot 0 that is replaced has had its turn. -/
theorem turn_of_target_zero {d : Draws maxWP A B} (hm : maxWP ≤ m)
    (h : target R m d = some 0) :
    R.drand d.2 ((shuffle maxWP (R.lrand d.1)).idxOf 0) ≤ 1 / (1 + (m : ℚ)) := by
  rw [target, if_neg hm.not_gt] at h
  have hd := drand_of_replaced (nodup_shuffle _) h
  rwa [zero_add, Nat.sub_zero] at hd

end

/-! ### How often slot 0 is replaced -/

section

variable {A B : Type} [Fintype A] [Fintype B] {R : RandBuffer A B} {maxWP m n : ℕ}

namespace RandBuffer.Uniform

/-- Every slot is drawn. -/
theorem exists_lrand (hR : R.Uniform maxWP n) {i : ℕ} (hi : i < maxWP) :
    ∃ a, R.lrand48 a % maxWP = i := by
  refine exists_of_chance_pos ?_
  rw [hR.lrand i hi]
  exact one_div_pos.mpr (Nat.cast_pos.mpr (Nat.zero_lt_of_lt hi))

/-- Every probability is undercut. -/
theorem exists_drand (hR : R.Uniform maxWP n) {d : ℕ} (h0 : 1 ≤ d) (hd : d ≤ n) :
    ∃ b, R.drand48 b ≤ 1 / d := by
  refine exists_of_chance_pos ?_
  rw [hR.drand d h0 hd]
  exact one_div_pos.mpr (Nat.cast_pos.mpr h0)

theorem nonempty (hR : R.Uniform maxWP n) (hk : 0 < maxWP) (hn : 0 < n) :
    Nonempty A ∧ Nonempty B := by
  obtain ⟨a, -⟩ := hR.exists_lrand hk
  obtain ⟨b, -⟩ := hR.exists_drand le_rfl hn
  exact ⟨⟨a⟩, ⟨b⟩⟩

/-- The draw at slot 0's turn, whenever that is. -/
theorem chance_turn (hR : R.Uniform maxWP n) (hk : 0 < maxWP) (hm : m < n) :
    chance (fun d : Draws maxWP A B =>
      R.drand d.2 ((shuffle maxWP (R.lrand d.1)).idxOf 0) ≤ 1 / (1 + (m : ℚ)))
      = 1 / (m + 1) := by
  obtain ⟨⟨a⟩, hB⟩ := hR.nonempty hk (Nat.zero_lt_of_lt hm)
  have hA : Nonempty (Fin maxWP → A) := ⟨fun _ => a⟩
  refine chance_prod fun lr => ?_
  -- the order is fixed by now, and so is slot 0's turn
  have hturn := turn_lt hk (R.lrand lr)
  have hdraw := hR.drand (m + 1) (Nat.le_add_left 1 m) hm
  rw [Nat.cast_add, Nat.cast_one] at hdraw
  simp only [RandBuffer.drand, dif_pos hturn, add_comm (1 : ℚ)]
  rw [chance_apply (⟨_, hturn⟩ : Fin maxWP) fun b => R.drand48 b ≤ 1 / ((m : ℚ) + 1)]
  exact hdraw

end RandBuffer.Uniform

/-- An only slot has its turn at once. -/
theorem chance_target_zero (hR : R.Uniform 1 n) (hm : 1 ≤ m) (hmn : m < n) :
    chance (fun d : Draws 1 A B => target R m d = some 0) = 1 / (m + 1) := by
  rw [← hR.chance_turn Nat.one_pos hmn]
  refine chance_congr fun d => ⟨turn_of_target_zero hm, fun h => ?_⟩
  have horder : shuffle 1 (R.lrand d.1) = [0] := List.perm_singleton.mp (shuffle_perm _ _)
  rw [horder, List.idxOf_cons_self] at h
  rw [target, if_neg hm.not_gt, horder, replaced, Nat.sub_zero, if_pos h]

/-- When every draw of `lrand48_r` picks slot 1, it comes first. -/
theorem shuffle_one (hk : 2 ≤ maxWP) {lrand : ℕ → ℕ}
    (h : ∀ i, i < maxWP → lrand i % maxWP = 1) : ∃ rest, shuffle maxWP lrand = 1 :: rest := by
  obtain ⟨k, rfl⟩ := Nat.exists_eq_add_of_le' hk
  -- step 0 puts it there, and the later steps swap other entries
  have hrest : ∀ (js order : List ℕ), order[0]? = some 1 → (∀ j ∈ js, j ≠ 0 ∧ j < k + 2) →
      (js.foldl (fun slots i => (slots.set i (slots.getD (lrand i % (k + 2)) 0)).set
        (lrand i % (k + 2)) (slots.getD i 0)) order)[0]? = some 1 := by
    intro js
    induction js with
    | nil => exact fun order horder _ => horder
    | cons j js ih =>
      intro order horder hjs
      obtain ⟨hj0, hj⟩ := hjs j List.mem_cons_self
      refine ih _ ?_ fun i hi => hjs i (List.mem_cons_of_mem j hi)
      simp only [h j hj]
      rw [List.getElem?_set_ne Nat.one_ne_zero, List.getElem?_set_ne hj0]
      exact horder
  have hhead : (shuffle (k + 2) lrand)[0]? = some 1 := by
    rw [shuffle, List.range_succ_eq_map, List.foldl_cons]
    refine hrest _ _ ?_ fun j hj => ?_
    · rw [h 0 (Nat.zero_lt_succ _), List.getElem?_set_ne Nat.one_ne_zero,
        List.range_succ_eq_map]
      rfl
    · obtain ⟨i, hi, rfl⟩ := List.mem_map.mp hj
      exact ⟨Nat.succ_ne_zero i, Nat.succ_lt_succ (List.mem_range.mp hi)⟩
  rw [← List.head?_eq_getElem?] at hhead
  exact ⟨_, (List.eq_cons_of_mem_head? hhead)⟩

/-- **With a second slot, slot 0 is replaced too seldom**: now and then the other slot is
asked first, and takes the sample. -/
theorem chance_target_zero_lt (hR : R.Uniform maxWP n) (hk : 2 ≤ maxWP) (hm : maxWP ≤ m)
    (hmn : m < n) :
    chance (fun d : Draws maxWP A B => target R m d = some 0) < 1 / (m + 1) := by
  rw [← hR.chance_turn (Nat.zero_lt_of_lt hk) hmn]
  refine chance_lt (fun d => turn_of_target_zero hm) ?_
  -- these draws have slot 1 come first, and are low enough to replace any slot
  obtain ⟨a, ha⟩ := hR.exists_lrand hk
  obtain ⟨b, hb⟩ := hR.exists_drand (Nat.le_add_left 1 m) hmn
  rw [Nat.cast_add, Nat.cast_one, add_comm] at hb
  have hlrand : ∀ i, i < maxWP → R.lrand (fun _ : Fin maxWP => a) i % maxWP = 1 := by
    intro i hi
    rw [RandBuffer.lrand, dif_pos hi, ha]
  have hdrand : ∀ i, i < maxWP → R.drand (fun _ : Fin maxWP => b) i = R.drand48 b := by
    intro i hi
    rw [RandBuffer.drand, dif_pos hi]
  obtain ⟨rest, horder⟩ := shuffle_one hk hlrand
  refine ⟨(fun _ => a, fun _ => b), ?_, ?_⟩
  · -- slot 0 would have been replaced
    rw [hdrand _ (turn_lt (Nat.zero_lt_of_lt hk) _)]
    exact hb
  · -- but slot 1 is asked first
    have hle : R.drand48 b ≤ 1 / (1 + ((m - 1 : ℕ) : ℚ)) := by
      refine hb.trans (one_div_le_one_div_of_le ?_ ?_)
      · positivity
      · have hcast : ((m - 1 : ℕ) : ℚ) ≤ m := Nat.cast_le.mpr (Nat.sub_le m 1)
        exact add_le_add_right hcast 1
    rw [target, if_neg hm.not_gt, horder, replaced, hdrand 0 (Nat.zero_lt_of_lt hk), if_pos hle]
    exact fun heq => Nat.one_ne_zero (Option.some.inj heq)

end

/-! ### The sample a slot holds -/

/-- After `m` samples slot `j` holds the sample `i`: it got it, and has been given no other
since. -/
def Holds {n : ℕ} (targets : Fin n → Option ℕ) (m j : ℕ) (i : Fin n) : Prop :=
  (i : ℕ) < m ∧ targets i = some j ∧ ∀ l : Fin n, i < l → (l : ℕ) < m → targets l ≠ some j

/-- A slot holds one sample. -/
theorem Holds.unique {n : ℕ} {targets : Fin n → Option ℕ} {m j : ℕ} {i i' : Fin n}
    (h : Holds targets m j i) (h' : Holds targets m j i') : i = i' := by
  rcases lt_trichotomy i i' with hlt | heq | hlt
  · exact absurd h'.2.1 (h.2.2 i' hlt h'.1)
  · exact heq
  · exact absurd h.2.1 (h'.2.2 i hlt h.1)

section

variable {A B : Type} [Fintype A] [Fintype B] {R : RandBuffer A B} {maxWP n : ℕ}

/-- The slots the samples get, by all draws of the run. -/
def targets (R : RandBuffer A B) (ω : Fin n → Draws maxWP A B) (i : Fin n) : Option ℕ :=
  target R i (ω i)

/-- What round `m` has to do for slot 0 to hold the sample `i` at the end. -/
def Keeps (R : RandBuffer A B) (maxWP i m : ℕ) (d : Draws maxWP A B) : Prop :=
  (m = i → target R m d = some 0) ∧ (i < m → target R m d ≠ some 0)

theorem chance_holds_zero (i : Fin n) :
    chance (fun ω : Fin n → Draws maxWP A B => Holds (targets R ω) n 0 i)
      = ∏ m ∈ Finset.range n, chance (Keeps R maxWP i m) := by
  rw [← Fin.prod_univ_eq_prod_range fun m => chance (Keeps R maxWP i m),
    ← chance_forall fun (m : Fin n) => Keeps R maxWP i m]
  refine chance_congr fun ω => ⟨?_, fun h => ⟨i.isLt, (h i).1 rfl, fun l hl _ => (h l).2 hl⟩⟩
  rintro ⟨-, hi, hrest⟩ m
  refine ⟨fun hm => ?_, fun hm => hrest m hm m.isLt⟩
  obtain rfl := Fin.ext hm
  exact hi

theorem chance_keeps_self (i : ℕ) :
    chance (Keeps R maxWP i i) = chance fun d : Draws maxWP A B => target R i d = some 0 :=
  chance_congr fun _ =>
    ⟨fun h => h.1 rfl, fun h => ⟨fun _ => h, fun hlt => absurd hlt (lt_irrefl i)⟩⟩

variable [Nonempty A] [Nonempty B]

theorem chance_keeps_before {i m : ℕ} (h : m < i) : chance (Keeps R maxWP i m) = 1 :=
  chance_eq_one fun _ => ⟨fun hm => absurd hm h.ne, fun hm => absurd hm h.not_gt⟩

theorem chance_keeps_after {i m : ℕ} (h : i < m) :
    chance (Keeps R maxWP i m)
      = 1 - chance fun d : Draws maxWP A B => target R m d = some 0 := by
  rw [← chance_not]
  exact chance_congr fun _ => ⟨fun hk => hk.2 h, fun hk => ⟨fun hm => absurd hm h.ne', fun _ => hk⟩⟩

/-- **The only slot** holds every sample with the same chance. -/
theorem chance_holds_only {R : RandBuffer A B} (hR : R.Uniform 1 n) (i : Fin n) :
    chance (fun ω : Fin n → Draws 1 A B => Holds (targets R ω) n 0 i) = 1 / n := by
  have hi : (i : ℕ) + 1 ≤ n := i.isLt
  have hpos : ((i : ℚ) + 1) ≠ 0 := by positivity
  -- the sample is put in with chance `1 / (i + 1)`
  have hself : chance (Keeps R 1 (i : ℕ) i) = 1 / ((i : ℚ) + 1) := by
    rw [chance_keeps_self]
    rcases Nat.eq_zero_or_pos (i : ℕ) with h0 | h0
    · rw [h0, Nat.cast_zero, zero_add, div_one]
      exact chance_eq_one fun _ => rfl
    · exact chance_target_zero hR h0 hi
  have hbefore : ∏ m ∈ Finset.range i, chance (Keeps R 1 (i : ℕ) m) = 1 :=
    Finset.prod_eq_one fun m hm => chance_keeps_before (Finset.mem_range.mp hm)
  -- and kept in every later round
  have hafter : ∏ m ∈ Finset.Ico ((i : ℕ) + 1) n, chance (Keeps R 1 (i : ℕ) m)
      = ((i : ℚ) + 1) / n := by
    rw [← Nat.cast_succ, ← prod_keep (i + 1) (Nat.succ_pos _) hi]
    refine Finset.prod_congr rfl fun m hm => ?_
    obtain ⟨him, hmn⟩ := Finset.mem_Ico.mp hm
    rw [chance_keeps_after him, chance_target_zero hR (Nat.one_le_of_lt him) hmn]
    field_simp
    ring
  rw [chance_holds_zero, ← Finset.prod_range_mul_prod_Ico _ hi, Finset.prod_range_succ, hbefore,
    hself, hafter, one_mul]
  field_simp

/-- **The first of several slots** holds the first sample with a greater chance than `maxWP`
in `n`. -/
theorem chance_holds_first (hR : R.Uniform maxWP n) (hk : 2 ≤ maxWP) (hn : maxWP < n)
    (i : Fin n) (hi : (i : ℕ) = 0) :
    (maxWP : ℚ) / n
      < chance (fun ω : Fin n → Draws maxWP A B => Holds (targets R ω) n 0 i) := by
  have hpos : 0 < maxWP := Nat.zero_lt_of_lt hk
  -- slot 0 gets sample 0, and the next samples get slots of their own
  have hfill : ∏ m ∈ Finset.range maxWP, chance (Keeps R maxWP 0 m) = 1 := by
    refine Finset.prod_eq_one fun m hm => chance_eq_one fun d => ?_
    have htarget : target R m d = some m := if_pos (Finset.mem_range.mp hm)
    refine ⟨fun h0 => htarget.trans (congrArg some h0), fun h0 h => ?_⟩
    exact h0.ne' (Option.some.inj (htarget.symm.trans h))
  -- in every later round it is kept more often than the reservoir has it
  have hlater : ∀ m ∈ Finset.Ico maxWP n, (m : ℚ) / (m + 1) < chance (Keeps R maxWP 0 m) := by
    intro m hm
    obtain ⟨hkm, hmn⟩ := Finset.mem_Ico.mp hm
    rw [chance_keeps_after (hpos.trans_le hkm)]
    have hlt := chance_target_zero_lt hR hk hkm hmn
    have hsplit : (m : ℚ) / (m + 1) = 1 - 1 / (m + 1) := by
      field_simp
      ring
    rw [hsplit]
    exact sub_lt_sub_left hlt 1
  rw [chance_holds_zero, hi, ← Finset.prod_range_mul_prod_Ico _ hn.le, hfill, one_mul,
    ← prod_keep maxWP hpos hn.le]
  refine Finset.prod_lt_prod (fun m hm => ?_) (fun m hm => (hlater m hm).le)
    ⟨maxWP, Finset.left_mem_Ico.mpr hn, hlater maxWP (Finset.left_mem_Ico.mpr hn)⟩
  have hm : 0 < m := hpos.trans_le (Finset.mem_Ico.mp hm).1
  positivity

omit [Nonempty A] [Nonempty B]

/-- **Which reservoirs are fair.** Some slot holds a sample with the same chance for all
samples iff there is one slot, or no sample after the table is full. -/
theorem retained_iff (hR : R.Uniform maxWP n) (hk : 1 ≤ maxWP) (hn : maxWP ≤ n) :
    (∀ i : Fin n, chance (fun ω : Fin n → Draws maxWP A B => ∃ j, Holds (targets R ω) n j i)
      = maxWP / n) ↔ maxWP = 1 ∨ n = maxWP := by
  obtain ⟨hA, hB⟩ := hR.nonempty hk (hk.trans hn)
  constructor
  · -- otherwise slot 0 alone retains the first sample too often
    intro hfair
    by_contra hne
    rw [not_or] at hne
    have hk2 : 2 ≤ maxWP := by omega
    have hlt : maxWP < n := by omega
    have hfirst := chance_holds_first hR hk2 hlt ⟨0, Nat.zero_lt_of_lt hlt⟩ rfl
    rw [← hfair ⟨0, Nat.zero_lt_of_lt hlt⟩] at hfirst
    exact absurd (chance_mono fun ω h => ⟨0, h⟩) hfirst.not_ge
  · rintro (rfl | rfl) i
    · -- the slot that holds the sample is slot 0
      rw [Nat.cast_one, ← chance_holds_only hR i]
      refine chance_congr fun ω => ⟨?_, fun h => ⟨0, h⟩⟩
      rintro ⟨j, hj⟩
      obtain rfl : j = 0 := Nat.lt_one_iff.mp (target_lt hj.2.1)
      exact hj
    · -- every sample has a slot of its own
      have hne : (n : ℚ) ≠ 0 := Nat.cast_ne_zero.mpr (Nat.one_le_iff_ne_zero.mp hk)
      rw [div_self hne]
      refine chance_eq_one fun ω => ⟨i, i.isLt, if_pos i.isLt, fun l hl _ h => ?_⟩
      have hli : target R l (ω l) = some l := if_pos l.isLt
      exact hl.ne' (Fin.ext (Option.some.inj (hli.symm.trans h)))

end

end Kognizance
