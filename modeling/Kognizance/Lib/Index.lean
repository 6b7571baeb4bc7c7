import Mathlib.Data.List.Nodup
import Mathlib.Tactic.Common

/-!
# A map kept together with an index of it

Owners `ι` hold values `σ` under keys `κ`: `f i k = some s`. An index lists the pairs
`(s, k)`, so that the keys of one value are found without the owners. The two are
written one after the other, so an entry may be `late`: held already, not indexed
yet.

`Indexes f late idx` says that `idx` lists exactly the entries that are not late,
each once. It survives a new entry (`Indexes.enter`), the arrival of a late one
(`Indexes.settle`), the removal of an entry from both (`Indexes.remove`) and the
removal of all entries of one value (`Indexes.removeGroup`).
-/

variable {ι κ σ : Type}

/-- `idx` lists the entries of `f` that are not late, each of them once. -/
structure Indexes (f : ι → κ → Option σ) (late : List (ι × κ × σ)) (idx : List (σ × κ)) :
    Prop where
  /-- A key has one owner. -/
  unique : ∀ i j k s s', f i k = some s → f j k = some s' → i = j
  late_held : ∀ i k s, (i, k, s) ∈ late → f i k = some s
  late_nodup : late.Nodup
  nodup : idx.Nodup
  mem : ∀ s k, (s, k) ∈ idx ↔ ∃ i, f i k = some s ∧ (i, k, s) ∉ late

namespace Indexes

variable {f g : ι → κ → Option σ} {late : List (ι × κ × σ)} {idx : List (σ × κ)}

theorem empty : Indexes (fun (_ : ι) (_ : κ) => (none : Option σ)) [] [] where
  unique := by simp
  late_held := by simp
  late_nodup := List.nodup_nil
  nodup := List.nodup_nil
  mem := by simp

theorem congr (h : Indexes f late idx) (hg : ∀ i k, g i k = f i k) : Indexes g late idx := by
  obtain rfl : g = f := funext fun i => funext fun k => hg i k
  exact h

/-- A key nobody holds is entered; its pair is late. -/
theorem enter [DecidableEq ι] [DecidableEq κ] (h : Indexes f late idx) {i : ι} {k : κ} {s : σ}
    (hfree : ∀ j, f j k = none)
    (hg : ∀ j l, g j l = if j = i ∧ l = k then some s else f j l) :
    Indexes g ((i, k, s) :: late) idx where
  unique := by
    intro j j' l t t' hj hj'
    rw [hg] at hj hj'
    by_cases hl : l = k
    · -- only `i` holds the new key
      subst hl
      rw [hfree] at hj hj'
      split_ifs at hj hj' with h1 h2
      exact h1.1.trans h2.1.symm
    · rw [if_neg fun e => hl e.2] at hj hj'
      exact h.unique j j' l t t' hj hj'
  late_held := by
    intro j l t hm
    rw [hg]
    rcases List.mem_cons.mp hm with he | hm
    · obtain ⟨rfl, rfl, rfl⟩ : j = i ∧ l = k ∧ t = s := by simpa using he
      exact if_pos ⟨rfl, rfl⟩
    · have hj := h.late_held j l t hm
      rwa [if_neg]
      rintro ⟨-, rfl⟩
      rw [hfree] at hj
      cases hj
  late_nodup := by
    refine List.nodup_cons.mpr ⟨fun hm => ?_, h.late_nodup⟩
    have hi := h.late_held i k s hm
    rw [hfree] at hi
    cases hi
  nodup := h.nodup
  mem := by
    intro t l
    rw [h.mem]
    constructor
    · rintro ⟨j, hj, hlate⟩
      -- a pair of the index has a holder, the new key had none
      have hl : l ≠ k := by
        rintro rfl
        rw [hfree] at hj
        cases hj
      refine ⟨j, ?_, ?_⟩
      · rw [hg, if_neg fun e => hl e.2]
        exact hj
      · simp [hlate, hl]
    · rintro ⟨j, hj, hlate⟩
      rw [hg] at hj
      split_ifs at hj with he
      · -- the new entry is late
        obtain ⟨rfl, rfl⟩ := he
        obtain rfl := Option.some.inj hj
        exact absurd List.mem_cons_self hlate
      · exact ⟨j, hj, fun hm => hlate (List.mem_cons_of_mem _ hm)⟩

/-- A late pair arrives in the index. -/
theorem settle [DecidableEq ι] [DecidableEq κ] [DecidableEq σ] (h : Indexes f late idx)
    {i : ι} {k : κ} {s : σ} (hm : (i, k, s) ∈ late) :
    Indexes f (late.erase (i, k, s)) (idx ++ [(s, k)]) where
  unique := h.unique
  late_held := fun j l t hj => h.late_held j l t (List.mem_of_mem_erase hj)
  late_nodup := h.late_nodup.erase _
  nodup := by
    refine List.nodup_append.mpr ⟨h.nodup, List.nodup_singleton _, ?_⟩
    rintro a ha b hb rfl
    obtain rfl := List.mem_singleton.mp hb
    -- an indexed pair is not late, and the key has one owner
    obtain ⟨j, hj, hnot⟩ := (h.mem s k).mp ha
    obtain rfl := h.unique j i k s s hj (h.late_held i k s hm)
    exact hnot hm
  mem := by
    intro t l
    rw [List.mem_append, h.mem, List.mem_singleton]
    constructor
    · rintro (⟨j, hj, hnot⟩ | he)
      · exact ⟨j, hj, fun hin => hnot (List.mem_of_mem_erase hin)⟩
      · obtain ⟨rfl, rfl⟩ : t = s ∧ l = k := by simpa using he
        exact ⟨i, h.late_held i l t hm, h.late_nodup.not_mem_erase⟩
    · rintro ⟨j, hj, hnot⟩
      by_cases he : (j, l, t) = (i, k, s)
      · obtain ⟨rfl, rfl, rfl⟩ : j = i ∧ l = k ∧ t = s := by simpa using he
        exact Or.inr rfl
      · exact Or.inl ⟨j, hj, fun hin => hnot ((List.mem_erase_of_ne he).mpr hin)⟩

/-- An entry goes, together with its pair. -/
theorem remove [DecidableEq ι] [DecidableEq κ] [DecidableEq σ] (h : Indexes f late idx)
    {i : ι} {k : κ} {s : σ} (hi : f i k = some s) (hlate : (i, k, s) ∉ late)
    (hg : ∀ j l, g j l = if j = i ∧ l = k then none else f j l) :
    Indexes g late (idx.erase (s, k)) := by
  have hsub : ∀ j l t, g j l = some t → f j l = some t := by
    intro j l t hj
    rw [hg] at hj
    split_ifs at hj
    exact hj
  refine ⟨fun j j' l t t' hj hj' => h.unique j j' l t t' (hsub _ _ _ hj) (hsub _ _ _ hj'),
    fun j l t hm => ?_, h.late_nodup, h.nodup.erase _, fun t l => ?_⟩
  · -- a late entry is not the one that goes
    have hj := h.late_held j l t hm
    rw [hg, if_neg]
    · exact hj
    · rintro ⟨rfl, rfl⟩
      obtain rfl := Option.some.inj (hi.symm.trans hj)
      exact hlate hm
  · rw [h.nodup.mem_erase_iff, h.mem]
    constructor
    · rintro ⟨hne, j, hj, hnot⟩
      refine ⟨j, ?_, hnot⟩
      rw [hg, if_neg]
      · exact hj
      · rintro ⟨rfl, rfl⟩
        exact hne (by rw [Option.some.inj (hj.symm.trans hi)])
    · rintro ⟨j, hj, hnot⟩
      refine ⟨?_, j, hsub j l t hj, hnot⟩
      intro he
      obtain ⟨rfl, rfl⟩ : t = s ∧ l = k := by simpa using he
      -- the pair of the removed key has no other owner
      obtain rfl := h.unique j i l t t (hsub j l t hj) hi
      rw [hg, if_pos ⟨rfl, rfl⟩] at hj
      cases hj

/-- All entries of one value go, and their pairs in bulk. -/
theorem removeGroup [DecidableEq σ] (h : Indexes f late idx) {s : σ}
    (hlate : ∀ i k, (i, k, s) ∉ late) (hg : ∀ j l, g j l = if f j l = some s then none else f j l) :
    Indexes g late (idx.filter fun p => p.1 ≠ s) := by
  -- what is left is every entry of another value
  have hiff : ∀ j l t, g j l = some t ↔ f j l = some t ∧ t ≠ s := by
    intro j l t
    rw [hg]
    split_ifs with hs
    · rw [hs]
      simp [eq_comm]
    · refine ⟨fun hj => ⟨hj, ?_⟩, And.left⟩
      rintro rfl
      exact hs hj
  refine ⟨fun j j' l t t' hj hj' =>
      h.unique j j' l t t' ((hiff j l t).mp hj).1 ((hiff j' l t').mp hj').1,
    fun j l t hm => ?_, h.late_nodup, h.nodup.filter _, fun t l => ?_⟩
  · -- an entry that is still late has no pair in the index that could go
    refine (hiff j l t).mpr ⟨h.late_held j l t hm, ?_⟩
    rintro rfl
    exact hlate j l hm
  · rw [List.mem_filter, h.mem]
    constructor
    · rintro ⟨⟨j, hj, hnot⟩, hne⟩
      exact ⟨j, (hiff j l t).mpr ⟨hj, by simpa using hne⟩, hnot⟩
    · rintro ⟨j, hj, hnot⟩
      obtain ⟨hj, hne⟩ := (hiff j l t).mp hj
      exact ⟨⟨j, hj, hnot⟩, by simpa using hne⟩

end Indexes
