import Mathlib.Data.List.TakeWhile
import Mathlib.Order.Bounds.Basic

/-!
# Multimaps and their iterators

A `std::multimap` is a list of entries in the order of their keys; entries with one key stay in
the order of their insertion. An iterator is a place in the list: the entries before it, the
nearest first, and those from it on. `lower_bound` is the place before the first key that is
not smaller.

* `lowerBound_cases`: what lies before the place and what from it on.
* `isGreatest_prev`: the entry before the place is the one with the greatest smaller key.
* `isLeast_deref`: the entry at the place is the one with the least key that is not smaller.
* `insert_mapValues`: maps that are filled in step have the same keys at the same places.
-/

/-- `std::multimap` -/
structure Multimap (K V : Type) [LinearOrder K] where
  entries : List (K × V)
  sorted : entries.Pairwise fun a b => a.1 ≤ b.1

namespace Multimap

variable {K V W : Type} [LinearOrder K]

/-- A place between the entries. -/
structure Iterator (K V : Type) where
  before : List (K × V)
  rest : List (K × V)

namespace Iterator

/-- `it == begin()` -/
def isBegin (it : Iterator K V) : Bool := it.before.isEmpty

/-- `it == end()` -/
def isEnd (it : Iterator K V) : Bool := it.rest.isEmpty

/-- `*it`, which `end()` does not have. -/
def deref (it : Iterator K V) : Option (K × V) := it.rest.head?

/-- `it--`, which `begin()` does not have. -/
def prev : Iterator K V → Iterator K V
  | ⟨[], rest⟩ => ⟨[], rest⟩
  | ⟨entry :: before, rest⟩ => ⟨before, entry :: rest⟩

end Iterator

def empty : Multimap K V := ⟨[], List.Pairwise.nil⟩

/-- What is dropped is the passing part of the list, if nothing behind an entry that fails
passes. -/
theorem eq_false_of_mem_dropWhile {α : Type} {l : List α} {p : α → Bool}
    (h : l.Pairwise fun a b => p b = true → p a = true) {e : α} (he : e ∈ l.dropWhile p) :
    p e = false := by
  induction l with
  | nil => cases he
  | cons a l ih =>
    obtain ⟨hle, hl⟩ := List.pairwise_cons.mp h
    by_cases ha : p a = true
    · rw [List.dropWhile_cons_of_pos ha] at he
      exact ih hl he
    · rw [List.dropWhile_cons_of_neg ha] at he
      rcases List.mem_cons.mp he with rfl | he
      · exact Bool.eq_false_iff.mpr ha
      · exact Bool.eq_false_iff.mpr fun hpe => ha (hle e he hpe)

/-- Behind the keys up to `k` come greater ones only. -/
theorem lt_of_mem_dropWhile {m : Multimap K V} {k : K} {e : K × V}
    (he : e ∈ m.entries.dropWhile fun e => e.1 ≤ k) : k < e.1 := by
  have hno := eq_false_of_mem_dropWhile (m.sorted.imp fun {a b} hab => by
    simp only [decide_eq_true_eq]
    exact fun hb => hab.trans hb) he
  simpa using hno

/-- `insert`: behind the entries with the same key. -/
def insert (m : Multimap K V) (k : K) (v : V) : Multimap K V where
  entries := (m.entries.takeWhile fun e => e.1 ≤ k) ++
    (k, v) :: m.entries.dropWhile fun e => e.1 ≤ k
  sorted := by
    have hle : ∀ e ∈ m.entries.takeWhile fun e => e.1 ≤ k, e.1 ≤ k := fun e he => by
      simpa using List.mem_takeWhile_imp he
    have hlt : ∀ e ∈ m.entries.dropWhile fun e => e.1 ≤ k, k < e.1 := fun e he =>
      lt_of_mem_dropWhile he
    refine List.pairwise_append.mpr ⟨m.sorted.sublist (List.takeWhile_sublist _), ?_, ?_⟩
    · exact List.pairwise_cons.mpr ⟨fun e he => (hlt e he).le,
        m.sorted.sublist (List.dropWhile_sublist _)⟩
    · intro a ha b hb
      rcases List.mem_cons.mp hb with rfl | hb
      · exact hle a ha
      · exact (hle a ha).trans (hlt b hb).le

/-- The entries of a list, inserted one after the other. -/
def ofList (l : List (K × V)) : Multimap K V := l.foldl (fun m e => m.insert e.1 e.2) empty

/-- `find(k) != end()` -/
def contains (m : Multimap K V) (k : K) : Bool := m.entries.any fun e => e.1 = k

/-- `lower_bound` -/
def lowerBound (m : Multimap K V) (k : K) : Iterator K V where
  before := (m.entries.takeWhile fun e => e.1 < k).reverse
  rest := m.entries.dropWhile fun e => e.1 < k

variable {m : Multimap K V} {k : K} {e : K × V}

/-- Entries with one key stay in the order of their insertion. -/
theorem filter_insert (m : Multimap K V) (k k' : K) (v : V) :
    ((m.insert k v).entries.filter fun e => e.1 = k') =
      (m.entries.filter fun e => e.1 = k') ++ [(k, v)].filter fun e => e.1 = k' := by
  have hsplit := congrArg (List.filter fun e => e.1 = k')
    (List.takeWhile_append_dropWhile (p := fun e => e.1 ≤ k) (l := m.entries))
  rw [List.filter_append] at hsplit
  unfold insert
  rw [List.filter_append, List.filter_cons, ← hsplit]
  rcases eq_or_ne k k' with rfl | hk
  · -- what is behind the new entry has greater keys
    have hnone : (m.entries.dropWhile fun e => e.1 ≤ k).filter (fun e => e.1 = k) = [] := by
      refine List.filter_eq_nil_iff.mpr fun e he => ?_
      have hlt := lt_of_mem_dropWhile he
      simpa using hlt.ne'
    simp [hnone]
  · simp [hk]

theorem filter_ofList (l : List (K × V)) (k : K) :
    ((ofList l).entries.filter fun e => e.1 = k) = l.filter fun e => e.1 = k := by
  have hfold : ∀ m : Multimap K V,
      ((l.foldl (fun m e => m.insert e.1 e.2) m).entries.filter fun e => e.1 = k) =
        (m.entries.filter fun e => e.1 = k) ++ l.filter fun e => e.1 = k := by
    induction l with
    | nil => exact fun m => (List.append_nil _).symm
    | cons a l ih =>
      intro m
      rw [List.foldl_cons, ih, filter_insert, List.append_assoc, ← List.filter_append]
      rfl
  exact hfold empty

theorem mem_ofList {l : List (K × V)} : e ∈ (ofList l).entries ↔ e ∈ l := by
  have hfilter := congrArg (e ∈ ·) (filter_ofList l e.1)
  simpa using hfilter

theorem contains_iff : m.contains k = true ↔ ∃ e ∈ m.entries, e.1 = k := by
  unfold contains
  simp only [List.any_eq_true, decide_eq_true_eq]

/-- **The place of `lower_bound`**: smaller keys are before it, the others from it on. -/
theorem lowerBound_cases (m : Multimap K V) (k : K) :
    (∀ e ∈ (m.lowerBound k).before, e ∈ m.entries ∧ e.1 < k) ∧
    (∀ e ∈ (m.lowerBound k).rest, e ∈ m.entries ∧ k ≤ e.1) ∧
    ∀ e ∈ m.entries, e ∈ (m.lowerBound k).before ∨ e ∈ (m.lowerBound k).rest := by
  refine ⟨fun e he => ?_, fun e he => ⟨(List.dropWhile_subset _) he, ?_⟩, fun e he => ?_⟩
  · have he' := List.mem_reverse.mp he
    exact ⟨(List.takeWhile_subset _) he', by simpa using List.mem_takeWhile_imp he'⟩
  · have hno := eq_false_of_mem_dropWhile (m.sorted.imp fun {a b} hab => by
      simp only [decide_eq_true_eq]
      exact fun hb => hab.trans_lt hb) he
    simpa using hno
  · unfold lowerBound
    rw [List.mem_reverse, ← List.mem_append, List.takeWhile_append_dropWhile]
    exact he

/-- The entry before the place has the greatest key of those that are smaller. -/
theorem isGreatest_prev {before : List (K × V)} (h : (m.lowerBound k).before = e :: before) :
    IsGreatest {x | x < k ∧ ∃ e ∈ m.entries, e.1 = x} e.1 := by
  obtain ⟨hbefore, hrest, hall⟩ := m.lowerBound_cases k
  have he : e ∈ (m.lowerBound k).before := h ▸ List.mem_cons_self
  refine ⟨⟨(hbefore e he).2, e, (hbefore e he).1, rfl⟩, ?_⟩
  rintro _ ⟨hlt, e', he', rfl⟩
  have hmem := (hall e' he').resolve_right fun hr => absurd hlt (not_lt.mpr (hrest e' hr).2)
  -- the entries before the place are sorted downwards from it
  have hsorted : (m.lowerBound k).before.Pairwise fun a b => b.1 ≤ a.1 := by
    unfold lowerBound
    exact List.pairwise_reverse.mpr (m.sorted.sublist (List.takeWhile_sublist _))
  rw [h] at hmem hsorted
  rcases List.mem_cons.mp hmem with rfl | hmem
  · exact le_rfl
  · exact (List.pairwise_cons.mp hsorted).1 e' hmem

/-- The first entry from the place on has the least key of those that are not smaller. -/
theorem isLeast_deref {rest : List (K × V)} (h : (m.lowerBound k).rest = e :: rest) :
    IsLeast {x | k ≤ x ∧ ∃ e ∈ m.entries, e.1 = x} e.1 := by
  obtain ⟨hbefore, hrest, hall⟩ := m.lowerBound_cases k
  have he : e ∈ (m.lowerBound k).rest := h ▸ List.mem_cons_self
  refine ⟨⟨(hrest e he).2, e, (hrest e he).1, rfl⟩, ?_⟩
  rintro _ ⟨hle, e', he', rfl⟩
  have hmem := (hall e' he').resolve_left fun hb => absurd (hbefore e' hb).2 (not_lt.mpr hle)
  have hsorted : (m.lowerBound k).rest.Pairwise fun a b => a.1 ≤ b.1 :=
    m.sorted.sublist (List.dropWhile_sublist _)
  rw [h] at hmem hsorted
  rcases List.mem_cons.mp hmem with rfl | hmem
  · exact le_rfl
  · exact (List.pairwise_cons.mp hsorted).1 e' hmem

theorem lowerBound_split (m : Multimap K V) (k : K) :
    (m.lowerBound k).before.reverse ++ (m.lowerBound k).rest = m.entries := by
  unfold lowerBound
  rw [List.reverse_reverse, List.takeWhile_append_dropWhile]

/-- Of the entries with its key, the one before the place is the last. -/
theorem getLast?_prev {before : List (K × V)} (h : (m.lowerBound k).before = e :: before) :
    (m.entries.filter fun a => a.1 = e.1).getLast? = some e := by
  obtain ⟨hbefore, hrest, -⟩ := m.lowerBound_cases k
  have hlt := (hbefore e (h ▸ List.mem_cons_self)).2
  have hnone : (m.lowerBound k).rest.filter (fun a => a.1 = e.1) = [] := by
    refine List.filter_eq_nil_iff.mpr fun a ha => ?_
    have hgt := hlt.trans_le (hrest a ha).2
    simpa using hgt.ne'
  rw [← m.lowerBound_split k, List.filter_append, hnone, h]
  simp

/-- Of the entries with its key, the one at the place is the first. -/
theorem head?_deref {rest : List (K × V)} (h : (m.lowerBound k).rest = e :: rest) :
    (m.entries.filter fun a => a.1 = e.1).head? = some e := by
  obtain ⟨hbefore, hrest, -⟩ := m.lowerBound_cases k
  have hle := (hrest e (h ▸ List.mem_cons_self)).2
  have hnone : (m.lowerBound k).before.reverse.filter (fun a => a.1 = e.1) = [] := by
    refine List.filter_eq_nil_iff.mpr fun a ha => ?_
    have hlt := (hbefore a (List.mem_reverse.mp ha)).2.trans_le hle
    simpa using hlt.ne
  rw [← m.lowerBound_split k, List.filter_append, hnone, h]
  simp

/-! ### Maps that are filled in step -/

/-- The same entries with other values. -/
def mapValues (f : V → W) (m : Multimap K V) : Multimap K W where
  entries := m.entries.map fun e => (e.1, f e.2)
  sorted := List.pairwise_map.mpr m.sorted

theorem insert_mapValues (f : V → W) (m : Multimap K V) (k : K) (v : V) :
    (m.insert k v).mapValues f = (m.mapValues f).insert k (f v) := by
  unfold insert mapValues
  simp only [List.map_append, List.map_cons, List.takeWhile_map, List.dropWhile_map]
  rfl

theorem contains_mapValues (f : V → W) (m : Multimap K V) (k : K) :
    (m.mapValues f).contains k = m.contains k := by
  unfold contains mapValues
  rw [List.any_map]
  rfl

theorem lowerBound_mapValues (f : V → W) (m : Multimap K V) (k : K) :
    (m.mapValues f).lowerBound k =
      ⟨(m.lowerBound k).before.map fun e => (e.1, f e.2),
        (m.lowerBound k).rest.map fun e => (e.1, f e.2)⟩ := by
  unfold lowerBound mapValues
  simp only [List.takeWhile_map, List.dropWhile_map, List.map_reverse]
  rfl

end Multimap
