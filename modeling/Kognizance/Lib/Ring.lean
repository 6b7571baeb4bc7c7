import Mathlib.Data.Nat.ModEq
import Mathlib.Logic.Function.Basic

/-!
# Ring buffers

A ring has `n` cells. Positions grow for ever; position `p` is kept in cell `p % n`.

* `write` puts a list into the cells from a position on, wrapping around.
* `linearise` copies the cells out in two pieces, from one cell to the end and from the
  start to that cell, so that the position it starts at comes first.
* `linearise_write` reads back what was written, as long as it is not longer than the
  ring.
* `contents` is what is kept from a position on; `contents_write` and `take_contents`,
  `drop_contents` make a queue of it, and `take_linearise` and `copy_contents` copy it out.
-/

namespace Ring

variable {α : Type} (n : ℕ)

/-- Put a list into the ring, from position `p` on. -/
def write : (ℕ → α) → ℕ → List α → ℕ → α
  | cells, _, [] => cells
  | cells, p, x :: xs => write (Function.update cells (p % n) x) (p + 1) xs

/-- All cells, from cell `w` on. -/
def linearise (cells : ℕ → α) (w : ℕ) : List α :=
  ((List.range (n - w)).map fun i => cells (w + i)) ++ (List.range w).map cells

variable {n} {cells : ℕ → α} {p w i : ℕ} {x : α} {xs : List α}

/-- Two positions less than a round apart have different cells. -/
theorem mod_ne_of_lt {j : ℕ} (hi : i < n) (hj : j < n) (hij : i ≠ j) :
    (p + i) % n ≠ (p + j) % n := by
  intro h
  have hmod : i ≡ j [MOD n] := Nat.ModEq.add_left_cancel' p h
  exact hij (Nat.ModEq.eq_of_lt_of_lt hmod hi hj)

/-- Writing leaves the cells alone that it does not come to. -/
theorem write_of_ne {c : ℕ} (h : ∀ i < xs.length, (p + i) % n ≠ c) :
    write n cells p xs c = cells c := by
  induction xs generalizing cells p with
  | nil => rfl
  | cons x xs ih =>
    have hrest : ∀ i < xs.length, (p + 1 + i) % n ≠ c := by
      intro i hi
      rw [add_assoc, add_comm 1 i]
      exact h (i + 1) (by simpa using hi)
    rw [write, ih hrest]
    exact Function.update_of_ne (Ne.symm (h 0 (by simp))) _ _

/-- What was written is in its cell. -/
theorem write_apply (hlen : xs.length ≤ n) (hi : i < xs.length) :
    write n cells p xs ((p + i) % n) = xs[i] := by
  induction xs generalizing cells p i with
  | nil => exact absurd hi (Nat.not_lt_zero i)
  | cons x xs ih =>
    have hlen' : xs.length + 1 ≤ n := by simpa using hlen
    rw [write]
    cases i with
    | zero =>
      -- the rest of the list is less than a round long
      rw [write_of_ne]
      · simp
      · intro j hj
        have hne := mod_ne_of_lt (n := n) (p := p) (i := j + 1) (j := 0) (by omega) (by omega)
          (by omega)
        rwa [add_assoc, add_comm 1 j]
    | succ i =>
      rw [← add_assoc, add_right_comm]
      exact ih (by omega) (by simpa using hi)

/-- The copy starts at cell `w` and goes once around. -/
theorem getElem?_linearise (hw : w < n) (hi : i < n) :
    (linearise n cells w)[i]? = some (cells ((w + i) % n)) := by
  unfold linearise
  by_cases hfirst : i < n - w
  · rw [List.getElem?_append_left (by simpa using hfirst)]
    simp [hfirst, Nat.mod_eq_of_lt (show w + i < n by omega)]
  · rw [List.getElem?_append_right (by simpa using hfirst)]
    have hwrap : (w + i) % n = i - (n - w) := by
      rw [Nat.mod_eq_sub_mod (by omega), Nat.mod_eq_of_lt (by omega)]
      omega
    simp [hwrap, show i - (n - w) < w by omega]

/-- **Reading back what was written**, if it is not longer than the ring. -/
theorem linearise_write (hlen : xs.length ≤ n) (hi : i < xs.length) :
    (linearise n (write n cells p xs) (p % n))[i]? = some xs[i] := by
  have hn : 0 < n := by omega
  rw [getElem?_linearise (Nat.mod_lt p hn) (by omega), Nat.mod_add_mod]
  exact congrArg some (write_apply hlen hi)

/-! ### What is kept from a position on -/

/-- The `len` elements from position `p` on. -/
def contents (n : ℕ) (cells : ℕ → α) (p len : ℕ) : List α :=
  (List.range len).map fun i => cells ((p + i) % n)

variable {len : ℕ}

@[simp] theorem length_contents : (contents n cells p len).length = len := by
  simp [contents]

theorem getElem_contents (hi : i < (contents n cells p len).length) :
    (contents n cells p len)[i] = cells ((p + i) % n) := by
  simp [contents]

/-- Only the cell of the position counts. -/
theorem contents_congr {q : ℕ} (h : p ≡ q [MOD n]) :
    contents n cells p len = contents n cells q len :=
  List.map_congr_left fun i _ => congrArg cells (Nat.ModEq.add_right i h)

theorem write_congr {q : ℕ} (h : p ≡ q [MOD n]) : write n cells p xs = write n cells q xs := by
  induction xs generalizing cells p q with
  | nil => rfl
  | cons x xs ih => rw [write, write, h, ih (h.add_right 1)]

/-- A counter that wraps around at a multiple of the ring's length counts as well. -/
theorem contents_mod {m : ℕ} (h : n ∣ m) :
    contents n cells (p % m) len = contents n cells p len :=
  contents_congr ((Nat.mod_modEq p m).of_dvd h)

theorem take_contents {k : ℕ} (h : k ≤ len) :
    (contents n cells p len).take k = contents n cells p k := by
  rw [contents, ← List.map_take, List.take_range, Nat.min_eq_left h, contents]

theorem drop_contents (k : ℕ) :
    (contents n cells p len).drop k = contents n cells (p + k) (len - k) := by
  refine List.ext_getElem (by simp) fun i h h' => ?_
  rw [List.getElem_drop, getElem_contents, getElem_contents, add_assoc]

/-- **Writing behind what is kept** appends to it, if there is room. -/
theorem contents_write (h : len + xs.length ≤ n) :
    contents n (write n cells (p + len) xs) p (len + xs.length) =
      contents n cells p len ++ xs := by
  refine List.ext_getElem (by simp) fun i hi _ => ?_
  rw [getElem_contents]
  have hi' : i < len + xs.length := by simpa using hi
  by_cases hold : i < len
  · -- no cell is written that is kept
    rw [List.getElem_append_left (by simpa using hold), getElem_contents, write_of_ne]
    intro j hj
    rw [add_assoc]
    exact mod_ne_of_lt (by omega) (by omega) (by omega)
  · rw [List.getElem_append_right (by simpa using hold)]
    have hpos : p + i = p + len + (i - len) := by omega
    rw [hpos, write_apply (by omega) (by omega)]
    simp

/-- The copy of the whole ring starts with what is kept. -/
theorem take_linearise (hn : 0 < n) (h : len ≤ n) :
    (linearise n cells (p % n)).take len = contents n cells p len := by
  refine List.ext_getElem? fun i => ?_
  by_cases hi : i < len
  · rw [List.getElem?_take_of_lt hi, getElem?_linearise (Nat.mod_lt p hn) (by omega),
      Nat.mod_add_mod, List.getElem?_eq_getElem (by simpa using hi), getElem_contents]
  · rw [List.getElem?_take_eq_none (by omega), List.getElem?_eq_none (by simpa using hi)]

/-- A copy in two pieces, up to the end of the ring and from its start on. -/
theorem copy_contents (hn : 0 < n) (h : len ≤ n) :
    ((List.range (min (n - p % n) len)).map fun i => cells (p % n + i)) ++
        (List.range (len - min (n - p % n) len)).map cells =
      contents n cells p len := by
  have hw := Nat.mod_lt p hn
  refine List.ext_getElem (by simp) fun i hi hi' => ?_
  rw [length_contents] at hi'
  rw [getElem_contents, ← Nat.mod_add_mod]
  -- the first piece ends at the end of the ring, and the second starts where it began
  by_cases hfirst : i < min (n - p % n) len
  · rw [List.getElem_append_left (by rwa [List.length_map, List.length_range])]
    simp [Nat.mod_eq_of_lt (show p % n + i < n by omega)]
  · have hlen : ((List.range (min (n - p % n) len)).map
        fun i => cells (p % n + i)).length ≤ i := by
      rw [List.length_map, List.length_range]
      exact Nat.le_of_not_lt hfirst
    rw [List.getElem_append_right hlen]
    have hwrap : (p % n + i) % n = i - (n - p % n) := by
      rw [Nat.mod_eq_sub_mod (by omega), Nat.mod_eq_of_lt (by omega)]
      omega
    rw [hwrap]
    simp
    congr 1
    omega

end Ring
