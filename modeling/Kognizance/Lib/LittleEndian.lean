import Mathlib.Data.Nat.Digits.Defs

/-!
# Little-endian numbers in a byte stream

A stream is a function from signed offsets to bytes, as a pointer into a buffer is.

* `leBytes k n` are the `k` low bytes of `n`, the least one first, and `ofBytes` reads
  such a list back.
* `Holds data o bs` says that the stream has the bytes `bs` from offset `o` on, and
  `readLE` reads a number off a stream.
-/

namespace LittleEndian

/-- The `k` low bytes of `n`. -/
def leBytes (k n : ℕ) : List UInt8 := (List.range k).map fun i => UInt8.ofNat (n / 256 ^ i)

def ofBytes (bs : List UInt8) : ℕ := Nat.ofDigits 256 (bs.map UInt8.toNat)

@[simp] theorem length_leBytes (k n : ℕ) : (leBytes k n).length = k := by
  simp [leBytes]

theorem leBytes_succ (k n : ℕ) : leBytes (k + 1) n = UInt8.ofNat n :: leBytes k (n / 256) := by
  simp only [leBytes, List.range_succ_eq_map, List.map_cons, List.map_map, pow_zero, Nat.div_one]
  refine congrArg _ (List.map_congr_left fun i _ => ?_)
  simp only [Function.comp_apply, Nat.succ_eq_add_one]
  rw [pow_succ', Nat.div_div_eq_div_mul]

theorem leBytes_add (j k n : ℕ) :
    leBytes (j + k) n = leBytes j n ++ leBytes k (n / 256 ^ j) := by
  simp only [leBytes, List.range_add, List.map_append, List.map_map]
  refine congrArg _ (List.map_congr_left fun i _ => ?_)
  simp only [Function.comp_apply]
  rw [pow_add, Nat.div_div_eq_div_mul]

/-- **Reading back what was written.** -/
theorem ofBytes_leBytes {k n : ℕ} (h : n < 256 ^ k) : ofBytes (leBytes k n) = n := by
  -- the least byte first, then the number without it
  induction k generalizing n with
  | zero =>
    rw [pow_zero, Nat.lt_one_iff] at h
    subst h
    rfl
  | succ k ih =>
    have hdiv : n / 256 < 256 ^ k := by
      rw [pow_succ'] at h
      exact Nat.div_lt_of_lt_mul h
    have hbyte : (UInt8.ofNat n).toNat = n % 256 := by simp
    rw [leBytes_succ, ofBytes, List.map_cons, Nat.ofDigits_cons, hbyte]
    change n % 256 + 256 * ofBytes (leBytes k (n / 256)) = n
    rw [ih hdiv, Nat.mod_add_div]

/-- The bytes of a stream from an offset on. -/
def Holds (data : ℤ → UInt8) (o : ℤ) (bs : List UInt8) : Prop :=
  ∀ i (h : i < bs.length), data (o + i) = bs[i]

theorem holds_append {data : ℤ → UInt8} {o : ℤ} {as bs : List UInt8} :
    Holds data o (as ++ bs) ↔ Holds data o as ∧ Holds data (o + as.length) bs := by
  constructor
  · intro h
    refine ⟨fun i hi => ?_, fun i hi => ?_⟩
    · rw [h i (by rw [List.length_append]; omega), List.getElem_append_left hi]
    · have hget := h (as.length + i) (by rw [List.length_append]; omega)
      rw [List.getElem_append_right (by omega)] at hget
      simpa [add_assoc] using hget
  · rintro ⟨has, hbs⟩ i hi
    by_cases hlt : i < as.length
    · rw [has i hlt, List.getElem_append_left hlt]
    · rw [List.length_append] at hi
      have hget := hbs (i - as.length) (by omega)
      rw [List.getElem_append_right (by omega), ← hget]
      congr 1
      omega

/-- The number in the `k` bytes at an offset. -/
def readLE (data : ℤ → UInt8) (o : ℤ) (k : ℕ) : ℕ :=
  ofBytes ((List.range k).map fun i : ℕ => data (o + i))

theorem readLE_of_holds {data : ℤ → UInt8} {o : ℤ} {k n : ℕ} (h : Holds data o (leBytes k n))
    (hn : n < 256 ^ k) : readLE data o k = n := by
  have hbytes : ((List.range k).map fun i : ℕ => data (o + i)) = leBytes k n := by
    refine List.ext_getElem (by simp) fun i hi hi' => ?_
    rw [List.getElem_map, List.getElem_range]
    exact h i hi'
  rw [readLE, hbytes, ofBytes_leBytes hn]

end LittleEndian
