import Mathlib.Order.Interval.Set.Nat
import Kognizance.Witch.Overlap

/-!
# The macros describe one intersection

The call sites pass addresses as unsigned 64-bit numbers, the length of an access as a `uint32_t`
and the watched length as an `int`, and store the results in `int`s. One macro compares the
addresses as unsigned numbers, two compare them as signed ones.

* `inter_byteRange` and `isLeast_inter`: the bytes two ranges share.
* `macros_describe_intersection`: what each macro says of them.
-/

namespace Kognizance

variable {a b : UInt64} {la lb : ℤ}

/-- Two ranges in one half of the address space, that end before its end. -/
structure SameHalf (a : UInt64) (la : ℤ) (b : UInt64) (lb : ℤ) : Prop where
  end_first : (a.toNat : ℤ) + la < 2 ^ 64
  end_second : (b.toNat : ℤ) + lb < 2 ^ 64
  half : ((a.toNat : ℤ) + la ≤ 2 ^ 63 ∧ (b.toNat : ℤ) + lb ≤ 2 ^ 63) ∨
    (2 ^ 63 ≤ a.toNat ∧ 2 ^ 63 ≤ b.toNat)

/-- The bytes two ranges share. -/
theorem inter_byteRange (a : UInt64) (la : ℤ) (b : UInt64) (lb : ℤ) :
    byteRange a la ∩ byteRange b lb =
      Set.Ico (max a.toNat b.toNat) (min (a.toNat + la.toNat) (b.toNat + lb.toNat)) :=
  Set.Ico_inter_Ico

/-- The first one of them. -/
theorem isLeast_inter
    (h : max a.toNat b.toNat < min (a.toNat + la.toNat) (b.toNat + lb.toNat)) :
    IsLeast (byteRange a la ∩ byteRange b lb) (max a.toNat b.toNat) := by
  rw [inter_byteRange]
  exact isLeast_Ico h

theorem addressesOverlap_iff_inter (hla : 1 ≤ la) (hlb : 1 ≤ lb) (h : SameHalf a la b lb) :
    addressesOverlap a la b lb = true ↔ (byteRange a la ∩ byteRange b lb).Nonempty := by
  have hfirst := h.end_first
  have hsecond := h.end_second
  rw [addressesOverlap_iff (by omega) (by omega) (by omega) (by omega), inter_byteRange,
    Set.nonempty_Ico]
  omega

/-- The addresses are ordered in the same way as signed numbers. -/
theorem SameHalf.toInt64_le_iff (hla : 1 ≤ la) (hlb : 1 ≤ lb) (h : SameHalf a la b lb) :
    a.toInt64 ≤ b.toInt64 ↔ a.toNat ≤ b.toNat := by
  refine Kognizance.toInt64_le_iff ?_
  obtain ⟨-, -, ⟨hfirst, hsecond⟩ | ⟨hfirst, hsecond⟩⟩ := h <;> omega

theorem SameHalf.symm (h : SameHalf a la b lb) : SameHalf b lb a la :=
  ⟨h.end_second, h.end_first, h.half.imp And.symm And.symm⟩

/-- The overlap is the size of the intersection, also in an `int`. -/
theorem getOverlapBytes_eq (hla : 1 ≤ la) (hla' : la < 2 ^ 31) (hlb : 1 ≤ lb) (hlb' : lb < 2 ^ 31)
    (hmeet : max a.toNat b.toNat < min (a.toNat + la.toNat) (b.toNat + lb.toNat)) :
    narrowToInt (getOverlapBytes b lb a la) =
      (byteRange a la ∩ byteRange b lb).ncard := by
  rw [inter_byteRange, Set.ncard_Ico_nat, narrowToInt_eq,
    toInt_getOverlapBytes (by omega) (by omega) (by omega) (by omega)]
  by_cases hle : a.toNat ≤ b.toNat
  · rw [if_pos hle, Int.bmod_eq_of_le (m := 2 ^ 64) (by omega) (by omega),
      Int.bmod_eq_of_le (by omega) (by omega)]
    omega
  · rw [if_neg hle, Int.bmod_eq_of_le (m := 2 ^ 64) (by omega) (by omega),
      Int.bmod_eq_of_le (by omega) (by omega)]
    omega

/-- The offset in the first range is the distance to the first byte that is shared. -/
theorem offsetInFirst_eq (hla : 1 ≤ la) (hla' : la < 2 ^ 31) (hlb : 1 ≤ lb)
    (h : SameHalf a la b lb)
    (hmeet : max a.toNat b.toNat < min (a.toNat + la.toNat) (b.toNat + lb.toNat)) :
    narrowToInt (firstOverlappedByteOffsetInFirst a b) = (max a.toNat b.toNat : ℤ) - a.toNat := by
  rw [narrowToInt_offset]
  by_cases hle : b.toNat ≤ a.toNat
  · rw [if_pos ((h.symm.toInt64_le_iff hlb hla).mpr hle)]
    omega
  · rw [if_neg (mt (h.symm.toInt64_le_iff hlb hla).mp hle), Int.bmod_eq_of_le (by omega) (by omega)]
    omega

/-- **The macros describe one intersection.** -/
theorem macros_describe_intersection (hla : 1 ≤ la) (hla' : la < 2 ^ 31) (hlb : 1 ≤ lb)
    (hlb' : lb < 2 ^ 31) (h : SameHalf a la b lb) :
    (addressesOverlap a la b lb = true ↔ (byteRange a la ∩ byteRange b lb).Nonempty) ∧
    (addressesOverlap a la b lb = true →
      narrowToInt (getOverlapBytes b lb a la) = (byteRange a la ∩ byteRange b lb).ncard ∧
      (∃ x : ℕ, IsLeast (byteRange a la ∩ byteRange b lb) x ∧
        narrowToInt (firstOverlappedByteOffsetInFirst a b) = (x : ℤ) - a.toNat ∧
        narrowToInt (firstOverlappedByteOffsetInSecond a b) = (x : ℤ) - b.toNat) ∧
      narrowToInt (firstOverlappedByteOffsetInFirst a b) +
        narrowToInt (getOverlapBytes b lb a la) ≤ la ∧
      narrowToInt (firstOverlappedByteOffsetInSecond a b) +
        narrowToInt (getOverlapBytes b lb a la) ≤ lb) := by
  have hiff := addressesOverlap_iff_inter hla hlb h
  refine ⟨hiff, fun hoverlap => ?_⟩
  -- the two ranges meet where their bounds do
  have hmeet : max a.toNat b.toNat < min (a.toNat + la.toNat) (b.toNat + lb.toNat) := by
    rw [hiff, inter_byteRange, Set.nonempty_Ico] at hoverlap
    exact hoverlap
  have hsize := getOverlapBytes_eq hla hla' hlb hlb' hmeet
  have hfirst := offsetInFirst_eq hla hla' hlb h hmeet
  -- the second offset is the first one of the ranges exchanged
  have hsecond : narrowToInt (firstOverlappedByteOffsetInSecond a b) =
      (max a.toNat b.toNat : ℤ) - b.toNat := by
    have hswap := offsetInFirst_eq hlb hlb' hla h.symm (by omega)
    rw [max_comm] at hswap
    exact hswap
  have hcard : (byteRange a la ∩ byteRange b lb).ncard =
      min (a.toNat + la.toNat) (b.toNat + lb.toNat) - max a.toNat b.toNat := by
    rw [inter_byteRange, Set.ncard_Ico_nat]
  refine ⟨hsize, ⟨_, isLeast_inter hmeet, ?_, ?_⟩, ?_, ?_⟩
  · rw [hfirst]
    omega
  · rw [hsecond]
    omega
  · rw [hfirst, hsize, hcard]
    omega
  · rw [hsecond, hsize, hcard]
    omega

/-- The upper half of an eight byte access of the kernel. -/
theorem macros_describe_kernelAccess :
    narrowToInt (getOverlapBytes 0xffffffff81000004 4 0xffffffff81000000 8) =
      (byteRange 0xffffffff81000000 8 ∩ byteRange 0xffffffff81000004 4).ncard :=
  ((macros_describe_intersection (by decide) (by decide) (by decide) (by decide)
    ⟨by decide, by decide, Or.inr ⟨by decide, by decide⟩⟩).2 (by decide)).1

end Kognizance
