import Mathlib.Algebra.Ring.Int.Defs
import Mathlib.Algebra.Ring.Nat
import Mathlib.Data.Set.Basic
import Mathlib.Order.Interval.Set.Defs
import Kognizance.Lib.Exclusive

/-!
# The address macros of `watchpoint_util.h`

The macros compute in the C types of their arguments: addresses are 64-bit
unsigned, lengths are converted to 64 bits before they are added, and the
overlap sizes and offsets are differences of 64-bit signed values. A length is an
`ℤ` here, whatever its C type was.

* `isAligned_iff` and `addressesOverlap_iff` say what the two tests mean for
  ranges that end below `2 ^ 64`.
-/

namespace Kognizance

/-- `IS_ALIGNED`. -/
def isAligned (address : UInt64) (alignment : ℤ) : Bool :=
  (address &&& UInt64.ofInt (alignment - 1)) == 0

/-- `ADDRESSES_OVERLAP`. -/
def addressesOverlap (addr1 : UInt64) (len1 : ℤ) (addr2 : UInt64) (len2 : ℤ) : Bool :=
  decide (addr1 + UInt64.ofInt len1 > addr2) && decide (addr2 + UInt64.ofInt len2 > addr1)

/-- `GET_OVERLAP_BYTES`, in 64 bits. -/
def getOverlapBytes (a : UInt64) (aLen : ℤ) (b : UInt64) (bLen : ℤ) : Int64 :=
  if a ≥ b then min (Int64.ofInt aLen) (Int64.ofInt bLen - (a.toInt64 - b.toInt64))
  else min (Int64.ofInt bLen) (Int64.ofInt aLen - (b.toInt64 - a.toInt64))

/-- `FIRST_OVERLAPPED_BYTE_OFFSET_IN_FIRST`. -/
def firstOverlappedByteOffsetInFirst (a b : UInt64) : Int64 :=
  if a.toInt64 ≥ b.toInt64 then 0 else b.toInt64 - a.toInt64

/-- `FIRST_OVERLAPPED_BYTE_OFFSET_IN_SECOND`. -/
def firstOverlappedByteOffsetInSecond (a b : UInt64) : Int64 :=
  if b.toInt64 ≥ a.toInt64 then 0 else a.toInt64 - b.toInt64

/-- A 64-bit value stored in an `int`. -/
def narrowToInt (x : Int64) : ℤ := x.toInt32.toInt

/-- `GetFloorWPLength` -/
def getFloorWPLength (accessLen : ℕ) : ℤ :=
  match accessLen with
  | 7 | 6 | 5 | 4 => 4
  | 3 | 2 => 2
  | 1 => 1
  | _ => 8

/-- The bytes of a range. -/
def byteRange (va : UInt64) (len : ℤ) : Set ℕ := Set.Ico va.toNat (va.toNat + len.toNat)

/-- A debug register watches one to eight bytes, and no more than the access if it can. -/
theorem getFloorWPLength_bounds : ∀ n : ℕ,
    0 < getFloorWPLength n ∧ getFloorWPLength n ≤ 8 ∧ (0 < n → getFloorWPLength n ≤ n)
  | 0 | 1 | 2 | 3 | 4 | 5 | 6 | 7 => by decide
  | n + 8 => by
    have height : getFloorWPLength (n + 8) = 8 := rfl
    omega

theorem toNat_ofInt {len : ℤ} (h0 : 0 ≤ len) (h : len < 2 ^ 64) :
    (UInt64.ofInt len).toNat = len.toNat := by
  rw [UInt64.ofInt, UInt64.toNat_ofNat', Int.emod_eq_of_lt h0 h]
  omega

/-- An address plus a length, when the range does not reach `2 ^ 64`. -/
theorem toNat_add_ofInt {va : UInt64} {len : ℤ} (h0 : 0 ≤ len)
    (h : va.toNat + len.toNat < 2 ^ 64) :
    (va + UInt64.ofInt len).toNat = va.toNat + len.toNat := by
  rw [UInt64.toNat_add, toNat_ofInt h0 (by omega), Nat.mod_eq_of_lt h]

/-- The overlap test, for ranges that end below `2 ^ 64`. -/
theorem addressesOverlap_iff {va vb : UInt64} {la lb : ℤ} (ha0 : 0 ≤ la) (hb0 : 0 ≤ lb)
    (ha : va.toNat + la.toNat < 2 ^ 64) (hb : vb.toNat + lb.toNat < 2 ^ 64) :
    addressesOverlap va la vb lb = true ↔
      vb.toNat < va.toNat + la.toNat ∧ va.toNat < vb.toNat + lb.toNat := by
  rw [addressesOverlap, Bool.and_eq_true, decide_eq_true_iff, decide_eq_true_iff, gt_iff_lt,
    gt_iff_lt, UInt64.lt_iff_toNat_lt, UInt64.lt_iff_toNat_lt, toNat_add_ofInt ha0 ha,
    toNat_add_ofInt hb0 hb]

/-- Ranges that pass the overlap test share no byte. -/
theorem disjoint_of_not_addressesOverlap {va vb : UInt64} {la lb : ℤ} (ha0 : 0 ≤ la)
    (hb0 : 0 ≤ lb) (ha : va.toNat + la.toNat < 2 ^ 64) (hb : vb.toNat + lb.toNat < 2 ^ 64)
    (h : addressesOverlap va la vb lb = false) :
    Disjoint (byteRange va la) (byteRange vb lb) := by
  have hno : ¬ (vb.toNat < va.toNat + la.toNat ∧ va.toNat < vb.toNat + lb.toNat) := by
    rw [← addressesOverlap_iff ha0 hb0 ha hb, h]
    exact Bool.false_ne_true
  -- one of the ranges ends before the other begins
  exact Set.Ico_disjoint_Ico.mpr (by omega)

/-- A range overlaps itself, unless it is empty or reaches `2 ^ 64`. -/
theorem addressesOverlap_self {va : UInt64} {len : ℤ} (h0 : 0 < len)
    (h : va.toNat + len.toNat < 2 ^ 64) : addressesOverlap va len va len = true := by
  rw [addressesOverlap_iff h0.le h0.le h h]
  omega

/-- The alignment test on the supported lengths. -/
theorem isAligned_iff {va : UInt64} {len : ℤ} (hlen : len = 1 ∨ len = 2 ∨ len = 4 ∨ len = 8) :
    isAligned va len = true ↔ len.toNat ∣ va.toNat := by
  have hmask : ∀ k : ℕ, va.toNat &&& (2 ^ k - 1) = 0 ↔ 2 ^ k ∣ va.toNat := by
    intro k
    rw [Nat.and_two_pow_sub_one_eq_mod, Nat.dvd_iff_mod_eq_zero]
  rw [isAligned, beq_iff_eq, ← UInt64.toNat_inj, UInt64.toNat_and]
  rcases hlen with rfl | rfl | rfl | rfl
  · exact hmask 0
  · exact hmask 1
  · exact hmask 2
  · exact hmask 3

end Kognizance
