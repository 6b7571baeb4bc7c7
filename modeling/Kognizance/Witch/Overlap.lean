import Kognizance.Witch.Steps

/-!
# Overlaps and offsets as integers

The address macros mix unsigned addresses with signed differences, wrap at 64 bits, and
their results are put into an `int`. Here they are computed over the integers.

* `overlapBytes_eq`: the overlap that a callback measures.
* `overlapBytes_of_meets`: where `ADDRESSES_OVERLAP` holds, the length of the
  intersection of the two ranges.
* `offsets_eq`: the two offsets, which depend on the sign of the addresses.
-/

namespace Kognizance

/-- The length a sample is watched with. -/
def Event.floorLength (event : Event) : ℤ := getFloorWPLength event.accessLength.toNat

theorem Event.floorLength_bounds (event : Event) :
    0 < event.floorLength ∧ event.floorLength ≤ 8 ∧
      (0 < event.accessLength.toNat → event.floorLength ≤ event.accessLength.toNat) :=
  getFloorWPLength_bounds event.accessLength.toNat

/-! ### The macros -/

theorem toInt_toInt64 (a : UInt64) : a.toInt64.toInt = (a.toNat : ℤ).bmod (2 ^ 64) := by
  rw [← Int64.toInt_toBitVec, UInt64.toBitVec_toInt64, BitVec.toInt_eq_toNat_bmod,
    UInt64.toNat_toBitVec]

theorem toInt_sub_toInt64 (a b : UInt64) :
    (a.toInt64 - b.toInt64).toInt = ((a.toNat : ℤ) - b.toNat).bmod (2 ^ 64) := by
  rw [Int64.toInt_sub, toInt_toInt64, toInt_toInt64, Int.sub_bmod_bmod, Int.bmod_sub_bmod]

theorem toInt_min (x y : Int64) : (min x y).toInt = min x.toInt y.toInt := by
  change (if x ≤ y then x else y).toInt = _
  split_ifs with h
  · rw [min_eq_left (Int64.le_iff_toInt_le.mp h)]
  · rw [min_eq_right (not_le.mp (mt Int64.le_iff_toInt_le.mpr h)).le]

/-- `ADDRESSES_OVERLAP` wraps at `2 ^ 64`. -/
theorem addressesOverlap_iff_mod {va vb : UInt64} {la lb : ℤ} (ha0 : 0 ≤ la)
    (ha : la < 2 ^ 64) (hb0 : 0 ≤ lb) (hb : lb < 2 ^ 64) :
    addressesOverlap va la vb lb = true ↔
      (vb.toNat : ℤ) < (va.toNat + la) % 2 ^ 64 ∧ (va.toNat : ℤ) < (vb.toNat + lb) % 2 ^ 64 := by
  -- an address plus a length, as the macro adds them
  have hsum : ∀ {v : UInt64} {len : ℤ}, 0 ≤ len → len < 2 ^ 64 →
      ((v + UInt64.ofInt len).toNat : ℤ) = (v.toNat + len) % 2 ^ 64 := by
    intro v len h0 h
    rw [UInt64.toNat_add, toNat_ofInt h0 h]
    omega
  rw [addressesOverlap, Bool.and_eq_true, decide_eq_true_iff, decide_eq_true_iff, gt_iff_lt,
    gt_iff_lt, UInt64.lt_iff_toNat_lt, UInt64.lt_iff_toNat_lt, ← hsum ha0 ha, ← hsum hb0 hb,
    Int.ofNat_lt, Int.ofNat_lt]

/-- `GET_OVERLAP_BYTES`, for lengths that fit. -/
theorem toInt_getOverlapBytes {a b : UInt64} {aLen bLen : ℤ} (ha0 : 0 ≤ aLen)
    (ha : aLen < 2 ^ 63) (hb0 : 0 ≤ bLen) (hb : bLen < 2 ^ 63) :
    (getOverlapBytes a aLen b bLen).toInt =
      if b.toNat ≤ a.toNat then min aLen ((bLen - (a.toNat - b.toNat)).bmod (2 ^ 64))
      else min bLen ((aLen - (b.toNat - a.toNat)).bmod (2 ^ 64)) := by
  have hlen : ∀ {len : ℤ}, 0 ≤ len → len < 2 ^ 63 → (Int64.ofInt len).toInt = len := by
    intro len h0 h
    have hsize : Int64.size = 2 ^ 64 := rfl
    rw [Int64.toInt_ofInt, hsize]
    exact Int.bmod_eq_of_le (by omega) (by omega)
  -- the addresses are signed in the macro, but their difference wraps to the same value
  have hdiff : ∀ (len : ℤ) (x y : UInt64), 0 ≤ len → len < 2 ^ 63 →
      (Int64.ofInt len - (x.toInt64 - y.toInt64)).toInt
        = (len - (x.toNat - y.toNat)).bmod (2 ^ 64) := by
    intro len x y h0 h
    rw [Int64.toInt_sub, hlen h0 h, toInt_sub_toInt64, Int.sub_bmod_bmod]
  unfold getOverlapBytes
  by_cases hab : b.toNat ≤ a.toNat
  · rw [if_pos (UInt64.le_iff_toNat_le.mpr hab), if_pos hab, toInt_min, hlen ha0 ha,
      hdiff bLen a b hb0 hb]
  · rw [if_neg (mt UInt64.le_iff_toNat_le.mp hab), if_neg hab, toInt_min, hlen hb0 hb,
      hdiff aLen b a ha0 ha]

theorem narrowToInt_eq (x : Int64) : narrowToInt x = x.toInt.bmod (2 ^ 32) := Int64.toInt_toInt32 x

/-- An offset macro, stored in an `int`. -/
theorem narrowToInt_offset (a b : UInt64) :
    narrowToInt (firstOverlappedByteOffsetInFirst a b) =
      if b.toInt64 ≤ a.toInt64 then 0 else ((b.toNat : ℤ) - a.toNat).bmod (2 ^ 32) := by
  unfold firstOverlappedByteOffsetInFirst
  rw [narrowToInt_eq]
  split_ifs with h
  · rfl
  · rw [toInt_sub_toInt64, Int.bmod_bmod_of_dvd (by decide)]

/-! ### The overlap of a trigger -/

section Trigger

variable {currEvent sampleEvent : Event} {wpt : WPTriggerInfo}

/-- The test that moves `wpt->va` to the trigger's address. -/
def Meets (currEvent sampleEvent : Event) (wpt : WPTriggerInfo) : Prop :=
  addressesOverlap currEvent.data_addr currEvent.accessLength.toNat sampleEvent.data_addr
    wpt.watchLen = true

instance : Decidable (Meets currEvent sampleEvent wpt) := by
  unfold Meets
  infer_instance

theorem meets_iff (h0 : 0 ≤ wpt.watchLen) (hlen : wpt.watchLen < 2 ^ 31) :
    Meets currEvent sampleEvent wpt ↔
      (sampleEvent.data_addr.toNat : ℤ) <
        (currEvent.data_addr.toNat + currEvent.accessLength.toNat) % 2 ^ 64 ∧
      (currEvent.data_addr.toNat : ℤ) <
        (sampleEvent.data_addr.toNat + wpt.watchLen) % 2 ^ 64 := by
  have hacc := currEvent.accessLength.toNat_lt
  exact addressesOverlap_iff_mod (by omega) (by omega) h0 (by omega)

/-- The overlap as it is measured from `wpt->va` on. -/
theorem overlapBytes_eq (h0 : 0 ≤ wpt.watchLen) (hlen : wpt.watchLen < 2 ^ 31) :
    overlapBytes currEvent sampleEvent wpt =
      (let va := if Meets currEvent sampleEvent wpt then currEvent.data_addr else wpt.va
       if va.toNat ≤ sampleEvent.data_addr.toNat then
         min wpt.watchLen ((currEvent.accessLength.toNat
           - (sampleEvent.data_addr.toNat - va.toNat : ℤ)).bmod (2 ^ 64))
       else
         min (currEvent.accessLength.toNat : ℤ) ((wpt.watchLen
           - (va.toNat - sampleEvent.data_addr.toNat : ℤ)).bmod (2 ^ 64))).bmod (2 ^ 32) := by
  have hacc := currEvent.accessLength.toNat_lt
  unfold overlapBytes Meets
  rw [narrowToInt_eq, toInt_getOverlapBytes h0 (by omega) (by omega) (by omega)]

/-- The test only passes on ranges that do meet, apart from an access of no bytes. -/
theorem lt_of_meets (h0 : 0 ≤ wpt.watchLen) (hlen : wpt.watchLen < 2 ^ 31)
    (h : Meets currEvent sampleEvent wpt) :
    (sampleEvent.data_addr.toNat : ℤ)
        < currEvent.data_addr.toNat + currEvent.accessLength.toNat ∧
      (currEvent.data_addr.toNat : ℤ) < sampleEvent.data_addr.toNat + wpt.watchLen := by
  obtain ⟨h1, h2⟩ := (meets_iff h0 hlen).mp h
  omega

/-- **The length of the intersection**, where the test finds one. -/
theorem overlapBytes_of_meets (h0 : 0 ≤ wpt.watchLen) (hlen : wpt.watchLen < 2 ^ 31)
    (h : Meets currEvent sampleEvent wpt) :
    overlapBytes currEvent sampleEvent wpt =
      min (currEvent.data_addr.toNat + currEvent.accessLength.toNat : ℤ)
          (sampleEvent.data_addr.toNat + wpt.watchLen)
        - max (currEvent.data_addr.toNat : ℤ) sampleEvent.data_addr.toNat := by
  have hc := currEvent.data_addr.toNat_lt
  have hs := sampleEvent.data_addr.toNat_lt
  have hacc := currEvent.accessLength.toNat_lt
  obtain ⟨h1, h2⟩ := lt_of_meets h0 hlen h
  rw [overlapBytes_eq h0 hlen]
  -- `wpt->va` has become the trigger's address, and nothing wraps on ranges that meet
  simp only [if_pos h]
  by_cases hle : currEvent.data_addr.toNat ≤ sampleEvent.data_addr.toNat
  · rw [if_pos hle, Int.bmod_eq_of_le (m := 2 ^ 64) (by omega) (by omega),
      Int.bmod_eq_of_le (by omega) (by omega)]
    omega
  · rw [if_neg hle, Int.bmod_eq_of_le (m := 2 ^ 64) (by omega) (by omega),
      Int.bmod_eq_of_le (by omega) (by omega)]
    omega

/-- Ranges that end below `2 ^ 64` and meet pass the test. -/
theorem meets_of_lt (h0 : 0 ≤ wpt.watchLen) (hlen : wpt.watchLen < 2 ^ 31)
    (hcurr : currEvent.data_addr.toNat + currEvent.accessLength.toNat < 2 ^ 64)
    (hsample : (sampleEvent.data_addr.toNat : ℤ) + wpt.watchLen < 2 ^ 64)
    (h1 : (sampleEvent.data_addr.toNat : ℤ)
      < currEvent.data_addr.toNat + currEvent.accessLength.toNat)
    (h2 : (currEvent.data_addr.toNat : ℤ) < sampleEvent.data_addr.toNat + wpt.watchLen) :
    Meets currEvent sampleEvent wpt := by
  rw [meets_iff h0 hlen]
  omega

/-- Apart from them, a sample that is watched at its own address has an overlap with any
access. -/
theorem overlapBytes_of_not_meets (h0 : 0 ≤ wpt.watchLen) (hlen : wpt.watchLen < 2 ^ 31)
    (h : ¬ Meets currEvent sampleEvent wpt) (hva : wpt.va = sampleEvent.data_addr) :
    overlapBytes currEvent sampleEvent wpt =
      min (currEvent.accessLength.toNat : ℤ) wpt.watchLen := by
  have hacc := currEvent.accessLength.toNat_lt
  rw [overlapBytes_eq h0 hlen]
  -- the overlap is measured from the sample's own address on, wherever the trigger is
  simp only [if_neg h, hva, le_refl, if_true]
  rw [sub_self, sub_zero, Int.bmod_eq_of_le (m := 2 ^ 64) (by omega) (by omega),
    Int.bmod_eq_of_le (by omega) (by omega), min_comm]

/-- The sign of an address decides which offset is 0. -/
theorem offsets_eq {spy : Spy} (hspy : spy.wantsOverlap = true) :
    spy.offsets currEvent sampleEvent =
      (if sampleEvent.data_addr.toInt64 ≤ currEvent.data_addr.toInt64 then 0
        else ((sampleEvent.data_addr.toNat : ℤ) - currEvent.data_addr.toNat).bmod (2 ^ 32),
      if currEvent.data_addr.toInt64 ≤ sampleEvent.data_addr.toInt64 then 0
        else ((currEvent.data_addr.toNat : ℤ) - sampleEvent.data_addr.toNat).bmod (2 ^ 32)) := by
  unfold Spy.offsets
  rw [if_pos hspy, narrowToInt_offset]
  exact Prod.ext rfl (narrowToInt_offset sampleEvent.data_addr currEvent.data_addr)

theorem offsets_of_le {spy : Spy} (hspy : spy.wantsOverlap = true)
    (h : sampleEvent.data_addr.toInt64 ≤ currEvent.data_addr.toInt64) :
    spy.offsets currEvent sampleEvent =
      (0, ((currEvent.data_addr.toNat : ℤ) - sampleEvent.data_addr.toNat).bmod (2 ^ 32)) := by
  rw [offsets_eq hspy, if_pos h]
  split_ifs with hge
  · -- the two addresses are the same
    have hc := currEvent.data_addr.toNat_lt
    have hs := sampleEvent.data_addr.toNat_lt
    have heq : (currEvent.data_addr.toNat : ℤ) = sampleEvent.data_addr.toNat := by
      rw [Int64.le_iff_toInt_le, toInt_toInt64, toInt_toInt64, Int.bmod_def, Int.bmod_def] at h hge
      omega
    rw [heq, sub_self]
    rfl
  · rfl

theorem offsets_of_not_le {spy : Spy} (hspy : spy.wantsOverlap = true)
    (h : ¬ sampleEvent.data_addr.toInt64 ≤ currEvent.data_addr.toInt64) :
    spy.offsets currEvent sampleEvent =
      (((sampleEvent.data_addr.toNat : ℤ) - currEvent.data_addr.toNat).bmod (2 ^ 32), 0) := by
  have hlt : currEvent.data_addr.toInt64 ≤ sampleEvent.data_addr.toInt64 :=
    Int64.le_of_lt (Int64.not_le.mp h)
  rw [offsets_eq hspy, if_neg h, if_pos hlt]

/-- Two addresses of one half are ordered as signed numbers as well. -/
theorem toInt64_le_iff {a b : UInt64} (h : a.toNat < 2 ^ 63 ↔ b.toNat < 2 ^ 63) :
    a.toInt64 ≤ b.toInt64 ↔ a.toNat ≤ b.toNat := by
  have ha := a.toNat_lt
  have hb := b.toNat_lt
  rw [Int64.le_iff_toInt_le, toInt_toInt64, toInt_toInt64, Int.bmod_def, Int.bmod_def]
  omega

end Trigger

end Kognizance
