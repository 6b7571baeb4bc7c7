import Kognizance.Witch.Compared

/-!
# DupSpy

DupSpy is about two accesses to different addresses, so it drops a trigger that overlaps
the sample, and compares the values from their first bytes on. Both parts were adapted
from RedSpy. The loop compares the four bytes of an `int` whatever was accessed, and the
overlap is still measured from `wpt->va` on when the ranges are disjoint, where a
watchpoint on an instruction has the address of the instruction.

* `duplicateVerdict_iff`: when the verdict is right and reads bytes of the accesses only.
* `overlapped_iff`: when a trigger is dropped for the ranges it should be dropped for, and
  when the address of the instruction does not matter.
-/

namespace Kognizance

variable {b : BuildFlags} {currEvent sampleEvent : Event} {wpt : WPTriggerInfo}
  {σ : WitchLogic} {leafContext : ℕ}

/-! ### The verdict -/

/-- The two values have the same bytes, over the length of the trigger. -/
def ValuesAgree (currEvent sampleEvent : Event) : Prop :=
  ∀ j < currEvent.accessLength.toNat,
    currEvent.valueAtEvent j = sampleEvent.valueAtEvent j

instance (currEvent sampleEvent : Event) : Decidable (ValuesAgree currEvent sampleEvent) :=
  inferInstanceAs (Decidable (∀ j < _, _))

/-- `totalDupBytes` grows iff the values agree, and the comparison stays inside of them. -/
def DuplicateVerdict (F : FloatUnit) (spy : Spy) (currEvent sampleEvent : Event)
    (wpt : WPTriggerInfo) (σ : WitchLogic) : Prop :=
  (σ.total .redBytes < (spy.witchOnWPCallback F currEvent sampleEvent wpt σ).2.total .redBytes ↔
    ValuesAgree currEvent sampleEvent) ∧
  ReadsInside spy currEvent sampleEvent wpt

/-- Without the overlap DupSpy compares four bytes from the first on. -/
theorem dupSpy_rounds (currEvent sampleEvent : Event) (hb : b.dupSpyOverlap = false)
    (overlap : ℤ) :
    (dupSpy b).offsets currEvent sampleEvent = (0, 0) ∧ (dupSpy b).rounds overlap 0 = 4 := by
  constructor
  · unfold Spy.offsets
    rw [dupSpy, hb, if_neg Bool.false_ne_true]
  · rfl

theorem dupSpy_finding_eq_red_iff (hb : b.dupSpyOverlap = false) (hint : currEvent.IsInteger)
    (F : FloatUnit) (wpt : WPTriggerInfo) :
    (dupSpy b).finding F currEvent sampleEvent wpt = .red ↔
      ∀ j : ℕ, j < 4 → currEvent.valueAtEvent j = sampleEvent.valueAtEvent j := by
  obtain ⟨hoffsets, hrounds⟩ :=
    dupSpy_rounds currEvent sampleEvent hb (overlapBytes currEvent sampleEvent wpt)
  rw [Spy.finding_of_isInteger hint, hoffsets, Spy.treatLikeInteger_eq_red_iff
    (hrounds.trans_lt (by decide)), hrounds]
  simp only [zero_add]
  exact and_iff_right (by decide)

theorem dupSpy_readsInside_iff (hb : b.dupSpyOverlap = false)
    (hlen : sampleEvent.accessLength = currEvent.accessLength) :
    ReadsInside (dupSpy b) currEvent sampleEvent wpt ↔
      4 ≤ currEvent.accessLength.toNat ∨ ∃ j : ℕ, j < min 4 currEvent.accessLength.toNat ∧
        currEvent.valueAtEvent j ≠ sampleEvent.valueAtEvent j := by
  obtain ⟨hoffsets, hrounds⟩ :=
    dupSpy_rounds currEvent sampleEvent hb (overlapBytes currEvent sampleEvent wpt)
  unfold ReadsInside Spy.readIndices
  rw [hoffsets]
  simp only [hrounds, hlen]
  rw [Spy.inside_comparedIndices_iff (by decide)]
  simp only [zero_add, le_refl, true_and, and_self, Nat.cast_ofNat, Nat.ofNat_le_cast]
  refine or_congr_right (exists_congr fun j => ?_)
  rw [Int.ofNat_lt, ← and_assoc, lt_min_iff]

/-- **The verdict is right and stays inside of the values** iff there is a difference in the
first four bytes, or the values are at least four bytes long and do agree. -/
theorem duplicateVerdict_iff (F : FloatUnit) (hb : b.dupSpyOverlap = false)
    (hattr : Attributes (.spy (dupSpy b)) currEvent sampleEvent wpt σ leafContext)
    (hint : currEvent.IsInteger) (hlen : sampleEvent.accessLength = currEvent.accessLength) :
    DuplicateVerdict F (dupSpy b) currEvent sampleEvent wpt σ ↔
      (∃ j : ℕ, j < min 4 currEvent.accessLength.toNat ∧
        currEvent.valueAtEvent j ≠ sampleEvent.valueAtEvent j) ∨
      4 ≤ currEvent.accessLength.toNat ∧ ValuesAgree currEvent sampleEvent := by
  -- the total grows on the spy's word, since there are bytes to attribute
  have hgrows : σ.total .redBytes
      < ((dupSpy b).witchOnWPCallback F currEvent sampleEvent wpt σ).2.total .redBytes ↔
      ∀ j : ℕ, j < 4 → currEvent.valueAtEvent j = sampleEvent.valueAtEvent j := by
    rw [← dupSpy_finding_eq_red_iff hb hint F wpt, hattr.callback_total F]
    have hpending := Nat.pos_of_ne_zero hattr.pending
    by_cases hred : (dupSpy b).finding F currEvent sampleEvent wpt = .red
    · rw [hred, Finding.metric, Function.update_self]
      exact iff_of_true (Nat.lt_add_of_pos_right hpending) rfl
    · have hused : (dupSpy b).finding F currEvent sampleEvent wpt = .used := by
        rw [Spy.finding_of_isInteger hint] at hred ⊢
        exact (Spy.treatLikeInteger_cases currEvent sampleEvent _ _).resolve_left hred
      rw [hused, Finding.metric, Function.update_of_ne (by decide)]
      exact iff_of_false (lt_irrefl _) nofun
  unfold DuplicateVerdict
  rw [hgrows, dupSpy_readsInside_iff hb hlen]
  by_cases hdiffer : ∃ j : ℕ, j < min 4 currEvent.accessLength.toNat ∧
      currEvent.valueAtEvent j ≠ sampleEvent.valueAtEvent j
  · -- the loop stops at the difference, inside of the values and with the right answer
    obtain ⟨j, hj, hne⟩ := id hdiffer
    rw [lt_min_iff] at hj
    refine iff_of_true ⟨iff_of_false ?_ ?_, Or.inr hdiffer⟩ (Or.inl hdiffer)
    · exact fun hall => hne (hall j hj.1)
    · exact fun hall => hne (hall j hj.2)
  · rw [or_iff_left hdiffer, or_iff_right hdiffer, and_comm]
    refine and_congr_right fun hfour => ?_
    -- the four bytes are the first ones of the values, and agree
    have hall : ∀ j : ℕ, j < 4 → currEvent.valueAtEvent j = sampleEvent.valueAtEvent j := by
      intro j hj
      by_contra hne
      exact hdiffer ⟨j, lt_min hj (hj.trans_le hfour), hne⟩
    exact iff_true_left hall

instance (F : FloatUnit) (spy : Spy) (currEvent sampleEvent : Event) (wpt : WPTriggerInfo)
    (σ : WitchLogic) : Decidable (DuplicateVerdict F spy currEvent sampleEvent wpt σ) :=
  inferInstanceAs (Decidable ((_ ↔ _) ∧ _))

/-- Two equal stores, and an instruction behind them. -/
theorem duplicateVerdict_of_equal :
    DuplicateVerdict .bytewise (dupSpy .instOnly) (.storeAt 2 0x2000)
      ((Event.storeAt 1 0x1000).withStack [0x40]) ⟨0x3000, 8⟩
      (.sampled ((Event.storeAt 1 0x1000).withStack [0x40])) := by
  have hattr : Attributes (.spy (dupSpy .instOnly)) (.storeAt 2 0x2000)
      ((Event.storeAt 1 0x1000).withStack [0x40]) ⟨0x3000, 8⟩
      (.sampled ((Event.storeAt 1 0x1000).withStack [0x40])) 1 := by
    refine ⟨⟨fun hno => hno.1 rfl, id, fun hno => Bool.false_ne_true hno.1⟩, ?_, ?_, ?_⟩ <;>
      decide +kernel
  exact (duplicateVerdict_iff .bytewise rfl hattr ⟨nofun, nofun⟩ rfl).mpr
    (Or.inr ⟨by decide, by decide⟩)

/-- **A difference behind the fourth byte is not seen.** -/
theorem fifthByte_not_compared :
    let sampleEvent := (Event.storeAt 1 0x1000).withStack [0x40]
    let currEvent :=
      { Event.storeAt 2 0x2000 with valueAtEvent := fun i => if i = 4 then 1 else 0 }
    Attributes (.spy (dupSpy .instOnly)) currEvent sampleEvent ⟨0x3000, 8⟩
        (.sampled sampleEvent) 1 ∧
      currEvent.IsInteger ∧ sampleEvent.accessLength = currEvent.accessLength ∧
      ¬ DuplicateVerdict .bytewise (dupSpy .instOnly) currEvent sampleEvent ⟨0x3000, 8⟩
        (.sampled sampleEvent) := by
  refine ⟨⟨⟨fun hno => hno.1 rfl, id, fun hno => Bool.false_ne_true hno.1⟩, ?_, ?_, ?_⟩,
    ⟨nofun, nofun⟩, rfl, ?_⟩ <;> decide +kernel

/-! ### The filter -/

/-- The trigger is dropped as one that overlaps the sample. -/
def Overlapped (b : BuildFlags) (currEvent sampleEvent : Event) (wpt : WPTriggerInfo) : Prop :=
  (dupSpy b).accepts currEvent sampleEvent wpt = false

/-- The two ranges share an address. -/
def Intersect (currEvent sampleEvent : Event) (wpt : WPTriggerInfo) : Prop :=
  (commonBytes currEvent sampleEvent wpt).Nonempty

/-- The address in `wpt->va` makes the overlap a negative number. The gap between the two
ranges is negated in 64 bits, and only the lower half of that is looked at. -/
def Far (currEvent sampleEvent : Event) (wpt : WPTriggerInfo) : Prop :=
  if wpt.va.toNat ≤ sampleEvent.data_addr.toNat then
    let gap : ℤ := (sampleEvent.data_addr.toNat : ℤ) - wpt.va.toNat - currEvent.accessLength.toNat
    0 < gap ∧ gap ≤ 2 ^ 63 ∧ (gap - 1) % 2 ^ 32 < 2 ^ 31
  else
    let gap : ℤ := (wpt.va.toNat : ℤ) - sampleEvent.data_addr.toNat - wpt.watchLen
    (0 < gap ∧ gap ≤ 2 ^ 63 ∧ (gap - 1) % 2 ^ 32 < 2 ^ 31) ∨
      -- the negated gap has become positive, and the length of the access is negative
      (2 ^ 63 < gap ∧ gap ≤ 2 ^ 64 - 2 ^ 31 ∧ 2 ^ 31 ≤ currEvent.accessLength.toNat)

theorem overlapped_iff_overlapBytes (hb : b.dupSpyOverlap = false) :
    Overlapped b currEvent sampleEvent wpt ↔ 0 ≤ overlapBytes currEvent sampleEvent wpt := by
  unfold Overlapped Spy.accepts
  rw [(dupSpy_rounds currEvent sampleEvent hb 0).1, dupSpy, hb]
  simp

theorem intersect_iff (h0 : 0 < wpt.watchLen) :
    Intersect currEvent sampleEvent wpt ↔ 0 < currEvent.accessLength.toNat ∧
      (sampleEvent.data_addr.toNat : ℤ)
        < currEvent.data_addr.toNat + currEvent.accessLength.toNat ∧
      (currEvent.data_addr.toNat : ℤ) < sampleEvent.data_addr.toNat + wpt.watchLen := by
  constructor
  · rintro ⟨x, ⟨hx1, hx2⟩, hx3, hx4⟩
    rw [Int.toNat_natCast] at hx2
    omega
  · -- the later of the two first bytes is common
    rintro ⟨hpos, h1, h2⟩
    refine ⟨max currEvent.data_addr.toNat sampleEvent.data_addr.toNat, ⟨?_, ?_⟩, ?_, ?_⟩
    · exact le_max_left _ _
    · rw [Int.toNat_natCast]
      omega
    · exact le_max_right _ _
    · omega

theorem overlapped_of_meets (hb : b.dupSpyOverlap = false) (h0 : 0 < wpt.watchLen)
    (hlen : wpt.watchLen < 2 ^ 31) (h : Meets currEvent sampleEvent wpt) :
    Overlapped b currEvent sampleEvent wpt := by
  obtain ⟨h1, h2⟩ := lt_of_meets h0.le hlen h
  rw [overlapped_iff_overlapBytes hb, overlapBytes_of_meets h0.le hlen h]
  omega

theorem overlapped_iff_of_not_meets (hb : b.dupSpyOverlap = false) (h0 : 0 < wpt.watchLen)
    (hlen : wpt.watchLen < 2 ^ 31) (h : ¬ Meets currEvent sampleEvent wpt) :
    Overlapped b currEvent sampleEvent wpt ↔ ¬ Far currEvent sampleEvent wpt := by
  have hs := sampleEvent.data_addr.toNat_lt
  have hv := wpt.va.toNat_lt
  have hacc := currEvent.accessLength.toNat_lt
  rw [overlapped_iff_overlapBytes hb, overlapBytes_eq h0.le hlen]
  -- without an intersection the overlap is measured from `wpt->va` on
  simp only [if_neg h, Far]
  split_ifs with hle
  · simp only [Int.bmod_def]
    omega
  · simp only [Int.bmod_def]
    omega

/-- Measured from the sample's own address on, there is always an overlap. -/
theorem not_far_self :
    ¬ Far currEvent sampleEvent { wpt with va := sampleEvent.data_addr } := by
  simp only [Far, le_refl, if_true]
  omega

/-- There is room for a gap of one byte on one of the sides. -/
theorem exists_far (currEvent sampleEvent : Event) (h0 : 0 < wpt.watchLen)
    (hlen : wpt.watchLen < 2 ^ 31) :
    ∃ va, Far currEvent sampleEvent { wpt with va := va } := by
  have hs := sampleEvent.data_addr.toNat_lt
  have hacc := currEvent.accessLength.toNat_lt
  by_cases hroom : sampleEvent.data_addr.toNat + wpt.watchLen.toNat + 1 < 2 ^ 64
  · -- behind the watched bytes
    refine ⟨UInt64.ofNat (sampleEvent.data_addr.toNat + wpt.watchLen.toNat + 1), ?_⟩
    simp only [Far, UInt64.toNat_ofNat_of_lt' hroom]
    rw [if_neg (by omega)]
    omega
  · -- these end at the top of memory: before them
    have hroom' : sampleEvent.data_addr.toNat - currEvent.accessLength.toNat - 1 < 2 ^ 64 := by
      omega
    refine ⟨UInt64.ofNat (sampleEvent.data_addr.toNat - currEvent.accessLength.toNat - 1), ?_⟩
    simp only [Far, UInt64.toNat_ofNat_of_lt' hroom']
    rw [if_pos (by omega)]
    omega

/-- A trigger is dropped iff the ranges intersect, wherever the instruction is. -/
def Filters (b : BuildFlags) (currEvent sampleEvent : Event) (wpt : WPTriggerInfo) : Prop :=
  (Overlapped b currEvent sampleEvent wpt ↔ Intersect currEvent sampleEvent wpt) ∧
    ∀ va, Overlapped b currEvent sampleEvent { wpt with va := va } ↔
      Overlapped b currEvent sampleEvent wpt

/-- The outcome does not depend on `wpt->va` iff the overlap test passes. -/
theorem overlapped_independent_iff (hb : b.dupSpyOverlap = false) (h0 : 0 < wpt.watchLen)
    (hlen : wpt.watchLen < 2 ^ 31) :
    (∀ va, Overlapped b currEvent sampleEvent { wpt with va := va } ↔
      Overlapped b currEvent sampleEvent wpt) ↔ Meets currEvent sampleEvent wpt := by
  constructor
  · intro hsame
    by_contra hno
    -- the test does not look at `va`
    have hdropped : ∀ va, Overlapped b currEvent sampleEvent { wpt with va := va } ↔
        ¬ Far currEvent sampleEvent { wpt with va := va } :=
      fun va => overlapped_iff_of_not_meets hb h0 hlen hno
    -- an instruction next to the sample drops the trigger, one far away keeps it
    obtain ⟨va, hfar⟩ := exists_far currEvent sampleEvent h0 hlen
    have hnear := (hdropped sampleEvent.data_addr).mpr not_far_self
    exact (hdropped va).mp ((hsame va).mpr ((hsame sampleEvent.data_addr).mp hnear)) hfar
  · intro hmeets va
    have hmeets' : Meets currEvent sampleEvent { wpt with va := va } := hmeets
    exact iff_of_true (overlapped_of_meets hb h0 hlen hmeets')
      (overlapped_of_meets hb h0 hlen hmeets)

/-- **The filter is right wherever the instruction is** iff the ranges intersect and the
overlap test says so. For the instruction at hand, it is right on intersecting ranges unless
they wrap and the instruction is far away, and right on disjoint ones iff it is. -/
theorem overlapped_iff (hb : b.dupSpyOverlap = false) (h0 : 0 < wpt.watchLen)
    (hlen : wpt.watchLen < 2 ^ 31) :
    (Filters b currEvent sampleEvent wpt ↔
      Intersect currEvent sampleEvent wpt ∧ Meets currEvent sampleEvent wpt) ∧
    ((Overlapped b currEvent sampleEvent wpt ↔ Intersect currEvent sampleEvent wpt) ↔
      (Intersect currEvent sampleEvent wpt →
        Meets currEvent sampleEvent wpt ∨ ¬ Far currEvent sampleEvent wpt) ∧
      (¬ Intersect currEvent sampleEvent wpt →
        ¬ Meets currEvent sampleEvent wpt ∧ Far currEvent sampleEvent wpt)) := by
  have hmeets : Meets currEvent sampleEvent wpt → Overlapped b currEvent sampleEvent wpt :=
    overlapped_of_meets hb h0 hlen
  have hapart : ¬ Meets currEvent sampleEvent wpt →
      (Overlapped b currEvent sampleEvent wpt ↔ ¬ Far currEvent sampleEvent wpt) :=
    overlapped_iff_of_not_meets hb h0 hlen
  constructor
  · rw [Filters, overlapped_independent_iff hb h0 hlen]
    refine and_congr_left fun h => ?_
    exact iff_true_left (hmeets h)
  · -- where the test passes the trigger is dropped, elsewhere `Far` decides
    by_cases h : Meets currEvent sampleEvent wpt
    · by_cases hin : Intersect currEvent sampleEvent wpt
      · exact iff_of_true (iff_of_true (hmeets h) hin)
          ⟨fun _ => Or.inl h, fun hno => absurd hin hno⟩
      · exact iff_of_false (fun hiff => hin (hiff.mp (hmeets h))) fun hboth => (hboth.2 hin).1 h
    · rw [hapart h]
      by_cases hin : Intersect currEvent sampleEvent wpt
      · rw [iff_true_right hin]
        exact ⟨fun hno => ⟨fun _ => Or.inr hno, fun hout => absurd hin hout⟩,
          fun hboth => (hboth.1 hin).resolve_left h⟩
      · rw [iff_false_right hin, not_not]
        exact ⟨fun hfar => ⟨fun hin' => absurd hin' hin, fun _ => ⟨h, hfar⟩⟩,
          fun hboth => (hboth.2 hin).2⟩

theorem filters_shiftedStore :
    Filters .instOnly shiftedStore countingStore ⟨0x40, 8⟩ :=
  (overlapped_iff rfl (by decide) (by decide)).1.mpr ⟨⟨0x1004, by decide, by decide⟩, by decide⟩

/-- **A store to the stack and one to the heap.** The trigger is dropped as one that overlaps.
With the same accesses and an instruction at another address it is not. -/
theorem stackStore_overlapped :
    let sampleEvent := Event.storeAt 1 0x7fffffffe000
    let currEvent := Event.storeAt 2 0x602000
    Overlapped .instOnly currEvent sampleEvent ⟨0x401000, 8⟩ ∧
      ¬ Intersect currEvent sampleEvent ⟨0x401000, 8⟩ ∧
      ¬ Overlapped .instOnly currEvent sampleEvent ⟨0x80401000, 8⟩ := by
  refine ⟨by unfold Overlapped; decide, ?_, by unfold Overlapped; decide⟩
  rw [intersect_iff (by decide)]
  decide

end Kognizance
