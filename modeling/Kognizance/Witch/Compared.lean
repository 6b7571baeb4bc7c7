import Mathlib.Data.Nat.Find
import Kognizance.Witch.Redundant

/-!
# The bytes that are compared

The integer comparison reads pairs of bytes up to the first difference. Nothing in the loop
looks at the lengths of the two values. RedSpy and LoadSpy rely on the overlap and on the
check of the offsets for that, but accesses that only lie close to each other pass both.

* `matchBytes_congr`: the comparison depends on the bytes at `comparedIndices` only.
* `inside_comparedIndices_iff`: where the loop stays inside of two values.
* `readsInside_iff`: where RedSpy and LoadSpy do.
-/

namespace Kognizance

/-! ### The indices -/

namespace Spy

variable {newValue oldValue : ℤ → UInt8}

/-- The indices `i` and `k` at which `matchBytes` reads. -/
def comparedIndices (newValue oldValue : ℤ → UInt8) : ℕ → ℤ → ℤ → List (ℤ × ℤ)
  | 0, _, _ => []
  | n + 1, i, k =>
    (i, k) :: if newValue i = oldValue k then comparedIndices newValue oldValue n (i + 1) (k + 1)
      else []

/-- Other values with the same bytes there give the same count. -/
theorem matchBytes_congr {newValue' oldValue' : ℤ → UInt8} {n : ℕ} {i k : ℤ} {redBytes : UInt8}
    (h : ∀ x ∈ comparedIndices newValue oldValue n i k,
      newValue' x.1 = newValue x.1 ∧ oldValue' x.2 = oldValue x.2) :
    matchBytes newValue' oldValue' n i k redBytes
      = matchBytes newValue oldValue n i k redBytes := by
  -- over the rounds that are left; a difference ends them
  induction n generalizing i k redBytes with
  | zero => rfl
  | succ n ih =>
    obtain ⟨hnew, hold⟩ := h (i, k) List.mem_cons_self
    unfold matchBytes
    rw [hnew, hold]
    by_cases hsame : newValue i = oldValue k
    · rw [if_pos hsame, if_pos hsame]
      refine ih fun x hx => h x (List.mem_cons_of_mem _ ?_)
      rw [if_pos hsame]
      exact hx
    · rw [if_neg hsame, if_neg hsame]

/-- A pair of bytes is read if there is no difference before it. -/
theorem mem_comparedIndices {n : ℕ} {i k : ℤ} {x : ℤ × ℤ} :
    x ∈ comparedIndices newValue oldValue n i k ↔
      ∃ j < n, x = (i + j, k + j) ∧ ∀ j' < j, newValue (i + j') = oldValue (k + j') := by
  -- the first round is `j = 0`; the pair of a later one is `j - 1` after the next start
  induction n generalizing i k with
  | zero => exact ⟨nofun, fun ⟨_, hj, _⟩ => absurd hj (Nat.not_lt_zero _)⟩
  | succ n ih =>
    have hshift : ∀ (a : ℤ) (j : ℕ), a + 1 + j = a + (j + 1 : ℕ) := by
      intro a j
      push_cast
      omega
    unfold comparedIndices
    rw [List.mem_cons]
    constructor
    · rintro (rfl | hx)
      · exact ⟨0, Nat.succ_pos n, by simp, fun j' hj' => absurd hj' (Nat.not_lt_zero j')⟩
      · by_cases hsame : newValue i = oldValue k
        · rw [if_pos hsame, ih] at hx
          obtain ⟨j, hj, rfl, hbefore⟩ := hx
          refine ⟨j + 1, Nat.succ_lt_succ hj, by rw [hshift, hshift], ?_⟩
          rintro (_ | j') hj'
          · simpa using hsame
          · rw [← hshift, ← hshift]
            exact hbefore j' (Nat.lt_of_succ_lt_succ hj')
        · rw [if_neg hsame] at hx
          cases hx
    · rintro ⟨_ | j, hj, rfl, hbefore⟩
      · exact Or.inl (by simp)
      · have hsame : newValue i = oldValue k := by simpa using hbefore 0 (Nat.succ_pos j)
        rw [if_pos hsame, ih]
        refine Or.inr ⟨j, Nat.lt_of_succ_lt_succ hj, by rw [hshift, hshift], fun j' hj' => ?_⟩
        rw [hshift, hshift]
        exact hbefore (j' + 1) (Nat.succ_lt_succ hj')

/-- **The loop stays inside of two values** iff it starts inside of them, and either all its
rounds fit or a difference stops it before. -/
theorem inside_comparedIndices_iff {n : ℕ} (hn : 0 < n) {i k a l : ℤ} :
    (∀ x ∈ comparedIndices newValue oldValue n i k,
        (0 ≤ x.1 ∧ x.1 < a) ∧ 0 ≤ x.2 ∧ x.2 < l) ↔
      0 ≤ i ∧ 0 ≤ k ∧ ((i + n ≤ a ∧ k + n ≤ l) ∨
        ∃ j < n, (i + j < a ∧ k + j < l) ∧ newValue (i + j) ≠ oldValue (k + j)) := by
  constructor
  · intro h
    have hread : ∀ j < n, (∀ j' < j, newValue (i + j') = oldValue (k + j')) →
        (0 ≤ i + j ∧ i + j < a) ∧ 0 ≤ k + j ∧ k + j < l :=
      fun j hj hbefore => h (i + j, k + j) (mem_comparedIndices.mpr ⟨j, hj, rfl, hbefore⟩)
    -- the first pair is read in any case, so the loop starts inside
    have hfirst := hread 0 hn fun j' hj' => absurd hj' (Nat.not_lt_zero j')
    refine ⟨by omega, by omega, ?_⟩
    by_cases hdiffer : ∃ j, j < n ∧ newValue (i + j) ≠ oldValue (k + j)
    · -- the first difference is read
      obtain ⟨hlt, hne⟩ := Nat.find_spec hdiffer
      have hbefore : ∀ j' < Nat.find hdiffer, newValue (i + j') = oldValue (k + j') := by
        intro j' hj'
        by_contra hne'
        exact Nat.find_min hdiffer hj' ⟨hj'.trans hlt, hne'⟩
      have hin := hread _ hlt hbefore
      exact Or.inr ⟨_, hlt, ⟨hin.1.2, hin.2.2⟩, hne⟩
    · -- without a difference the last pair is read, and the others lie before it
      push Not at hdiffer
      have hlast := hread (n - 1) (by omega) fun j' hj' => hdiffer j' (by omega)
      exact Or.inl (by omega)
  · rintro ⟨hi, hk, hfit⟩ x hx
    obtain ⟨j, hj, rfl, hbefore⟩ := mem_comparedIndices.mp hx
    rcases hfit with hall | ⟨j₁, -, hin, hne⟩
    · simp only
      omega
    · -- nothing is read behind the difference at `j₁`
      have hle : j ≤ j₁ := not_lt.mp fun hlt => hne (hbefore j₁ hlt)
      simp only
      omega

/-- The indices of the comparison of two events. -/
def readIndices (spy : Spy) (currEvent sampleEvent : Event) (wpt : WPTriggerInfo) :
    List (ℤ × ℤ) :=
  let offset := spy.offsets currEvent sampleEvent
  comparedIndices currEvent.valueAtEvent sampleEvent.valueAtEvent
    (spy.rounds (overlapBytes currEvent sampleEvent wpt) offset.1) offset.1 offset.2

end Spy

/-- Every byte that is compared belongs to its access. -/
def ReadsInside (spy : Spy) (currEvent sampleEvent : Event) (wpt : WPTriggerInfo) : Prop :=
  ∀ x ∈ spy.readIndices currEvent sampleEvent wpt,
    (0 ≤ x.1 ∧ x.1 < currEvent.accessLength.toNat) ∧
      0 ≤ x.2 ∧ x.2 < sampleEvent.accessLength.toNat

instance (spy : Spy) (currEvent sampleEvent : Event) (wpt : WPTriggerInfo) :
    Decidable (ReadsInside spy currEvent sampleEvent wpt) :=
  inferInstanceAs (Decidable (∀ x ∈ spy.readIndices currEvent sampleEvent wpt, _))

/-! ### RedSpy and LoadSpy -/

/-- `n` bytes from `offset` on belong to a value of `len` bytes, or one that does differs from
its counterpart. -/
def Fits (len : ℕ) (offset n : ℤ) (value counterpart : ℤ → UInt8) : Prop :=
  0 ≤ offset ∧
    (offset + n ≤ len ∨ ∃ j : ℕ, offset + j < len ∧ value (offset + j) ≠ counterpart j)

/-- The length of the intersection if the accesses meet, else the shorter length. -/
def comparedLength (currEvent sampleEvent : Event) (wpt : WPTriggerInfo) : ℤ :=
  if Meets currEvent sampleEvent wpt then
    min (currEvent.data_addr.toNat + currEvent.accessLength.toNat : ℤ)
        (sampleEvent.data_addr.toNat + wpt.watchLen)
      - max (currEvent.data_addr.toNat : ℤ) sampleEvent.data_addr.toNat
  else min (currEvent.accessLength.toNat : ℤ) wpt.watchLen

section RedSpy

variable {spy : Spy} {currEvent sampleEvent : Event} {wpt : WPTriggerInfo}

theorem overlapBytes_eq_comparedLength (currEvent : Event) (h0 : 0 ≤ wpt.watchLen)
    (hlen : wpt.watchLen < 2 ^ 31) (hva : wpt.va = sampleEvent.data_addr) :
    overlapBytes currEvent sampleEvent wpt = comparedLength currEvent sampleEvent wpt := by
  unfold comparedLength
  by_cases hmeets : Meets currEvent sampleEvent wpt
  · rw [if_pos hmeets, overlapBytes_of_meets h0 hlen hmeets]
  · rw [if_neg hmeets, overlapBytes_of_not_meets h0 hlen hmeets hva]

/-- No more bytes are compared than either of the lengths. -/
theorem comparedLength_le (currEvent sampleEvent : Event) (wpt : WPTriggerInfo) :
    comparedLength currEvent sampleEvent wpt ≤ currEvent.accessLength.toNat ∧
      comparedLength currEvent sampleEvent wpt ≤ wpt.watchLen := by
  unfold comparedLength
  split_ifs <;> omega

/-- **The comparison stays inside of the two values** iff the value that is read at an offset
has enough bytes from there on, or a difference stops the loop. -/
theorem readsInside_iff (b : BuildFlags) (hspy : spy = redSpy b ∨ spy = loadSpy b)
    (haccepts : spy.accepts currEvent sampleEvent wpt = true)
    (hsample : 0 < sampleEvent.accessLength.toNat)
    (hwatch : wpt.watchLen = sampleEvent.floorLength) (hva : wpt.va = sampleEvent.data_addr) :
    ReadsInside spy currEvent sampleEvent wpt ↔
      if sampleEvent.data_addr.toInt64 ≤ currEvent.data_addr.toInt64 then
        Fits sampleEvent.accessLength.toNat
          (((currEvent.data_addr.toNat : ℤ) - sampleEvent.data_addr.toNat).bmod (2 ^ 32))
          (comparedLength currEvent sampleEvent wpt)
          sampleEvent.valueAtEvent currEvent.valueAtEvent
      else
        Fits currEvent.accessLength.toNat
          (((sampleEvent.data_addr.toNat : ℤ) - currEvent.data_addr.toNat).bmod (2 ^ 32))
          (comparedLength currEvent sampleEvent wpt)
          currEvent.valueAtEvent sampleEvent.valueAtEvent := by
  obtain ⟨hwants, hbytes⟩ : spy.wantsOverlap = true ∧ spy.comparesInt = false := by
    rcases hspy with rfl | rfl <;> exact ⟨rfl, rfl⟩
  obtain ⟨hpos, hle, hfloor⟩ := sampleEvent.floorLength_bounds
  rw [← hwatch] at hpos hle hfloor
  have hfloor := hfloor hsample
  obtain ⟨hcurr, hwatched⟩ := comparedLength_le currEvent sampleEvent wpt
  have hoverlap := overlapBytes_eq_comparedLength currEvent hpos.le (by omega) hva
  -- an accepted pair has an overlap, so there is a round at least
  have hn : 0 < comparedLength currEvent sampleEvent wpt := by
    rw [← hoverlap]
    simp only [Spy.accepts, hwants, if_true, Bool.and_eq_true, decide_eq_true_iff] at haccepts
    exact haccepts.1
  obtain ⟨n, hnat⟩ := Int.eq_ofNat_of_zero_le hn.le
  unfold ReadsInside Spy.readIndices
  simp only [Spy.rounds, hbytes, if_neg Bool.false_ne_true, hoverlap, hnat, Int.toNat_natCast]
  rw [hnat] at hcurr hwatched hn
  rw [Spy.inside_comparedIndices_iff (Int.natCast_pos.mp hn)]
  by_cases hle : sampleEvent.data_addr.toInt64 ≤ currEvent.data_addr.toInt64
  · -- the trigger's value is read from the start, and long enough
    rw [offsets_of_le hwants hle, if_pos hle, Fits]
    simp only [zero_add, le_refl, true_and]
    refine and_congr_right fun _ => ?_
    constructor
    · rintro (hall | ⟨j, -, hin, hne⟩)
      · exact Or.inl hall.2
      · exact Or.inr ⟨j, hin.2, hne.symm⟩
    · rintro (hall | ⟨j, hin, hne⟩)
      · exact Or.inl ⟨hcurr, hall⟩
      · by_cases hj : j < n
        · exact Or.inr ⟨j, hj, ⟨by omega, hin⟩, hne.symm⟩
        · exact Or.inl ⟨hcurr, by omega⟩
  · -- the sample's value is
    rw [offsets_of_not_le hwants hle, if_neg hle, Fits]
    simp only [zero_add, le_refl, true_and]
    refine and_congr_right fun _ => ?_
    constructor
    · rintro (hall | ⟨j, -, hin, hne⟩)
      · exact Or.inl hall.1
      · exact Or.inr ⟨j, hin.1, hne⟩
    · rintro (hall | ⟨j, hin, hne⟩)
      · exact Or.inl ⟨hall, by omega⟩
      · by_cases hj : j < n
        · exact Or.inr ⟨j, hj, ⟨hin, by omega⟩, hne⟩
        · exact Or.inl ⟨by omega, by omega⟩

end RedSpy

/-- Four of the eight bytes are compared. -/
theorem readsInside_shiftedStore :
    ReadsInside (redSpy .instOnly) shiftedStore countingStore ⟨0x1000, 8⟩ := by
  rw [readsInside_iff .instOnly (Or.inl rfl) (by decide) (by decide) (by decide) rfl]
  exact ⟨by decide, Or.inl (by decide)⟩

/-- **A read behind the sample's value.** The store next to the sampled one holds the same
bytes, and all eight of them are compared with what follows the sample's. -/
theorem adjacentStore_reads_outside :
    let sampleEvent := (Event.storeAt 1 0x1000).withStack [0x40]
    let currEvent := Event.storeAt 2 0x1008
    Attributes (.spy (redSpy .instOnly)) currEvent sampleEvent ⟨0x1000, 8⟩
        (.sampled sampleEvent) 1 ∧
      currEvent.IsInteger ∧ 0 < sampleEvent.accessLength.toNat ∧
      8 = sampleEvent.floorLength ∧ 0x1000 = sampleEvent.data_addr ∧
      (0, 8) ∈ (redSpy .instOnly).readIndices currEvent sampleEvent ⟨0x1000, 8⟩ ∧
      ¬ ReadsInside (redSpy .instOnly) currEvent sampleEvent ⟨0x1000, 8⟩ := by
  refine ⟨⟨⟨fun hno => hno.1 rfl, id, fun hno => hno.2 rfl⟩, ?_, ?_, ?_⟩, ⟨nofun, nofun⟩, ?_⟩ <;>
    decide +kernel

end Kognizance
