import Kognizance.Witch.Overlap

/-!
# The verdict of RedSpy and LoadSpy

For values that are no floats, the two spies compare the bytes the sample and the trigger
have in common: both accesses have recorded their bytes from their own address on, so the
loop starts at an offset in each of them.

* `Comparable.finding_eq_red_iff`: what the loop finds.
* `integerVerdict_iff`: what happens when the offset into the trigger's value does not fit
  into an `int`.
* `integerVerdict_of_le`: an access of up to 2^31 bytes puts the bytes into `totalRedBytes`
  iff the two values hold the same bytes at the common addresses.
-/

namespace Kognizance

open WitchLogic

/-! ### The comparison -/

/-- The value is compared byte by byte. -/
def Event.IsInteger (event : Event) : Prop :=
  event.floatType ≠ .elemTypeSingle ∧ event.floatType ≠ .elemTypeDouble

namespace Spy

variable {spy : Spy} {newValue oldValue : ℤ → UInt8}

/-- The first difference resets the count for good. -/
theorem matchBytes_eq (n : ℕ) (i k : ℤ) (redBytes : UInt8) :
    matchBytes newValue oldValue n i k redBytes =
      if ∀ j < n, newValue (i + j) = oldValue (k + j) then redBytes + UInt8.ofNat n else 0 := by
  -- over the rounds, with the count so far
  induction n generalizing i k redBytes with
  | zero =>
    rw [if_pos fun j hj => absurd hj (Nat.not_lt_zero j)]
    exact (UInt8.add_zero redBytes).symm
  | succ n ih =>
    -- the first byte, and the others one place further on
    have hsplit : (∀ j < n + 1, newValue (i + j) = oldValue (k + j)) ↔
        newValue i = oldValue k ∧ ∀ j < n, newValue (i + 1 + j) = oldValue (k + 1 + j) := by
      rw [Nat.forall_lt_succ_left]
      simp only [Nat.cast_zero, add_zero, Nat.cast_succ, add_comm (_ : ℤ) 1, ← add_assoc]
    unfold matchBytes
    by_cases hfirst : newValue i = oldValue k
    · -- one more byte counted, in the eight bits of the counter
      rw [if_pos hfirst, ih]
      simp only [hsplit, hfirst, true_and]
      split_ifs
      · rw [UInt8.add_assoc, UInt8.ofNat_add, UInt8.add_comm 1]
        rfl
      · rfl
    · rw [if_neg hfirst, if_neg fun h => hfirst (hsplit.mp h).1]

/-- The count does not wrap on up to 255 bytes. -/
theorem matchBytes_ne_zero_iff {n : ℕ} (hn : n < 256) (i k : ℤ) :
    matchBytes newValue oldValue n i k 0 ≠ 0 ↔
      0 < n ∧ ∀ j < n, newValue (i + j) = oldValue (k + j) := by
  have hcount : UInt8.ofNat n ≠ 0 ↔ 0 < n := by
    rw [Ne, ← UInt8.toNat_inj, UInt8.toNat_ofNat_of_lt' hn]
    exact Nat.pos_iff_ne_zero.symm
  rw [matchBytes_eq]
  split_ifs with hsame
  · rw [UInt8.zero_add, hcount]
    exact (and_iff_left hsame).symm
  · exact ⟨fun h => absurd rfl h, fun h => absurd h.2 hsame⟩

theorem finding_of_isInteger {currEvent sampleEvent : Event} (hint : currEvent.IsInteger)
    (F : FloatUnit) (spy : Spy) (wpt : WPTriggerInfo) :
    spy.finding F currEvent sampleEvent wpt =
      spy.treatLikeInteger currEvent sampleEvent (overlapBytes currEvent sampleEvent wpt)
        (spy.offsets currEvent sampleEvent) := by
  unfold finding
  cases hfloat : currEvent.floatType with
  | elemTypeSingle => exact absurd hfloat hint.1
  | elemTypeDouble => exact absurd hfloat hint.2
  | _ => rfl

theorem treatLikeInteger_eq_red_iff {currEvent sampleEvent : Event} {overlap : ℤ} {offset : ℤ × ℤ}
    (h : spy.rounds overlap offset.1 < 256) :
    spy.treatLikeInteger currEvent sampleEvent overlap offset = .red ↔
      0 < spy.rounds overlap offset.1 ∧ ∀ j < spy.rounds overlap offset.1,
        currEvent.valueAtEvent (offset.1 + j) = sampleEvent.valueAtEvent (offset.2 + j) := by
  rw [← matchBytes_ne_zero_iff h]
  unfold treatLikeInteger
  split_ifs with hred
  · exact ⟨fun _ => hred, fun _ => rfl⟩
  · exact ⟨nofun, fun hne => absurd hne hred⟩

theorem treatLikeInteger_cases (currEvent sampleEvent : Event) (overlap : ℤ) (offset : ℤ × ℤ) :
    spy.treatLikeInteger currEvent sampleEvent overlap offset = .red ∨
      spy.treatLikeInteger currEvent sampleEvent overlap offset = .used := by
  unfold treatLikeInteger
  split_ifs
  · exact Or.inl rfl
  · exact Or.inr rfl

/-! ### What a call adds to the totals -/

end Spy

theorem WitchLogic.addFrames_total (ctype : ContextType) (frames : List ContextFrame)
    (σ : WitchLogic) (c : ℕ) : (addFrames ctype frames σ c).1.total = σ.total := by
  have hretype : ∀ (τ : WitchLogic) (d : ℕ), (τ.setContextType d ctype).total = τ.total := by
    intro τ d
    rw [setContextType_eq]
    rfl
  -- whether a context is found or constructed, the totals are another field
  induction frames generalizing σ c with
  | nil => rfl
  | cons frame frames ih =>
    unfold addFrames
    cases σ.findChild c frame with
    | some d => exact (ih _ _).trans (hretype σ d)
    | none => exact (ih _ _).trans (hretype _ σ.nextContext)

theorem addUsed_total (F : FloatUnit) (bad : List MetricType) (updates shows : Bool)
    (currEvent : Event) (leafContext inc : ℕ) (σ : WitchLogic) :
    (addUsed F bad updates shows currEvent leafContext inc σ).total
      = Function.update σ.total .usedBytes (σ.total .usedBytes + inc) := by
  cases shows with
  | false => cases updates <;> rfl
  | true => cases updates <;> exact addFrames_total _ _ _ _

theorem addWasted_total (F : FloatUnit) (bad : List MetricType) (m : MetricType)
    (ctype : ContextType) (currEvent : Event) (leafContext inc : ℕ) (σ : WitchLogic) :
    (addWasted F bad m ctype currEvent leafContext inc σ).total
      = Function.update σ.total m (σ.total m + inc) :=
  addFrames_total ctype _ _ _

/-- A finding moves one total. -/
theorem Logic.record_total (F : FloatUnit) (l : Logic) (found : Finding) (currEvent : Event)
    (leafContext inc : ℕ) (σ : WitchLogic) :
    (l.record F found currEvent leafContext inc σ).total
      = Function.update σ.total found.metric (σ.total found.metric + inc) := by
  rcases l.record_cases F found currEvent leafContext inc σ with
    ⟨hused, bad, updates, shows, heq⟩ | ⟨-, bad, ctype, heq⟩
  · rw [heq, hused]
    exact addUsed_total F bad updates shows currEvent leafContext inc σ
  · rw [heq]
    exact addWasted_total F bad found.metric ctype currEvent leafContext inc σ

/-- The call of a spy that attributes bytes. -/
theorem Attributes.callback_eq {spy : Spy} {currEvent sampleEvent : Event} {wpt : WPTriggerInfo}
    {σ : WitchLogic} {leafContext : ℕ}
    (h : Attributes (.spy spy) currEvent sampleEvent wpt σ leafContext) (F : FloatUnit) :
    spy.witchOnWPCallback F currEvent sampleEvent wpt σ =
      (.disable, finish sampleEvent (spy.record F (spy.finding F currEvent sampleEvent wpt)
        currEvent leafContext (pendingBytes σ currEvent sampleEvent leafContext)
        (takePending currEvent sampleEvent leafContext σ).2)) := by
  have hwatched : ¬ (currEvent.accessType ≠ spy.watches ∧
      currEvent.accessType ≠ .loadAndStore) := h.proceeds.watched
  have hsame : ¬ (spy.checksFixedIP = true ∧ sampleEvent.fixedIP ≠ currEvent.fixedIP) :=
    h.proceeds.sameIP
  -- none of the guards that end the callback early holds
  have haccepts : ¬ spy.accepts currEvent sampleEvent wpt = false :=
    fun hno => Bool.false_ne_true (hno.symm.trans h.accepts)
  have hpending : ¬ (takePending currEvent sampleEvent leafContext σ).1
      * sampleEvent.accessLength.toNat = 0 := h.pending
  unfold Spy.witchOnWPCallback
  rw [if_neg hwatched, if_neg hsame, h.leaf]
  simp only [if_neg haccepts, if_neg hpending]
  rfl

/-- **One total gets the bytes.** -/
theorem Attributes.callback_total {spy : Spy} {currEvent sampleEvent : Event}
    {wpt : WPTriggerInfo} {σ : WitchLogic} {leafContext : ℕ}
    (h : Attributes (.spy spy) currEvent sampleEvent wpt σ leafContext) (F : FloatUnit) :
    let m := (spy.finding F currEvent sampleEvent wpt).metric
    (spy.witchOnWPCallback F currEvent sampleEvent wpt σ).2.total
      = Function.update σ.total m
        (σ.total m + pendingBytes σ currEvent sampleEvent leafContext) := by
  obtain ⟨table, heq, -⟩ := takePending_fields currEvent sampleEvent σ leafContext
  have hrecord := (Logic.spy spy).record_total F (spy.finding F currEvent sampleEvent wpt)
    currEvent leafContext (pendingBytes σ currEvent sampleEvent leafContext)
    (takePending currEvent sampleEvent leafContext σ).2
  rw [h.callback_eq F]
  refine hrecord.trans ?_
  rw [heq]

/-! ### The verdict -/

section Verdict

variable {spy : Spy} {currEvent sampleEvent : Event} {wpt : WPTriggerInfo} {σ : WitchLogic}
  {leafContext : ℕ}

/-- The addresses that the trigger accesses and the watchpoint covers. -/
def commonBytes (currEvent sampleEvent : Event) (wpt : WPTriggerInfo) : Set ℕ :=
  byteRange currEvent.data_addr currEvent.accessLength.toNat ∩
    byteRange sampleEvent.data_addr wpt.watchLen

instance (x : ℕ) (va : UInt64) (len : ℤ) : Decidable (x ∈ byteRange va len) :=
  inferInstanceAs (Decidable (_ ∧ _))

/-- The two values hold the same bytes at the common addresses, where the trigger's value is
read `shift` bytes before the byte that belongs to the address. -/
def AgreeAt (shift : ℤ) (currEvent sampleEvent : Event) (wpt : WPTriggerInfo) : Prop :=
  ∀ x ∈ commonBytes currEvent sampleEvent wpt,
    currEvent.valueAtEvent (x - currEvent.data_addr.toNat - shift)
      = sampleEvent.valueAtEvent (x - sampleEvent.data_addr.toNat)

/-- Two accesses, of values that are no floats, that a spy compares. -/
structure Comparable (spy : Spy) (currEvent sampleEvent : Event) (wpt : WPTriggerInfo) :
    Prop where
  integer : currEvent.IsInteger
  watchLen : wpt.watchLen = sampleEvent.floorLength
  oneHalf :
    (currEvent.data_addr.toNat + currEvent.accessLength.toNat ≤ 2 ^ 63 ∧
      sampleEvent.data_addr.toNat + wpt.watchLen.toNat ≤ 2 ^ 63) ∨
    (2 ^ 63 ≤ currEvent.data_addr.toNat ∧ 2 ^ 63 ≤ sampleEvent.data_addr.toNat ∧
      currEvent.data_addr.toNat + currEvent.accessLength.toNat < 2 ^ 64 ∧
      sampleEvent.data_addr.toNat + wpt.watchLen.toNat < 2 ^ 64)
  common : (commonBytes currEvent sampleEvent wpt).Nonempty
  near : ∀ offset ∈ [(spy.offsets currEvent sampleEvent).1, (spy.offsets currEvent sampleEvent).2],
    -16 ≤ offset ∧ offset ≤ 16

/-- The bytes go to `totalRedBytes` if the values agree on the common addresses, to
`totalUsedBytes` if they do not, and to nothing else. -/
def IntegerVerdict (F : FloatUnit) (spy : Spy) (currEvent sampleEvent : Event)
    (wpt : WPTriggerInfo) (σ : WitchLogic) (leafContext : ℕ) : Prop :=
  let inc := pendingBytes σ currEvent sampleEvent leafContext
  let total' := (spy.witchOnWPCallback F currEvent sampleEvent wpt σ).2.total
  (AgreeAt 0 currEvent sampleEvent wpt →
    total' = Function.update σ.total .redBytes (σ.total .redBytes + inc)) ∧
  (¬ AgreeAt 0 currEvent sampleEvent wpt →
    total' = Function.update σ.total .usedBytes (σ.total .usedBytes + inc))

namespace Comparable

/-- The lengths, and where the two ranges meet. -/
theorem bounds (h : Comparable spy currEvent sampleEvent wpt) :
    0 < wpt.watchLen ∧ wpt.watchLen ≤ 8 ∧
      (sampleEvent.data_addr.toNat : ℤ)
        < currEvent.data_addr.toNat + currEvent.accessLength.toNat ∧
      (currEvent.data_addr.toNat : ℤ) < sampleEvent.data_addr.toNat + wpt.watchLen := by
  obtain ⟨hpos, hle, -⟩ := sampleEvent.floorLength_bounds
  rw [← h.watchLen] at hpos hle
  obtain ⟨x, ⟨hx1, hx2⟩, hx3, hx4⟩ := h.common
  rw [Int.toNat_natCast] at hx2
  exact ⟨hpos, hle, by omega, by omega⟩

theorem meets (h : Comparable spy currEvent sampleEvent wpt) :
    Meets currEvent sampleEvent wpt := by
  obtain ⟨hpos, hle, h1, h2⟩ := h.bounds
  have hhalf := h.oneHalf
  -- in the upper half both ranges end below `2 ^ 64`, in the lower half they do anyway
  exact meets_of_lt hpos.le (by omega) (by omega) (by omega) h1 h2

theorem overlapBytes_eq (h : Comparable spy currEvent sampleEvent wpt) :
    overlapBytes currEvent sampleEvent wpt =
      min (currEvent.data_addr.toNat + currEvent.accessLength.toNat : ℤ)
          (sampleEvent.data_addr.toNat + wpt.watchLen)
        - max (currEvent.data_addr.toNat : ℤ) sampleEvent.data_addr.toNat := by
  obtain ⟨hpos, hle, -⟩ := h.bounds
  exact overlapBytes_of_meets hpos.le (by omega) h.meets

/-- One of the offsets is 0. The one into the sample's value is smaller than the watched
length; the other one may not fit into an `int`. -/
theorem offsets_eq (hspy : spy.wantsOverlap = true)
    (h : Comparable spy currEvent sampleEvent wpt) :
    spy.offsets currEvent sampleEvent =
      (if sampleEvent.data_addr.toNat ≤ currEvent.data_addr.toNat then 0
        else ((sampleEvent.data_addr.toNat : ℤ) - currEvent.data_addr.toNat).bmod (2 ^ 32),
      if currEvent.data_addr.toNat ≤ sampleEvent.data_addr.toNat then 0
        else (currEvent.data_addr.toNat : ℤ) - sampleEvent.data_addr.toNat) := by
  have hhalf := h.oneHalf
  -- in one half the order of the addresses is the order of their signed values
  have hside : sampleEvent.data_addr.toNat < 2 ^ 63 ↔ currEvent.data_addr.toNat < 2 ^ 63 := by
    obtain ⟨hpos, hle, h1, h2⟩ := h.bounds
    omega
  -- the trigger starts within the watched bytes, so this offset is small
  have hsecond : ((currEvent.data_addr.toNat : ℤ) - sampleEvent.data_addr.toNat).bmod (2 ^ 32)
      = currEvent.data_addr.toNat - sampleEvent.data_addr.toNat ∨
      currEvent.data_addr.toNat ≤ sampleEvent.data_addr.toNat := by
    obtain ⟨hpos, hle, h1, h2⟩ := h.bounds
    rw [Int.bmod_def]
    omega
  rw [Kognizance.offsets_eq hspy]
  simp only [toInt64_le_iff hside, toInt64_le_iff hside.symm]
  rcases hsecond with hsecond | hle
  · rw [hsecond]
  · rw [if_pos hle, if_pos hle]

theorem accepts (hspy : spy.wantsOverlap = true)
    (h : Comparable spy currEvent sampleEvent wpt) :
    spy.accepts currEvent sampleEvent wpt = true := by
  obtain ⟨hpos, hle, h1, h2⟩ := h.bounds
  have hacc : 0 < overlapBytes currEvent sampleEvent wpt := by
    obtain ⟨x, ⟨hx1, hx2⟩, hx3, hx4⟩ := h.common
    rw [Int.toNat_natCast] at hx2
    rw [h.overlapBytes_eq]
    omega
  have hfirst := h.near _ List.mem_cons_self
  have hsecond := h.near _ (List.mem_cons_of_mem _ List.mem_cons_self)
  unfold Spy.accepts
  simp only [hspy, if_true, Bool.and_eq_true, Bool.not_eq_true', decide_eq_true_iff,
    Bool.or_eq_false_iff, decide_eq_false_iff_not]
  omega

/-- The common addresses, counted from the first. -/
theorem agreeAt_iff (h : Comparable spy currEvent sampleEvent wpt) (shift : ℤ) :
    AgreeAt shift currEvent sampleEvent wpt ↔
      ∀ j < (overlapBytes currEvent sampleEvent wpt).toNat,
        currEvent.valueAtEvent (max 0 ((sampleEvent.data_addr.toNat : ℤ)
            - currEvent.data_addr.toNat) - shift + j)
          = sampleEvent.valueAtEvent (max 0 ((currEvent.data_addr.toNat : ℤ)
            - sampleEvent.data_addr.toNat) + j) := by
  obtain ⟨hpos, hle, h1, h2⟩ := h.bounds
  rw [h.overlapBytes_eq]
  constructor
  · intro hagree j hj
    have hx := hagree (max currEvent.data_addr.toNat sampleEvent.data_addr.toNat + j)
      ⟨⟨by omega, by rw [Int.toNat_natCast]; omega⟩, by omega, by omega⟩
    convert hx using 2 <;> push_cast <;> omega
  · rintro hagree x ⟨⟨hx1, hx2⟩, hx3, hx4⟩
    rw [Int.toNat_natCast] at hx2
    have hx := hagree (x - max currEvent.data_addr.toNat sampleEvent.data_addr.toNat) (by omega)
    convert hx using 2 <;> omega

/-- **What the loop finds.** An offset of `2 ^ 31` or more has become a negative one. -/
theorem finding_eq_red_iff (hspy : spy.wantsOverlap = true) (hbytes : spy.comparesInt = false)
    (h : Comparable spy currEvent sampleEvent wpt) (F : FloatUnit) :
    spy.finding F currEvent sampleEvent wpt = .red ↔
      AgreeAt (if sampleEvent.data_addr.toNat < currEvent.data_addr.toNat + 2 ^ 31 then 0
        else 2 ^ 32) currEvent sampleEvent wpt := by
  obtain ⟨hpos, hle, h1, h2⟩ := h.bounds
  have hlen := currEvent.accessLength.toNat_lt
  have hoverlap := h.overlapBytes_eq
  have hrounds : ∀ firstOffest, spy.rounds (overlapBytes currEvent sampleEvent wpt) firstOffest
      = (overlapBytes currEvent sampleEvent wpt).toNat := by
    intro firstOffest
    rw [Spy.rounds, hbytes, if_neg Bool.false_ne_true]
  have hpositive : 0 < (overlapBytes currEvent sampleEvent wpt).toNat := by
    obtain ⟨x, ⟨hx1, hx2⟩, hx3, hx4⟩ := h.common
    rw [Int.toNat_natCast] at hx2
    omega
  have hsmall : (overlapBytes currEvent sampleEvent wpt).toNat < 256 := by omega
  -- the trigger may start up to `2 ^ 32 - 1` bytes before the sample: half of these
  -- offsets do not fit into an `int`, and come out `2 ^ 32` too small
  have hfirst : (if sampleEvent.data_addr.toNat ≤ currEvent.data_addr.toNat then 0
      else ((sampleEvent.data_addr.toNat : ℤ) - currEvent.data_addr.toNat).bmod (2 ^ 32))
      = max 0 ((sampleEvent.data_addr.toNat : ℤ) - currEvent.data_addr.toNat)
        - (if sampleEvent.data_addr.toNat < currEvent.data_addr.toNat + 2 ^ 31 then 0
          else 2 ^ 32) := by
    rw [Int.bmod_def]
    split_ifs <;> omega
  have hsecond : (if currEvent.data_addr.toNat ≤ sampleEvent.data_addr.toNat then 0
      else (currEvent.data_addr.toNat : ℤ) - sampleEvent.data_addr.toNat)
      = max 0 ((currEvent.data_addr.toNat : ℤ) - sampleEvent.data_addr.toNat) := by
    omega
  rw [Spy.finding_of_isInteger h.integer,
    Spy.treatLikeInteger_eq_red_iff ((hrounds _).trans_lt hsmall), hrounds, h.offsets_eq hspy,
    h.agreeAt_iff, hfirst, hsecond]
  exact and_iff_right hpositive

end Comparable

/-- The totals tell the two verdicts apart. -/
theorem integerVerdict_iff_red (F : FloatUnit) (hspy : spy.wantsOverlap = true)
    (hproceeds : (Logic.spy spy).Proceeds currEvent sampleEvent)
    (hleaf : σ.eventToContextLeafMap.lookup sampleEvent.eventId = some leafContext)
    (hpending : pendingBytes σ currEvent sampleEvent leafContext ≠ 0)
    (hpair : Comparable spy currEvent sampleEvent wpt) :
    IntegerVerdict F spy currEvent sampleEvent wpt σ leafContext ↔
      (spy.finding F currEvent sampleEvent wpt = .red ↔ AgreeAt 0 currEvent sampleEvent wpt) := by
  have hattr : Attributes (.spy spy) currEvent sampleEvent wpt σ leafContext :=
    ⟨hproceeds, hleaf, hpair.accepts hspy, hpending⟩
  have htotal := hattr.callback_total F
  -- there are bytes, so the total they went to can be read off
  have hdiffer : ∀ {m m' : MetricType}, m ≠ m' →
      Function.update σ.total m (σ.total m + pendingBytes σ currEvent sampleEvent leafContext)
        ≠ Function.update σ.total m'
          (σ.total m' + pendingBytes σ currEvent sampleEvent leafContext) := by
    intro m m' hne heq
    have hm := congrFun heq m
    rw [Function.update_self, Function.update_of_ne hne] at hm
    exact hpending (by omega)
  have hfinding : spy.finding F currEvent sampleEvent wpt = .red ∨
      spy.finding F currEvent sampleEvent wpt = .used := by
    rw [Spy.finding_of_isInteger hpair.integer]
    exact Spy.treatLikeInteger_cases currEvent sampleEvent _ _
  unfold IntegerVerdict
  rcases hfinding with hred | hused
  · rw [hred] at htotal ⊢
    constructor
    · intro hverdict
      refine iff_of_true rfl (not_not.mp fun hno => ?_)
      exact hdiffer (by decide) (htotal.symm.trans (hverdict.2 hno))
    · exact fun hiff => ⟨fun _ => htotal, fun hno => absurd (hiff.mp rfl) hno⟩
  · rw [hused] at htotal ⊢
    constructor
    · intro hverdict
      refine iff_of_false nofun fun hagree => ?_
      exact hdiffer (by decide) (htotal.symm.trans (hverdict.1 hagree))
    · intro hiff
      exact ⟨fun hagree => absurd (hiff.mpr hagree) nofun, fun _ => htotal⟩

/-- **The bytes go where they belong iff the offset into the trigger's value fits into an
`int`**, or the bytes that are read instead, `2 ^ 32` before, lead to the same answer. -/
theorem integerVerdict_iff (F : FloatUnit) (b : BuildFlags)
    (hspy : spy = redSpy b ∨ spy = loadSpy b)
    (hproceeds : (Logic.spy spy).Proceeds currEvent sampleEvent)
    (hleaf : σ.eventToContextLeafMap.lookup sampleEvent.eventId = some leafContext)
    (hpending : pendingBytes σ currEvent sampleEvent leafContext ≠ 0)
    (hpair : Comparable spy currEvent sampleEvent wpt) :
    IntegerVerdict F spy currEvent sampleEvent wpt σ leafContext ↔
      (sampleEvent.data_addr.toNat < currEvent.data_addr.toNat + 2 ^ 31 ∨
        (AgreeAt (2 ^ 32) currEvent sampleEvent wpt ↔ AgreeAt 0 currEvent sampleEvent wpt)) := by
  obtain ⟨hoverlap, hbytes⟩ : spy.wantsOverlap = true ∧ spy.comparesInt = false := by
    rcases hspy with rfl | rfl <;> exact ⟨rfl, rfl⟩
  rw [integerVerdict_iff_red F hoverlap hproceeds hleaf hpending hpair,
    hpair.finding_eq_red_iff hoverlap hbytes]
  by_cases hfits : sampleEvent.data_addr.toNat < currEvent.data_addr.toNat + 2 ^ 31
  · rw [if_pos hfits]
    exact iff_of_true Iff.rfl (Or.inl hfits)
  · rw [if_neg hfits]
    exact (or_iff_right hfits).symm

/-- **The bytes go where they belong.** The length of a trigger comes from the operand of one
instruction, which is nowhere near 2^31 bytes, so the offset into its value fits. -/
theorem integerVerdict_of_le (F : FloatUnit) (b : BuildFlags)
    (hspy : spy = redSpy b ∨ spy = loadSpy b)
    (hproceeds : (Logic.spy spy).Proceeds currEvent sampleEvent)
    (hleaf : σ.eventToContextLeafMap.lookup sampleEvent.eventId = some leafContext)
    (hpending : pendingBytes σ currEvent sampleEvent leafContext ≠ 0)
    (hpair : Comparable spy currEvent sampleEvent wpt)
    (hlen : currEvent.accessLength.toNat ≤ 2 ^ 31) :
    IntegerVerdict F spy currEvent sampleEvent wpt σ leafContext := by
  obtain ⟨-, -, hmeet, -⟩ := hpair.bounds
  have hfits : sampleEvent.data_addr.toNat < currEvent.data_addr.toNat + 2 ^ 31 := by omega
  exact (integerVerdict_iff F b hspy hproceeds hleaf hpending hpair).mpr (Or.inl hfits)

end Verdict

/-! ### Two triggers of RedSpy -/

/-- The state after a sample. -/
def WitchLogic.sampled (sampleEvent : Event) : WitchLogic :=
  (WitchLogic.new.witchOnSampleCallback sampleEvent).2

/-- A store of the bytes 0 to 7. -/
def countingStore : Event :=
  { (Event.storeAt 1 0x1000).withStack [0x40] with valueAtEvent := fun i => UInt8.ofInt i }

/-- A store of the bytes 4 to 11, four bytes further on. -/
def shiftedStore : Event :=
  { Event.storeAt 2 0x1004 with valueAtEvent := fun i => UInt8.ofInt (i + 4) }

theorem integerVerdict_of_shiftedStore :
    IntegerVerdict .bytewise (redSpy .instOnly) shiftedStore countingStore ⟨0x1000, 8⟩
      (.sampled countingStore) 1 := by
  have hproceeds : (Logic.spy (redSpy .instOnly)).Proceeds shiftedStore countingStore :=
    ⟨fun hno => hno.1 rfl, id, fun hno => hno.2 rfl⟩
  have hpair : Comparable (redSpy .instOnly) shiftedStore countingStore ⟨0x1000, 8⟩ :=
    { integer := ⟨nofun, nofun⟩
      watchLen := by decide
      oneHalf := Or.inl (by decide)
      common := ⟨0x1004, by decide, by decide⟩
      near := by decide }
  exact integerVerdict_of_le .bytewise .instOnly (Or.inl rfl) hproceeds (by decide +kernel)
    (by decide +kernel) hpair (by decide)

/-- A store of eight zero bytes. -/
def farSample : Event := (Event.storeAt 1 0x100000ffb).withStack [0x40]

/-- A store of `2 ^ 32 - 1` zero bytes that ends in the middle of them; the bytes before its
value in memory are ones. -/
def hugeStore : Event :=
  { Event.storeAt 2 0x1000 with
    accessLength := 0xffffffff
    valueAtEvent := fun i => if i < 0 then 1 else 0 }

theorem comparable_hugeStore :
    Comparable (redSpy .instOnly) hugeStore farSample ⟨0x100000ffb, 8⟩ where
  integer := ⟨nofun, nofun⟩
  watchLen := by decide
  oneHalf := Or.inl (by decide)
  common := ⟨0x100000ffb, by decide, by decide⟩
  near := by decide

/-- **A wrong verdict.** The two stores have four zero bytes in common, but the bytes go to
`totalUsedBytes`. -/
theorem hugeStore_used :
    let σ := WitchLogic.sampled farSample
    (Logic.spy (redSpy .instOnly)).Proceeds hugeStore farSample ∧
      σ.eventToContextLeafMap.lookup farSample.eventId = some 1 ∧
      pendingBytes σ hugeStore farSample 1 ≠ 0 ∧
      0 < farSample.accessLength.toNat ∧
      Comparable (redSpy .instOnly) hugeStore farSample ⟨0x100000ffb, 8⟩ ∧
      ¬ IntegerVerdict .bytewise (redSpy .instOnly) hugeStore farSample ⟨0x100000ffb, 8⟩ σ 1 := by
  have hproceeds : (Logic.spy (redSpy .instOnly)).Proceeds hugeStore farSample :=
    ⟨fun hno => hno.1 rfl, id, fun hno => hno.2 rfl⟩
  have hleaf : (WitchLogic.sampled farSample).eventToContextLeafMap.lookup farSample.eventId
      = some 1 := by decide +kernel
  have hpending : pendingBytes (.sampled farSample) hugeStore farSample 1 ≠ 0 := by
    decide +kernel
  refine ⟨hproceeds, hleaf, hpending, by decide, comparable_hugeStore, ?_⟩
  rw [integerVerdict_iff_red .bytewise rfl hproceeds hleaf hpending comparable_hugeStore,
    comparable_hugeStore.finding_eq_red_iff rfl rfl, if_neg (by decide)]
  intro hiff
  -- the bytes that belong together agree
  have hagree : AgreeAt 0 hugeStore farSample ⟨0x100000ffb, 8⟩ := by
    rintro x ⟨⟨hx, -⟩, -⟩
    exact if_neg (by omega)
  have hwrong := hiff.mpr hagree 0x100000ffb ⟨by decide, by decide⟩
  exact absurd hwrong (by decide)

end Kognizance
