import Kognizance.Watchpoint.Reservoir

/-!
# The books of the victim selection

`GetVictim` counts a sample for the slots that survive it, in two loops with exits of
their own: one over the active slots, when a free slot is taken, and one over the slots
after the one that is replaced, which were not asked. Whatever the table and the draws
are, every active slot counts the sample once.

* `getVictim_inactive`: with a free slot.
* `getVictim_full`: with a full table. The slots are asked in a random order, and the
  first whose draw allows it is replaced.
* `getVictim_books`: both.
-/

namespace Kognizance

variable {maxWP : ℕ} {slots : Slots} {lrand : ℕ → ℕ} {drand : ℕ → ℚ}

/-- The sample has been counted once for each of the slots in `counted`, and no slot has
changed otherwise. -/
def CountedFor (slots slots' : Slots) (counted : ℕ → Prop) : Prop :=
  ∀ i, (counted i → slots' i = (slots i).survive) ∧ (¬ counted i → slots' i = slots i)

/-- Slot `i` is the first free one. -/
def FirstInactive (maxWP : ℕ) (slots : Slots) (i : ℕ) : Prop :=
  i < maxWP ∧ (slots i).isActive = false ∧ ∀ j < i, (slots j).isActive = true

/-- The draw of turn `k` replaces slot `i`. -/
def Replaces (slots : Slots) (drand : ℕ → ℚ) (k i : ℕ) : Prop :=
  drand k ≤ 1 / (1 + ((slots i).samplePostFull : ℚ))

/-- Slot `i` is the first one, in visiting order, that its draw replaces. -/
def FirstReplaced (order : List ℕ) (slots : Slots) (drand : ℕ → ℚ) (i : ℕ) : Prop :=
  ∃ k, order[k]? = some i ∧ Replaces slots drand k i ∧
    ∀ j i', j < k → order[j]? = some i' → ¬ Replaces slots drand j i'

/-- No slot is replaced. -/
def NoneReplaced (order : List ℕ) (slots : Slots) (drand : ℕ → ℚ) : Prop :=
  ∀ k i, order[k]? = some i → ¬ Replaces slots drand k i

/-- The victim is the first slot that is replaced, if there is one. -/
def Decides (order : List ℕ) (slots : Slots) (drand : ℕ → ℚ) (v : Victim) : Prop :=
  (v.kind = .nonEmptySlot ∧ ∃ i, v.location = some i ∧ FirstReplaced order slots drand i) ∨
    (v.kind = .noneAvailable ∧ NoneReplaced order slots drand)

/-! ### The attempts, by their turns -/

/-- What the attempts from turn `k` on come to, when the slots are asked with the counters
of `slots`. -/
theorem replaced_spec (slots : Slots) (drand : ℕ → ℚ) (is : List ℕ) (k : ℕ) :
    match replaced (fun i => (slots i).samplePostFull) drand is k with
    | some i => FirstReplaced is slots (fun j => drand (k + j)) i
    | none => NoneReplaced is slots fun j => drand (k + j) := by
  -- over the slots still to be asked
  induction is generalizing k with
  | nil => exact fun j i h => absurd h (by simp)
  | cons loc rest ih =>
    unfold replaced
    by_cases hd : drand k ≤ 1 / (1 + ((slots loc).samplePostFull : ℚ))
    · rw [if_pos hd]
      exact ⟨0, rfl, hd, fun j _ hj => absurd hj (Nat.not_lt_zero j)⟩
    · rw [if_neg hd]
      have hrest := ih (k + 1)
      have hlater : ∀ j i, Replaces slots (fun j => drand (k + 1 + j)) j i ↔
          Replaces slots (fun j => drand (k + j)) (j + 1) i := by
        intro j i
        unfold Replaces
        simp only [Nat.add_assoc, Nat.add_comm 1]
      -- the head of the list is asked at turn `k`, the others one turn later
      cases hres : replaced (fun i => (slots i).samplePostFull) drand rest (k + 1) with
      | some i =>
        rw [hres] at hrest
        obtain ⟨t, hget, hreplaces, hfirst⟩ := hrest
        refine ⟨t + 1, hget, (hlater t i).mp hreplaces, ?_⟩
        rintro (_ | j) i' hj hget'
        · obtain rfl := Option.some.inj hget'
          exact hd
        · exact mt (hlater j i').mpr (hfirst j i' (Nat.lt_of_succ_lt_succ hj) hget')
      | none =>
        rw [hres] at hrest
        rintro (_ | j) i' hget'
        · obtain rfl := Option.some.inj hget'
          exact hd
        · exact mt (hlater j i').mpr (hrest j i' hget')

/-! ### The two cases -/

/-- **With a free slot** the first one is taken, and the active slots count the sample. -/
theorem getVictim_inactive {i : ℕ} (h : FirstInactive maxWP slots i) (lrand : ℕ → ℕ)
    (drand : ℕ → ℚ) :
    let v := getVictim maxWP .auto slots lrand drand
    v.kind = .emptySlot ∧ v.location = some i ∧
      CountedFor slots v.slots fun j => j < maxWP ∧ (slots j).isActive = true := by
  obtain ⟨hi, hinactive, hbefore⟩ := h
  have hfind : (List.range maxWP).find? (fun i => !(slots i).isActive) = some i := by
    refine List.find?_range_eq_some.mpr ⟨?_, List.mem_range.mpr hi, fun j hj => ?_⟩
    · rw [hinactive, Bool.not_false]
    · rw [hbefore j hj]
      rfl
  unfold getVictim
  rw [hfind]
  refine ⟨rfl, rfl, fun j => ?_⟩
  simp only [surviveAll_apply (List.nodup_range.filter _), List.mem_filter, List.mem_range]
  exact ⟨fun hcounted => if_pos hcounted, fun hcounted => if_neg hcounted⟩

/-- **With a full table** every slot counts the sample, and the first one that its draw
replaces is the victim. -/
theorem getVictim_full (hpos : 1 ≤ maxWP) (h : ∀ i < maxWP, (slots i).isActive = true)
    (lrand : ℕ → ℕ) (drand : ℕ → ℚ) :
    let v := getVictim maxWP .auto slots lrand drand
    CountedFor slots v.slots (· < maxWP) ∧ (∃ i < maxWP, v.location = some i) ∧
      Decides (shuffle maxWP lrand) slots drand v := by
  have hfind : (List.range maxWP).find? (fun i => !(slots i).isActive) = none := by
    refine List.find?_eq_none.mpr fun j hj => ?_
    rw [h j (List.mem_range.mp hj)]
    exact Bool.false_ne_true
  have hattempt : attemptReplace drand (shuffle maxWP lrand) 0 slots
      = (replaced (fun i => (slots i).samplePostFull) drand (shuffle maxWP lrand) 0,
        surviveAll slots (shuffle maxWP lrand)) :=
    attemptReplace_eq (nodup_shuffle lrand) drand 0 slots fun _ _ => rfl
  have hspec := replaced_spec slots drand (shuffle maxWP lrand) 0
  simp only [Nat.zero_add] at hspec
  -- the order is a permutation, so every slot survives once
  have hcounted : CountedFor slots (surviveAll slots (shuffle maxWP lrand)) (· < maxWP) := by
    intro j
    have hmem : j ∈ shuffle maxWP lrand ↔ j < maxWP := by
      rw [(shuffle_perm maxWP lrand).mem_iff, List.mem_range]
    rw [surviveAll_apply (nodup_shuffle lrand)]
    exact ⟨fun hj => if_pos (hmem.mpr hj), fun hj => if_neg (mt hmem.mp hj)⟩
  have hlength : (shuffle maxWP lrand).length = maxWP :=
    (shuffle_perm maxWP lrand).length_eq.trans List.length_range
  unfold getVictim
  simp only [hfind, hattempt]
  cases hres : replaced (fun i => (slots i).samplePostFull) drand (shuffle maxWP lrand) 0 with
  | some i =>
    rw [hres] at hspec
    exact ⟨hcounted, ⟨i, lt_of_mem_shuffle (mem_of_replaced hres), rfl⟩,
      Or.inl ⟨rfl, i, rfl, hspec⟩⟩
  | none =>
    rw [hres] at hspec
    -- the location is the slot that was asked first
    have hhead : (shuffle maxWP lrand)[0]? = some (shuffle maxWP lrand)[0] :=
      List.getElem?_eq_getElem (by omega)
    exact ⟨hcounted, ⟨_, lt_of_mem_shuffle (List.getElem_mem (by omega)), hhead⟩,
      Or.inr ⟨rfl, hspec⟩⟩

/-! ### Both -/

/-- What `GetVictim` leaves when a slot is free, and when none is. -/
structure VictimBooks (maxWP : ℕ) (slots : Slots) (lrand : ℕ → ℕ) (drand : ℕ → ℚ)
    (v : Victim) : Prop where
  /-- the first free slot -/
  inactive : (∃ i < maxWP, (slots i).isActive = false) →
    v.kind = .emptySlot ∧ (∃ i, v.location = some i ∧ FirstInactive maxWP slots i) ∧
      CountedFor slots v.slots fun j => j < maxWP ∧ (slots j).isActive = true
  order : (shuffle maxWP lrand).Perm (List.range maxWP)
  /-- the first slot that is replaced -/
  full : (∀ i < maxWP, (slots i).isActive = true) →
    CountedFor slots v.slots (· < maxWP) ∧ (∃ i < maxWP, v.location = some i) ∧
      Decides (shuffle maxWP lrand) slots drand v

/-- **The books of `GetVictim`**, for every table and all draws. -/
theorem getVictim_books (hpos : 1 ≤ maxWP) (slots : Slots) (lrand : ℕ → ℕ) (drand : ℕ → ℚ) :
    VictimBooks maxWP slots lrand drand (getVictim maxWP .auto slots lrand drand) where
  inactive := by
    rintro ⟨i, hi⟩
    -- the free slots have a first one
    have hsome : ∃ i, i < maxWP ∧ (slots i).isActive = false := ⟨i, hi⟩
    have hfirst : FirstInactive maxWP slots (Nat.find hsome) := by
      obtain ⟨hlt, hinactive⟩ := Nat.find_spec hsome
      refine ⟨hlt, hinactive, fun j hj => ?_⟩
      have hno := Nat.find_min hsome hj
      exact Bool.eq_true_of_not_eq_false fun hj' => hno ⟨hj.trans hlt, hj'⟩
    obtain ⟨hkind, hloc, hcounted⟩ := getVictim_inactive hfirst lrand drand
    exact ⟨hkind, ⟨_, hloc, hfirst⟩, hcounted⟩
  order := shuffle_perm maxWP lrand
  full := fun h => getVictim_full hpos h lrand drand

/-- Two slots that have survived one sample. -/
def twoActive : Slots := fun i =>
  { va := 0x1000
    wpLength := 8
    startTime := 0
    fileHandle := i
    threadId := 1
    isActive := true
    sampledEvent := none
    samplePostFull := samplesPostFullResetVal }

/-- The first turn draws a half, which is just enough. -/
theorem getVictim_books_twoActive :
    VictimBooks 2 twoActive (fun _ => 1) (fun _ => 1 / 2)
        (getVictim 2 .auto twoActive (fun _ => 1) fun _ => 1 / 2) ∧
      (getVictim 2 .auto twoActive (fun _ => 1) fun _ => 1 / 2).kind = .nonEmptySlot :=
  ⟨getVictim_books (by decide) twoActive _ _, by decide +kernel⟩

end Kognizance
