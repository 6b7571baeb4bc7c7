import Mathlib.Data.List.GetD
import Mathlib.Data.Rat.Defs
import Mathlib.Algebra.Field.Rat
import Kognizance.Watchpoint.Slot

/-!
# Choosing a victim

`GetVictim` looks for an inactive slot, and asks the replacement policy when there
is none. The random numbers come from two streams, `lrand48_r` and `drand48_r`;
the probabilities are exact rationals.

* `getVictim_slots`: nothing but the survival counters changes.
* `getVictim_lt`: the victim is a slot of the table.
-/

namespace Kognizance

/-- The slot table of a thread. -/
abbrev Slots := ℕ → WPRegisterInfo

/-- `WP_Victim_t`. -/
inductive WPVictim
  | emptySlot
  | nonEmptySlot
  | noneAvailable
  deriving DecidableEq, Repr

/-- What `GetVictim` leaves: its value, `*location` (`none` for the `-1` it starts
from) and the table with its counters. -/
structure Victim where
  kind : WPVictim
  location : Option ℕ
  slots : Slots

/-- One more sample survived by a slot. -/
def WPRegisterInfo.survive (wpi : WPRegisterInfo) : WPRegisterInfo :=
  { wpi with samplePostFull := wpi.samplePostFull + 1 }

/-- Count a sample for each slot of a list. -/
def surviveAll (slots : Slots) (is : List ℕ) : Slots :=
  is.foldl (fun s i => Function.update s i (s i).survive) slots

/-- The shuffle of the visiting order: step `i` swaps entry `i` with a drawn one. -/
def shuffle (maxWP : ℕ) (lrand : ℕ → ℕ) : List ℕ :=
  (List.range maxWP).foldl
    (fun slots i =>
      let r := lrand i % maxWP
      (slots.set i (slots.getD r 0)).set r (slots.getD i 0))
    (List.range maxWP)

/-- The attempts to replace, in visiting order; `k` counts the draws made. -/
def attemptReplace (drand : ℕ → ℚ) : List ℕ → ℕ → Slots → Option ℕ × Slots
  | [], _, slots => (none, slots)
  | loc :: rest, k, slots =>
    let probabilityToReplace : ℚ := 1 / (1 + (slots loc).samplePostFull)
    -- a slot survives the sample whether or not it is replaced
    let slots := Function.update slots loc (slots loc).survive
    -- the slots after the one that is replaced survive it, too
    if drand k ≤ probabilityToReplace then (some loc, surviveAll slots rest)
    else attemptReplace drand rest (k + 1) slots

/-- The scan of `WP_REPLACEMENT_NEWEST`. -/
def newestSlot (slots : Slots) : List ℕ → Option ℕ → ℤ → Option ℕ
  | [], location, _ => location
  | i :: is, location, newestTime =>
    if newestTime < (slots i).startTime then newestSlot slots is (some i) (slots i).startTime
    else newestSlot slots is location newestTime

/-- The scan of `WP_REPLACEMENT_OLDEST`. -/
def oldestSlot (slots : Slots) : List ℕ → Option ℕ → ℤ → Option ℕ
  | [], location, _ => location
  | i :: is, location, oldestTime =>
    if oldestTime > (slots i).startTime then oldestSlot slots is (some i) (slots i).startTime
    else oldestSlot slots is location oldestTime

/-- `INT64_MAX`. -/
def int64Max : ℤ := 2 ^ 63 - 1

/-- `GetVictim`. -/
def getVictim (maxWP : ℕ) (policy : WPReplacementPolicy) (slots : Slots) (lrand : ℕ → ℕ)
    (drand : ℕ → ℚ) : Victim :=
  match (List.range maxWP).find? fun i => !(slots i).isActive with
  -- an inactive slot is taken without a draw
  | some i =>
    { kind := .emptySlot
      location := some i
      slots := surviveAll slots ((List.range maxWP).filter fun rest => (slots rest).isActive) }
  | none =>
    match policy with
    | .auto =>
      let order := shuffle maxWP lrand
      match attemptReplace drand order 0 slots with
      | (some loc, slots) => { kind := .nonEmptySlot, location := some loc, slots := slots }
      -- no slot is given up, but `*location` has been set to the first of the order
      | (none, slots) => { kind := .noneAvailable, location := order[0]?, slots := slots }
    | .newest =>
      { kind := .nonEmptySlot
        location := newestSlot slots (List.range maxWP) none 0
        slots := slots }
    | .oldest =>
      { kind := .nonEmptySlot
        location := oldestSlot slots (List.range maxWP) none int64Max
        slots := slots }
    | .emptySlot => { kind := .noneAvailable, location := none, slots := slots }

/-- Two slots that differ in their survival counters at most. -/
def WPRegisterInfo.Alike (a b : WPRegisterInfo) : Prop :=
  b = { a with samplePostFull := b.samplePostFull }

namespace WPRegisterInfo.Alike

theorem refl (a : WPRegisterInfo) : a.Alike a := rfl

theorem survive (a : WPRegisterInfo) : a.Alike a.survive := rfl

theorem trans {a b c : WPRegisterInfo} (hab : a.Alike b) (hbc : b.Alike c) : a.Alike c := by
  unfold Alike at *
  rw [hbc, hab]

theorem isActive_eq {a b : WPRegisterInfo} (h : a.Alike b) : b.isActive = a.isActive := by
  rw [h]

end WPRegisterInfo.Alike

theorem surviveAll_alike (is : List ℕ) (slots : Slots) (i : ℕ) :
    (slots i).Alike (surviveAll slots is i) := by
  induction is generalizing slots with
  | nil => exact .refl _
  | cons j is ih =>
    refine .trans ?_ (ih (Function.update slots j (slots j).survive))
    -- step `j` touches slot `j`
    by_cases hij : i = j
    · subst hij
      rw [Function.update_self]
      exact .survive _
    · rw [Function.update_of_ne hij]
      exact .refl _

theorem attemptReplace_alike (drand : ℕ → ℚ) (is : List ℕ) (k : ℕ) (slots : Slots) (i : ℕ) :
    (slots i).Alike ((attemptReplace drand is k slots).2 i) := by
  induction is generalizing k slots with
  | nil => exact .refl _
  | cons j is ih =>
    have hj : (slots i).Alike (Function.update slots j (slots j).survive i) :=
      surviveAll_alike [j] slots i
    by_cases hd : drand k ≤ 1 / (1 + ((slots j).samplePostFull : ℚ))
    · simp only [attemptReplace, if_pos hd]
      exact hj.trans (surviveAll_alike is _ i)
    · simp only [attemptReplace, if_neg hd]
      exact hj.trans (ih (k + 1) _)

/-- **`GetVictim` touches survival counters only.** -/
theorem getVictim_slots (maxWP : ℕ) (policy : WPReplacementPolicy) (slots : Slots)
    (lrand : ℕ → ℕ) (drand : ℕ → ℚ) (i : ℕ) :
    (slots i).Alike ((getVictim maxWP policy slots lrand drand).slots i) := by
  unfold getVictim
  -- an inactive slot, or the policy's choice
  split
  · exact surviveAll_alike _ slots i
  · cases policy with
    | auto =>
      have h := attemptReplace_alike drand (shuffle maxWP lrand) 0 slots i
      rcases hr : attemptReplace drand (shuffle maxWP lrand) 0 slots with ⟨_ | loc, slots'⟩ <;>
        simpa only [hr] using h
    | emptySlot => exact .refl _
    | oldest => exact .refl _
    | newest => exact .refl _

/-! ### The victim is a slot of the table -/

/-- The shuffle loses no slot and repeats none. -/
theorem shuffle_perm (maxWP : ℕ) (lrand : ℕ → ℕ) :
    (shuffle maxWP lrand).Perm (List.range maxWP) := by
  -- each step swaps two entries
  have hswap : ∀ (js order : List ℕ), order.length = maxWP → (∀ j ∈ js, j < maxWP) →
      (js.foldl (fun slots i => (slots.set i (slots.getD (lrand i % maxWP) 0)).set
        (lrand i % maxWP) (slots.getD i 0)) order).Perm order := by
    intro js
    induction js with
    | nil => exact fun order _ _ => .refl order
    | cons j js ih =>
      intro order hlen hjs
      have hj : j < order.length := by
        rw [hlen]
        exact hjs j List.mem_cons_self
      have hr : lrand j % maxWP < order.length := by
        rw [hlen] at hj ⊢
        exact Nat.mod_lt _ (Nat.zero_lt_of_lt hj)
      have hstep : ((order.set j (order.getD (lrand j % maxWP) 0)).set (lrand j % maxWP)
          (order.getD j 0)).Perm order := by
        rw [List.getD_eq_getElem _ _ hj, List.getD_eq_getElem _ _ hr]
        exact List.set_set_perm hj hr
      exact (ih _ (hstep.length_eq.trans hlen)
        fun k hk => hjs k (List.mem_cons_of_mem j hk)).trans hstep
  exact hswap _ _ List.length_range fun j hj => List.mem_range.mp hj

theorem lt_of_mem_shuffle {maxWP : ℕ} {lrand : ℕ → ℕ} {i : ℕ} (h : i ∈ shuffle maxWP lrand) :
    i < maxWP :=
  List.mem_range.mp ((shuffle_perm maxWP lrand).mem_iff.mp h)

theorem attemptReplace_mem {drand : ℕ → ℚ} {is : List ℕ} {k : ℕ} {slots : Slots} {i : ℕ}
    (h : (attemptReplace drand is k slots).1 = some i) : i ∈ is := by
  induction is generalizing k slots with
  | nil => cases h
  | cons j is ih =>
    by_cases hd : drand k ≤ 1 / (1 + ((slots j).samplePostFull : ℚ))
    · simp only [attemptReplace, if_pos hd] at h
      exact Option.some.inj h ▸ List.mem_cons_self
    · simp only [attemptReplace, if_neg hd] at h
      exact List.mem_cons_of_mem j (ih h)

theorem newestSlot_mem {slots : Slots} {is : List ℕ} {o : Option ℕ} {t : ℤ} {i : ℕ}
    (h : newestSlot slots is o t = some i) : i ∈ is ∨ o = some i := by
  induction is generalizing o t with
  | nil => exact Or.inr h
  | cons j is ih =>
    unfold newestSlot at h
    split at h
    · rcases ih h with h | h
      · exact Or.inl (List.mem_cons_of_mem j h)
      · exact Or.inl (Option.some.inj h ▸ List.mem_cons_self)
    · exact (ih h).imp_left (List.mem_cons_of_mem j)

theorem oldestSlot_mem {slots : Slots} {is : List ℕ} {o : Option ℕ} {t : ℤ} {i : ℕ}
    (h : oldestSlot slots is o t = some i) : i ∈ is ∨ o = some i := by
  induction is generalizing o t with
  | nil => exact Or.inr h
  | cons j is ih =>
    unfold oldestSlot at h
    split at h
    · rcases ih h with h | h
      · exact Or.inl (List.mem_cons_of_mem j h)
      · exact Or.inl (Option.some.inj h ▸ List.mem_cons_self)
    · exact (ih h).imp_left (List.mem_cons_of_mem j)

/-- **The victim lies in the table**, whatever the policy and the draws. -/
theorem getVictim_lt {maxWP : ℕ} {policy : WPReplacementPolicy} {slots : Slots}
    {lrand : ℕ → ℕ} {drand : ℕ → ℚ} {i : ℕ}
    (h : (getVictim maxWP policy slots lrand drand).location = some i) : i < maxWP := by
  unfold getVictim at h
  -- an inactive slot, or the policy's choice
  split at h
  · next j hj =>
    obtain rfl := Option.some.inj h
    exact List.mem_range.mp (List.mem_of_find?_eq_some hj)
  · cases policy with
    | auto =>
      rcases hr : attemptReplace drand (shuffle maxWP lrand) 0 slots with ⟨_ | loc, slots'⟩
      · simp only [hr] at h
        exact lt_of_mem_shuffle (List.mem_of_getElem? h)
      · simp only [hr] at h
        have hmem : loc ∈ shuffle maxWP lrand := attemptReplace_mem (by rw [hr])
        exact Option.some.inj h ▸ lt_of_mem_shuffle hmem
    | emptySlot => cases h
    | oldest =>
      rcases oldestSlot_mem h with h | h
      · exact List.mem_range.mp h
      · cases h
    | newest =>
      rcases newestSlot_mem h with h | h
      · exact List.mem_range.mp h
      · cases h

end Kognizance
