import Kognizance.Platform.MaxDevices
import Kognizance.Watchpoint.Steps

/-!
# The indices of the slot table

The arrays of the library have `MAX_WP_SLOTS` entries, but every loop over them runs to
`wpConfig.maxWP`, which `WP_Init` asks the platform for: `getMaxDevices` registers
breakpoints until one fails, and stops at its own limit, `MAX_POSSIBLE_DEVICES`.

`callUses` are the indices one call uses, in the order of the source. A loop that the
process does not survive ends where the process does.

* `Within`: the indices of a list are below a bound; one lemma for each loop.
* `callUses_within`: no call reaches past `wpConfig.maxWP`.
* `slot_indices_iff`: they stay in the arrays iff at most `MAX_WP_SLOTS` breakpoints can
  be registered, or no thread gets a table.
-/

namespace Kognizance

open Process

/-! ### `WP_Init` -/

/-- `MAX_WP_SLOTS` -/
def maxWPSlots : ℕ := 5

/-- What is answered while `WP_Init` runs. -/
structure WPInitAnswers where
  keyCreateOk : Bool
  isAgentKVM : Bool
  /-- `FAST_BP_IOC_FLAG` is defined. -/
  fastBpIocFlag : Bool
  /-- what `getMaxDevices` is answered -/
  probe : ProbeAnswers

/-- `WP_Init`: its value, `wpConfig`, which is static and all zeros before, and the
platform. -/
def wpInit (ans : WPInitAnswers) (p : Platform) : Except Halt (ℤ × WPConfig × Platform) :=
  if !ans.keyCreateOk then .ok (-1, ⟨false, .auto, 0⟩, p)
  else
    -- `BPDEVICE`
    match p.getMaxDevices 3 ans.probe with
    | .error h => .error h
    | .ok (maxWP, p) => .ok (0, ⟨ans.isAgentKVM || ans.fastBpIocFlag, .auto, maxWP⟩, p)

theorem wpInit_policy {ans : WPInitAnswers} {p p' : Platform} {ret : ℤ} {cfg : WPConfig}
    (h : wpInit ans p = .ok (ret, cfg, p')) : cfg.replacementPolicy = .auto := by
  unfold wpInit at h
  cases hkey : ans.keyCreateOk with
  | false =>
    rw [hkey] at h
    obtain ⟨-, rfl, -⟩ := h
    rfl
  | true =>
    rw [hkey] at h
    cases hmax : p.getMaxDevices 3 ans.probe with
    | error e =>
      rw [hmax] at h
      cases h
    | ok r =>
      rw [hmax] at h
      obtain ⟨-, rfl, -⟩ := h
      rfl

/-! ### `GetPatchedIP` -/

/-- `GetPatchedIP`; the agent's `get_previous_instruction` is given the addresses of the
active slots, in an array that is filled up with zeros, and their number. -/
def getPatchedIP {L : Type} (T : Tool L) (w : World L) (gettid : ℕ) (contextIP : UInt64)
    (getPreviousInstruction : UInt64 → List UInt64 → ℕ → UInt64) :
    Outcome (World L) UInt64 :=
  let excludeArray (excludes : List UInt64) : List UInt64 :=
    (excludes ++ List.replicate maxWPSlots 0).take maxWPSlots
  match w.tData gettid with
  | none =>
    if T.cfg.maxWP = 0 then .running (getPreviousInstruction contextIP (excludeArray []) 0) w
    else .ended .segv w
  | some td =>
    let excludes := ((List.range T.cfg.maxWP).filter fun idx =>
      (td.watchPointArray idx).isActive).map fun idx => (td.watchPointArray idx).va
    .running (getPreviousInstruction contextIP (excludeArray excludes) excludes.length) w

/-- A call of the library; `fixIP` asks for a patched address at any time. -/
inductive LibraryCall
  | op (op : Op)
  | getPatchedIP (tid : ℕ) (contextIP : UInt64)
    (getPreviousInstruction : UInt64 → List UInt64 → ℕ → UInt64)

/-- One step of a run. -/
def libraryStep {L : Type} (T : Tool L) (w : World L) : LibraryCall → Outcome (World L) Unit
  | .op op =>
    match step T w op with
    | .running _ w => .running () w
    | .ended h w => .ended h w
  | .getPatchedIP tid contextIP getPreviousInstruction =>
    match getPatchedIP T w tid contextIP getPreviousInstruction with
    | .running _ w => .running () w
    | .ended h w => .ended h w

/-! ### The indices a call uses -/

/-- An index into `watchPointArray`, into the `slots` of `GetVictim` or into the
`excludeList` of `GetPatchedIP`. All three arrays have `MAX_WP_SLOTS` entries. -/
inductive IndexUse
  | watchPointArray (i : ℤ)
  | slots (i : ℤ)
  | excludeList (i : ℤ)
  deriving DecidableEq, Repr

def IndexUse.index : IndexUse → ℤ
  | watchPointArray i => i
  | slots i => i
  | excludeList i => i

/-- A loop over the table that stops at a slot. -/
def scanUses (stops : ℕ → Bool) : List ℕ → List IndexUse
  | [] => []
  | i :: is => .watchPointArray i :: if stops i then [] else scanUses stops is

/-- A loop over the table that does not stop. -/
def tableUses (maxWP : ℕ) : List IndexUse :=
  (List.range maxWP).map fun i : ℕ => .watchPointArray i

/-- `WP_ThreadInit` -/
def initUses (maxWP : ℕ) (ans : InitAnswers) : List IndexUse :=
  if ans.mallocOk && ans.setspecificOk then tableUses maxWP else []

/-- The two loops that set up the visiting order. -/
def shuffleUses (maxWP : ℕ) (lrand : ℕ → ℕ) : List IndexUse :=
  (List.range maxWP).map (fun i : ℕ => .slots i) ++
    (List.range maxWP).flatMap fun i : ℕ => [.slots i, .slots (lrand i % maxWP : ℕ)]

/-- The loop over the slots behind the one that is replaced, from round `k` on. -/
def restUses : List ℕ → ℕ → List IndexUse
  | [], _ => []
  | loc :: rest, k => .slots k :: .watchPointArray loc :: restUses rest (k + 1)

/-- The attempts to replace, from round `k` on. -/
def attemptUses (drand : ℕ → ℚ) : List ℕ → ℕ → Slots → List IndexUse
  | [], _, _ => []
  | loc :: rest, k, slots =>
    let probabilityToReplace : ℚ := 1 / (1 + (slots loc).samplePostFull)
    .slots k :: .watchPointArray loc ::
      if drand k ≤ probabilityToReplace then restUses rest (k + 1)
      else attemptUses drand rest (k + 1) (Function.update slots loc (slots loc).survive)

/-- `GetVictim` -/
def victimUses (maxWP : ℕ) (policy : WPReplacementPolicy) (slots : Slots) (lrand : ℕ → ℕ)
    (drand : ℕ → ℚ) : List IndexUse :=
  scanUses (fun i => !(slots i).isActive) (List.range maxWP) ++
    match (List.range maxWP).find? fun i => !(slots i).isActive with
    | some _ => tableUses maxWP
    | none =>
      match policy with
      | .auto =>
        let order := shuffle maxWP lrand
        shuffleUses maxWP lrand ++ attemptUses drand order 0 slots ++
          -- `*location = slots[0]`
          if (attemptReplace drand order 0 slots).1.isNone then [.slots 0] else []
      | .newest => tableUses maxWP
      | .oldest => tableUses maxWP
      | .emptySlot => []

/-- The loops of `WP_DISABLE_ALL`. -/
def disableAllUses (cfg : WPConfig) (gettid : ℕ) (ans : ℕ → RemoveAnswers) :
    List ℕ → Slots → Platform → List IndexUse
  | [], _, _ => []
  | i :: is, slots, p =>
    .watchPointArray i ::
      match disableSlot cfg gettid (slots i) p (ans i) with
      | .error _ => []
      | .ok (wpi, p) => disableAllUses cfg gettid ans is (Function.update slots i wpi) p

/-- The loop of `WP_ThreadTerminate`. -/
def disArmUses (gettid : ℕ) (ans : ℕ → RemoveAnswers) :
    List ℕ → Slots → Platform → List IndexUse
  | [], _, _ => []
  | i :: is, slots, p =>
    .watchPointArray i ::
      if (slots i).fileHandle ≠ -1 then
        match disArm gettid (slots i) p (ans i) with
        | .error _ => []
        | .ok (wpi, p) => disArmUses gettid ans is (Function.update slots i wpi) p
      else disArmUses gettid ans is slots p

/-- The loop of `GetPatchedIP`. -/
def patchedUses (slots : Slots) : List ℕ → ℕ → List IndexUse
  | [], _ => []
  | idx :: is, numExcludes =>
    .watchPointArray idx ::
      if (slots idx).isActive then
        .excludeList numExcludes :: patchedUses slots is (numExcludes + 1)
      else patchedUses slots is numExcludes

/-- A loop over the table of a thread that has none: the first access ends the process. -/
def nullUses (maxWP : ℕ) : List IndexUse := if maxWP = 0 then [] else [.watchPointArray 0]

section Uses

variable {L : Type} (T : Tool L) (w : World L)

/-- `WP_Subscribe` -/
def subscribeUses (tid : ℕ) (r : Request) (ans : SubscribeAnswers) : List IndexUse :=
  if r.watchType ≠ .inst ∧ validateWPData r.va r.watchLength = false then []
  else
    match w.tData tid with
    -- `IsOveralpped` tests the pointer in its loop
    | none => []
    | some td =>
      scanUses (fun i => (td.watchPointArray i).isActive && addressesOverlap
        (td.watchPointArray i).va (td.watchPointArray i).wpLength r.va r.watchLength)
        (List.range T.cfg.maxWP) ++
      if isOveralpped T.cfg.maxWP (some td) r.va r.watchLength then []
      else
        let v := getVictim T.cfg.maxWP T.cfg.replacementPolicy td.watchPointArray ans.lrand
          ans.drand
        victimUses T.cfg.maxWP T.cfg.replacementPolicy td.watchPointArray ans.lrand ans.drand ++
          if v.kind = .noneAvailable then []
          else [.watchPointArray (match v.location with
            | none => -1
            | some i => i)]

/-- `OnWatchPoint` -/
def onWatchPointUses (tid : ℕ) (fd : ℤ) (event : Event) (ans : TriggerAnswers) :
    List IndexUse :=
  match w.tData tid with
  | none => []
  | some td =>
    let slots := td.watchPointArray
    -- the sanity check, and the message about slot 0
    scanUses (fun i => fd = (slots i).fileHandle) (List.range T.cfg.maxWP) ++
      .watchPointArray 0 ::
      if (slots 0).sampledEvent.isNone then []
      else
        scanUses (fun i => (slots i).isActive && fd = (slots i).fileHandle &&
            match (slots i).sampledEvent with
            | none => true
            | some e => T.addrOf e = T.addrOf event) (List.range T.cfg.maxWP) ++
          match (findFired T tid slots fd event (List.range T.cfg.maxWP) []).2 with
          | .error _ => []
          | .ok (some (location, sample)) =>
            .watchPointArray location ::
              if (decideAction T w.logic (slots location) sample event ans.fixIP).1 = .disableAll
              then disableAllUses T.cfg tid ans.remove (List.range T.cfg.maxWP) slots w.platform
              else []
          | .ok none =>
            if w.oldBadAddress ≠ T.addrOf event then
              scanUses (fun i => (slots i).sampledEvent.isNone) (List.range T.cfg.maxWP)
            else []

/-- `WP_ThreadTerminate` -/
def threadTerminateUses (tid : ℕ) (ans : ℕ → RemoveAnswers) : List IndexUse :=
  match w.tData tid with
  | none => nullUses T.cfg.maxWP
  | some td => disArmUses tid ans (List.range T.cfg.maxWP) td.watchPointArray w.platform

/-- `GetPatchedIP` -/
def getPatchedIPUses (tid : ℕ) : List IndexUse :=
  match w.tData tid with
  | none => nullUses T.cfg.maxWP
  | some td => patchedUses td.watchPointArray (List.range T.cfg.maxWP) 0

/-- The indices a call uses. -/
def callUses : LibraryCall → List IndexUse
  | .op (.threadInit _ ans) => initUses T.cfg.maxWP ans
  | .op (.subscribe tid r ans) => subscribeUses T w tid r ans
  | .op (.onWatchPoint tid fd event ans) => onWatchPointUses T w tid fd event ans
  | .op (.threadTerminate tid ans) => threadTerminateUses T w tid ans
  | .op .pause => []
  | .op .resume => []
  | .op (.devices _) => []
  | .getPatchedIP tid _ _ => getPatchedIPUses T w tid

end Uses

/-! ### No call reaches past `maxWP` -/

/-- The indices are below `n`. -/
def Within (n : ℕ) (uses : List IndexUse) : Prop := ∀ u ∈ uses, 0 ≤ u.index ∧ u.index < n

section Within

variable {n : ℕ} {us vs : List IndexUse}

theorem within_nil : Within n [] := fun _ hu => absurd hu List.not_mem_nil

theorem Within.cons {u : IndexUse} (hu : 0 ≤ u.index ∧ u.index < n) (h : Within n us) :
    Within n (u :: us) :=
  List.forall_mem_cons.mpr ⟨hu, h⟩

theorem Within.append (hu : Within n us) (hv : Within n vs) : Within n (us ++ vs) :=
  List.forall_mem_append.mpr ⟨hu, hv⟩

theorem Within.ite {c : Prop} [Decidable c] (hu : Within n us) (hv : Within n vs) :
    Within n (if c then us else vs) := by
  split_ifs
  · exact hu
  · exact hv

theorem Within.mono {m : ℕ} (h : Within n us) (hnm : n ≤ m) : Within m us :=
  fun u hu => ⟨(h u hu).1, (h u hu).2.trans_le (Int.ofNat_le.mpr hnm)⟩

/-- A natural number as an index. -/
theorem lt_index {i : ℕ} (hi : i < n) : (0 : ℤ) ≤ (i : ℤ) ∧ (i : ℤ) < n :=
  ⟨Int.natCast_nonneg i, Int.ofNat_lt.mpr hi⟩

theorem range_lt : ∀ i ∈ List.range n, i < n := fun _ hi => List.mem_range.mp hi

theorem within_scanUses (stops : ℕ → Bool) {is : List ℕ} (h : ∀ i ∈ is, i < n) :
    Within n (scanUses stops is) := by
  -- the scan may stop behind any index, but reads none twice
  induction is with
  | nil => exact within_nil
  | cons i is ih =>
    obtain ⟨hi, his⟩ := List.forall_mem_cons.mp h
    exact .cons (lt_index hi) (within_nil.ite (ih his))

theorem within_tableUses : Within n (tableUses n) := by
  intro u hu
  obtain ⟨i, hi, rfl⟩ := List.mem_map.mp hu
  exact lt_index (range_lt i hi)

theorem within_initUses (ans : InitAnswers) : Within n (initUses n ans) :=
  within_tableUses.ite within_nil

theorem within_nullUses : Within n (nullUses n) := by
  unfold nullUses
  split_ifs with hn
  · exact within_nil
  · exact .cons (lt_index (Nat.pos_of_ne_zero hn)) within_nil

theorem within_shuffleUses (lrand : ℕ → ℕ) : Within n (shuffleUses n lrand) := by
  refine .append ?_ ?_
  · -- the order is filled with the slots first
    intro u hu
    obtain ⟨i, hi, rfl⟩ := List.mem_map.mp hu
    exact lt_index (range_lt i hi)
  · intro u hu
    obtain ⟨i, hi, hu⟩ := List.mem_flatMap.mp hu
    -- a round is only made if there is a slot to draw
    have hpos : 0 < n := Nat.zero_lt_of_lt (range_lt i hi)
    have hround : Within n [.slots i, .slots (lrand i % n : ℕ)] :=
      .cons (lt_index (range_lt i hi)) (.cons (lt_index (Nat.mod_lt _ hpos)) within_nil)
    exact hround u hu

theorem within_restUses {is : List ℕ} {k : ℕ} (h : ∀ i ∈ is, i < n) (hk : k + is.length ≤ n) :
    Within n (restUses is k) := by
  induction is generalizing k with
  | nil => exact within_nil
  | cons i is ih =>
    obtain ⟨hi, his⟩ := List.forall_mem_cons.mp h
    rw [List.length_cons] at hk
    exact .cons (lt_index (by omega)) (.cons (lt_index hi) (ih his (by omega)))

theorem within_attemptUses (drand : ℕ → ℚ) {is : List ℕ} {k : ℕ} (slots : Slots)
    (h : ∀ i ∈ is, i < n) (hk : k + is.length ≤ n) : Within n (attemptUses drand is k slots) := by
  -- `k` entries of the order have been read, and the rest of it is still to come
  induction is generalizing k slots with
  | nil => exact within_nil
  | cons i is ih =>
    obtain ⟨hi, his⟩ := List.forall_mem_cons.mp h
    rw [List.length_cons] at hk
    have hrest : k + 1 + is.length ≤ n := by omega
    exact .cons (lt_index (by omega)) (.cons (lt_index hi)
      ((within_restUses his hrest).ite (ih _ his hrest)))

theorem within_disableAllUses (cfg : WPConfig) (gettid : ℕ) (ans : ℕ → RemoveAnswers)
    {is : List ℕ} (slots : Slots) (p : Platform) (h : ∀ i ∈ is, i < n) :
    Within n (disableAllUses cfg gettid ans is slots p) := by
  induction is generalizing slots p with
  | nil => exact within_nil
  | cons i is ih =>
    obtain ⟨hi, his⟩ := List.forall_mem_cons.mp h
    refine .cons (lt_index hi) ?_
    -- a slot that cannot be disabled ends the process, and with it the loop
    cases disableSlot cfg gettid (slots i) p (ans i) with
    | error e => exact within_nil
    | ok r => exact ih _ _ his

theorem within_disArmUses (gettid : ℕ) (ans : ℕ → RemoveAnswers) {is : List ℕ} (slots : Slots)
    (p : Platform) (h : ∀ i ∈ is, i < n) : Within n (disArmUses gettid ans is slots p) := by
  induction is generalizing slots p with
  | nil => exact within_nil
  | cons i is ih =>
    obtain ⟨hi, his⟩ := List.forall_mem_cons.mp h
    refine .cons (lt_index hi) (Within.ite ?_ (ih _ _ his))
    cases disArm gettid (slots i) p (ans i) with
    | error e => exact within_nil
    | ok r => exact ih _ _ his

/-- The list of excludes is no longer than the part of the table that has been read. -/
theorem within_patchedUses (slots : Slots) {is : List ℕ} {k : ℕ} (h : ∀ i ∈ is, i < n)
    (hk : k + is.length ≤ n) : Within n (patchedUses slots is k) := by
  induction is generalizing k with
  | nil => exact within_nil
  | cons i is ih =>
    obtain ⟨hi, his⟩ := List.forall_mem_cons.mp h
    rw [List.length_cons] at hk
    refine .cons (lt_index hi) (Within.ite ?_ (ih his (by omega)))
    exact .cons (lt_index (by omega)) (ih his (by omega))

theorem within_victimUses (policy : WPReplacementPolicy) (slots : Slots) (lrand : ℕ → ℕ)
    (drand : ℕ → ℚ) : Within (max 1 n) (victimUses n policy slots lrand drand) := by
  have hn : n ≤ max 1 n := le_max_right 1 n
  have htable : Within (max 1 n) (tableUses n) := within_tableUses.mono hn
  refine ((within_scanUses _ range_lt).mono hn).append ?_
  -- an inactive slot, or the policy's choice
  cases (List.range n).find? fun i => !(slots i).isActive with
  | some i => exact htable
  | none =>
    cases policy with
    | auto =>
      have hlt : ∀ i ∈ shuffle n lrand, i < n := fun _ hi => lt_of_mem_shuffle hi
      have hlength : 0 + (shuffle n lrand).length ≤ n := by
        rw [(shuffle_perm n lrand).length_eq, List.length_range, zero_add]
      refine Within.append (Within.append ?_ ?_) (Within.ite ?_ within_nil)
      · exact (within_shuffleUses lrand).mono hn
      · exact (within_attemptUses drand slots hlt hlength).mono hn
      · exact .cons (lt_index (Nat.lt_of_lt_of_le Nat.one_pos (le_max_left 1 n))) within_nil
    | newest => exact htable
    | oldest => exact htable
    | emptySlot => exact within_nil

/-- With the policy of `WP_Init`, a victim that is to be armed is a slot. -/
theorem getVictim_auto_location {slots : Slots} {lrand : ℕ → ℕ} {drand : ℕ → ℚ}
    (h : (getVictim n .auto slots lrand drand).kind ≠ .noneAvailable) :
    ∃ i, (getVictim n .auto slots lrand drand).location = some i := by
  unfold getVictim at h ⊢
  cases hfind : (List.range n).find? fun i => !(slots i).isActive with
  | some i => exact ⟨i, rfl⟩
  | none =>
    simp only [hfind] at h ⊢
    -- the location left by failed attempts comes with a victim that is not armed
    rcases hr : attemptReplace drand (shuffle n lrand) 0 slots with ⟨_ | loc, slots'⟩
    · rw [hr] at h
      exact absurd rfl h
    · exact ⟨loc, rfl⟩

end Within

section Calls

variable {L : Type} {T : Tool L} {w : World L}

theorem within_subscribeUses (hpolicy : T.cfg.replacementPolicy = .auto) (tid : ℕ) (r : Request)
    (ans : SubscribeAnswers) : Within (max 1 T.cfg.maxWP) (subscribeUses T w tid r ans) := by
  have hn : T.cfg.maxWP ≤ max 1 T.cfg.maxWP := le_max_right 1 T.cfg.maxWP
  unfold subscribeUses
  refine Within.ite within_nil ?_
  cases w.tData tid with
  | none => exact within_nil
  | some td =>
    refine ((within_scanUses _ range_lt).mono hn).append (Within.ite within_nil ?_)
    refine Within.append (within_victimUses _ _ _ _) ?_
    -- the victim that is armed
    split_ifs with hkind
    · exact within_nil
    · rw [hpolicy] at hkind ⊢
      obtain ⟨i, hloc⟩ := getVictim_auto_location hkind
      rw [hloc]
      exact .cons (lt_index ((getVictim_lt hloc).trans_le hn)) within_nil

theorem within_onWatchPointUses (tid : ℕ) (fd : ℤ) (event : Event) (ans : TriggerAnswers) :
    Within (max 1 T.cfg.maxWP) (onWatchPointUses T w tid fd event ans) := by
  have hn : T.cfg.maxWP ≤ max 1 T.cfg.maxWP := le_max_right 1 T.cfg.maxWP
  have hscan : ∀ stops, Within (max 1 T.cfg.maxWP) (scanUses stops (List.range T.cfg.maxWP)) :=
    fun stops => (within_scanUses stops range_lt).mono hn
  unfold onWatchPointUses
  cases w.tData tid with
  | none => exact within_nil
  | some td =>
    refine (hscan _).append (Within.cons ?_ (Within.ite within_nil ((hscan _).append ?_)))
    · exact lt_index (Nat.lt_of_lt_of_le Nat.one_pos (le_max_left 1 T.cfg.maxWP))
    · rcases hfind : findFired T tid td.watchPointArray fd event (List.range T.cfg.maxWP) [] with
        ⟨seen, _ | _ | ⟨location, sample⟩⟩
      · exact within_nil
      · exact (hscan _).ite within_nil
      · -- the slot found is one of those searched
        have hloc : location < T.cfg.maxWP :=
          range_lt location ((findFired_spec hfind).1 location sample rfl).1
        refine Within.cons (lt_index (hloc.trans_le hn)) (Within.ite ?_ within_nil)
        exact (within_disableAllUses _ _ _ _ _ range_lt).mono hn

theorem within_threadTerminateUses (tid : ℕ) (ans : ℕ → RemoveAnswers) :
    Within T.cfg.maxWP (threadTerminateUses T w tid ans) := by
  unfold threadTerminateUses
  cases w.tData tid with
  | none => exact within_nullUses
  | some td => exact within_disArmUses _ _ _ _ range_lt

theorem within_getPatchedIPUses (tid : ℕ) : Within T.cfg.maxWP (getPatchedIPUses T w tid) := by
  unfold getPatchedIPUses
  cases w.tData tid with
  | none => exact within_nullUses
  | some td =>
    have hlength : 0 + (List.range T.cfg.maxWP).length ≤ T.cfg.maxWP := by
      rw [List.length_range, zero_add]
    exact within_patchedUses _ range_lt hlength

/-- **No call reaches past `maxWP`**, up to the message about slot 0. -/
theorem callUses_within (hpolicy : T.cfg.replacementPolicy = .auto) (w : World L)
    (c : LibraryCall) : Within (max 1 T.cfg.maxWP) (callUses T w c) := by
  have hn : T.cfg.maxWP ≤ max 1 T.cfg.maxWP := le_max_right 1 T.cfg.maxWP
  cases c with
  | op op =>
    cases op with
    | threadInit tid ans => exact (within_initUses ans).mono hn
    | subscribe tid r ans => exact within_subscribeUses hpolicy tid r ans
    | onWatchPoint tid fd event ans => exact within_onWatchPointUses tid fd event ans
    | threadTerminate tid ans => exact (within_threadTerminateUses tid ans).mono hn
    | pause => exact within_nil
    | resume => exact within_nil
    | devices p => exact within_nil
  | getPatchedIP tid contextIP getPreviousInstruction =>
    exact (within_getPatchedIPUses tid).mono hn

end Calls

/-! ### Along a run -/

/-- A thread gets its table. -/
def LibraryCall.Initialises : LibraryCall → Prop
  | .op (.threadInit _ ans) => ans.mallocOk = true ∧ ans.setspecificOk = true
  | _ => False

section Runs

variable {L : Type} {T : Tool L} {w w' : World L}

/-- Every index that a run uses lies in its array. -/
def SlotIndicesOk (T : Tool L) (w : World L) (calls : List LibraryCall) : Prop :=
  Along (libraryStep T) (fun w c => Within maxWPSlots (callUses T w c)) w calls

/-- The run gives no thread a table. -/
def NoTable (T : Tool L) (w : World L) (calls : List LibraryCall) : Prop :=
  Along (libraryStep T) (fun _ c => ¬ c.Initialises) w calls

/-- A table that is too short is overrun when it is set up. -/
theorem not_initialises_of_within (hmax : maxWPSlots < T.cfg.maxWP) {c : LibraryCall}
    (h : Within maxWPSlots (callUses T w c)) : ¬ c.Initialises := by
  intro hinit
  cases c with
  | getPatchedIP tid contextIP getPreviousInstruction => exact hinit
  | op op =>
    cases op with
    | threadInit tid ans =>
      have huses : callUses T w (.op (.threadInit tid ans)) = tableUses T.cfg.maxWP := by
        rw [callUses, initUses, hinit.1, hinit.2]
        rfl
      rw [huses] at h
      have hmem : IndexUse.watchPointArray (maxWPSlots : ℕ) ∈ tableUses T.cfg.maxWP :=
        List.mem_map.mpr ⟨maxWPSlots, List.mem_range.mpr hmax, rfl⟩
      exact absurd (h _ hmem).2 (lt_irrefl _)
    | subscribe | onWatchPoint | threadTerminate | pause | resume | devices => exact hinit

/-- Without tables, only a null pointer is followed. -/
theorem callUses_within_one (hnone : ∀ tid, w.tData tid = none) {c : LibraryCall}
    (hc : ¬ c.Initialises) : Within 1 (callUses T w c) := by
  have hnull : Within 1 (nullUses T.cfg.maxWP) :=
    within_nil.ite (.cons (lt_index Nat.one_pos) within_nil)
  cases c with
  | op op =>
    cases op with
    | threadInit tid ans =>
      -- a `WP_ThreadInit` that gets no table stops before its loop
      have hfail : (ans.mallocOk && ans.setspecificOk) = false := by
        rw [← Bool.not_eq_true, Bool.and_eq_true]
        exact hc
      change Within 1 (initUses T.cfg.maxWP ans)
      rw [initUses, hfail]
      exact within_nil
    | subscribe tid r ans =>
      change Within 1 (subscribeUses T w tid r ans)
      rw [subscribeUses, hnone tid]
      exact within_nil.ite within_nil
    | onWatchPoint tid fd event ans =>
      change Within 1 (onWatchPointUses T w tid fd event ans)
      rw [onWatchPointUses, hnone tid]
      exact within_nil
    | threadTerminate tid ans =>
      change Within 1 (threadTerminateUses T w tid ans)
      rw [threadTerminateUses, hnone tid]
      exact hnull
    | pause => exact within_nil
    | resume => exact within_nil
    | devices p => exact within_nil
  | getPatchedIP tid contextIP getPreviousInstruction =>
    change Within 1 (getPatchedIPUses T w tid)
    rw [getPatchedIPUses, hnone tid]
    exact hnull

/-- Without a table no call but `WP_ThreadInit` makes one. -/
theorem tData_none_of_op (hnone : ∀ tid, w.tData tid = none) {op : Op} {ret : ℤ}
    (hs : step T w op = .running ret w') (hc : ¬ (LibraryCall.op op).Initialises) :
    ∀ tid, w'.tData tid = none := by
  cases op with
  | threadInit tid ans =>
    -- it has failed, and returns -1 before the table is stored
    have hsame : wpThreadInit T w tid ans = .running (-1) w := by
      unfold wpThreadInit
      cases hmalloc : ans.mallocOk with
      | false => rfl
      | true =>
        cases hset : ans.setspecificOk with
        | false => rfl
        | true => exact absurd ⟨hmalloc, hset⟩ hc
    obtain ⟨-, rfl⟩ := Outcome.running.inj (hsame.symm.trans hs)
    exact hnone
  | subscribe tid r ans =>
    have hsame : wpSubscribe T w tid r ans = .running (-1) w := by
      unfold wpSubscribe
      simp only [hnone tid, ite_self]
    obtain ⟨-, rfl⟩ := Outcome.running.inj (hsame.symm.trans hs)
    exact hnone
  | onWatchPoint tid fd event ans =>
    have hsame : onWatchPoint T w tid fd event ans = .running 0 (w.note [.delete event]) := by
      unfold onWatchPoint
      rw [hnone tid]
    obtain ⟨-, rfl⟩ := Outcome.running.inj (hsame.symm.trans hs)
    exact hnone
  | threadTerminate tid ans =>
    -- the loop reads through the null pointer
    have hsegv : wpThreadTerminate T w tid ans = .ended .segv w := by
      unfold wpThreadTerminate
      rw [hnone tid]
    cases hsegv.symm.trans hs
  | pause | resume | devices p =>
    obtain ⟨-, rfl⟩ := Outcome.running.inj hs
    exact hnone

/-- Only `WP_ThreadInit` makes tables. -/
theorem tData_none_of_step (hnone : ∀ tid, w.tData tid = none) {c : LibraryCall}
    (hc : ¬ c.Initialises) {u : Unit} (hs : libraryStep T w c = .running u w') :
    ∀ tid, w'.tData tid = none := by
  unfold libraryStep at hs
  cases c with
  | op op =>
    simp only at hs
    cases hstep : step T w op with
    | running ret w₁ =>
      rw [hstep] at hs
      obtain ⟨-, rfl⟩ := Outcome.running.inj hs
      exact tData_none_of_op hnone hstep hc
    | ended e w₁ =>
      rw [hstep] at hs
      cases hs
  | getPatchedIP tid contextIP getPreviousInstruction =>
    simp only [getPatchedIP, hnone tid] at hs
    -- without slots nothing is read through the null pointer
    by_cases hzero : T.cfg.maxWP = 0
    · simp only [if_pos hzero] at hs
      obtain ⟨-, rfl⟩ := Outcome.running.inj hs
      exact hnone
    · simp only [if_neg hzero] at hs
      cases hs

theorem slotIndicesOk_of_le (hpolicy : T.cfg.replacementPolicy = .auto)
    (hmax : T.cfg.maxWP ≤ maxWPSlots) (w : World L) (calls : List LibraryCall) :
    SlotIndicesOk T w calls := by
  have hle : max 1 T.cfg.maxWP ≤ maxWPSlots := max_le (by decide) hmax
  exact Along.of_invariant (I := fun _ => True) (C := fun _ _ => True)
    (fun _ _ _ _ _ _ _ => trivial)
    (fun w c _ _ => (callUses_within hpolicy w c).mono hle) trivial
    (along_of_forall fun _ _ => trivial)

theorem slotIndicesOk_of_noTable (hnone : ∀ tid, w.tData tid = none) {calls : List LibraryCall}
    (h : NoTable T w calls) : SlotIndicesOk T w calls :=
  Along.of_invariant (I := fun w => ∀ tid, w.tData tid = none)
    (fun _ _ _ _ hnone hc hs => tData_none_of_step hnone hc hs)
    (fun _ _ hnone hc => (callUses_within_one hnone hc).mono (by decide)) hnone h

/-- **The indices stay in the arrays** iff no more breakpoints were registered than a table
has slots, or no thread gets a table. -/
theorem slot_indices_iff (T : Tool L) (logic : L) {ans : WPInitAnswers} {p p' : Platform}
    {ret : ℤ} (hinit : wpInit ans p = .ok (ret, T.cfg, p')) (calls : List LibraryCall) :
    SlotIndicesOk T (.fresh p' logic) calls ↔
      T.cfg.maxWP ≤ maxWPSlots ∨ NoTable T (.fresh p' logic) calls := by
  constructor
  · intro hok
    by_cases hmax : T.cfg.maxWP ≤ maxWPSlots
    · exact Or.inl hmax
    · exact Or.inr (hok.mono fun _ _ hc => not_initialises_of_within (not_le.mp hmax) hc)
  · rintro (hmax | hnone)
    · exact slotIndicesOk_of_le (wpInit_policy hinit) hmax _ calls
    · exact slotIndicesOk_of_noTable (fun _ => rfl) hnone

end Runs

/-! ### Four breakpoints and six -/

/-- A platform that lets `n` breakpoints be registered. -/
def WPInitAnswers.breakpoints (n : ℕ) : WPInitAnswers where
  keyCreateOk := true
  isAgentKVM := false
  fastBpIocFlag := true
  probe := {
    gettid := 1
    sKey := 0
    dummyWP := 0x7000
    register := fun count =>
      { (SubscribeAnswers.success 0).arm.register with
        perfEventOpen := if count < n then count else -1 }
    remove := fun _ => ⟨true, true⟩ }

/-- A thread gets its table. -/
def oneTable : LibraryCall := .op (.threadInit 1 (.success none))

/-- A store is sampled, and an address patched. -/
def sampleAndPatch : List LibraryCall :=
  [oneTable, .op (.subscribe 1 (Request.storeAt 2 0x1000) (.success 9)),
    .getPatchedIP 1 0x40 fun contextIP _ _ => contextIP]

theorem slot_indices_four :
    ∃ p', wpInit (.breakpoints 4) .idle = .ok (0, (Tool.always true 4 .disable).cfg, p') ∧
      SlotIndicesOk (Tool.always true 4 .disable) (.fresh p' ()) sampleAndPatch := by
  obtain ⟨p', hinit⟩ : ∃ p', wpInit (.breakpoints 4) .idle
      = .ok (0, (Tool.always true 4 .disable).cfg, p') := ⟨_, rfl⟩
  exact ⟨p', hinit, (slot_indices_iff (Tool.always true 4 .disable) () hinit sampleAndPatch).mpr
    (Or.inl (by decide))⟩

/-- **With six breakpoints the table is overrun when it is set up.** -/
theorem slot_indices_six :
    ∃ p', wpInit (.breakpoints 6) .idle = .ok (0, (Tool.always true 6 .disable).cfg, p') ∧
      ¬ SlotIndicesOk (Tool.always true 6 .disable) (.fresh p' ()) [oneTable] := by
  obtain ⟨p', hinit⟩ : ∃ p', wpInit (.breakpoints 6) .idle
      = .ok (0, (Tool.always true 6 .disable).cfg, p') := ⟨_, rfl⟩
  refine ⟨p', hinit, fun h => ?_⟩
  have hfit : Within maxWPSlots (callUses (Tool.always true 6 .disable) (.fresh p' ()) oneTable) :=
    h.1
  exact not_initialises_of_within (by decide) hfit ⟨rfl, rfl⟩

end Kognizance
