import Kognizance.Lib.Mutex
import Kognizance.Witch.Callbacks

/-!
# The mutex of the tree

`contextTree_mtx` is locked at the start of every call into a logic and given back by hand
before each return. The functions are written down here once more, return by return, with
the operations on the mutex; what they do in between is what the functions without a mutex
do.

* `spy_ends`, `waste_ends`, `onSample_ends`, `clean_ends`, `print_ends`: called with the mutex
  free, each function does what it does without the mutex, and leaves it free.
* `calls_end`: so does every sequence of calls.
-/

namespace Kognizance

open WitchLogic Mutex

namespace Locked

/-- Code that works on a logic. -/
abbrev LogicCode := Code WitchLogic

/-- A step that only changes the logic. -/
def update (f : WitchLogic → WitchLogic) : LogicCode Unit := act fun σ => ((), f σ)

/-- `eventToContextLeafMap.find` -/
def findLeaf (event : Event) : LogicCode (Option ℕ) :=
  act fun σ => (σ.eventToContextLeafMap.lookup event.eventId, σ)

/-- `Witch_OnSample_Callback`, with its mutex. -/
def onSample (event : Event) : LogicCode Bool := do
  lock
  let leafContext ← act fun σ =>
    ((σ.addFramesToContextTree event.eventContext_agent contextTreeRoot true .sampledContext).2,
      (σ.addFramesToContextTree event.eventContext_agent contextTreeRoot true .sampledContext).1)
  if leafContext ≠ contextTreeRoot then
    update fun σ => { σ with
      eventToContextLeafMap := σ.eventToContextLeafMap.insert event.eventId leafContext }
    update fun σ => { σ with
      propAttrTable := σ.propAttrTable.insert leafContext
        (match σ.propAttrTable.lookup leafContext with
          | some n => { n with cur_num := n.cur_num + 1 }
          | none => { cur_num := 1, catchup_num := 0, avgDistance := 0 }) }
  else
    unlock
    return false
  unlock
  return true

/-- `Witch_OnWP_Callback` of RedSpy, LoadSpy and DupSpy, with its mutex. -/
def spyOnWP (F : FloatUnit) (spy : Spy) (currEvent sampleEvent : Event) (wpt : WPTriggerInfo) :
    LogicCode WPTriggerAction := do
  lock
  if currEvent.accessType ≠ spy.watches ∧ currEvent.accessType ≠ .loadAndStore then
    unlock
    return .retain
  if spy.checksFixedIP ∧ sampleEvent.fixedIP ≠ currEvent.fixedIP then
    unlock
    return .disable
  match ← findLeaf sampleEvent with
  | some leafContext =>
    let overlap := overlapBytes currEvent sampleEvent wpt
    if (if spy.wantsOverlap then overlap ≤ 0 else 0 ≤ overlap) then
      update fun σ => σ.removeEventContextMapEntry sampleEvent
      unlock
      return .disable
    let offset := spy.offsets currEvent sampleEvent
    if offset.2 < -16 ∨ offset.2 > 16 ∨ offset.1 > 16 ∨ offset.1 < -16 then
      update fun σ => σ.removeEventContextMapEntry sampleEvent
      unlock
      return .disable
    let numDiffSamples ← act (takePending currEvent sampleEvent leafContext)
    let inc := numDiffSamples * sampleEvent.accessLength.toNat
    if inc = 0 then
      update fun σ => σ.removeEventContextMapEntry sampleEvent
      unlock
      return .disable
    -- the comparison jumps to `TreatLikeInteger` at most, and no branch of it returns
    update (spy.record F (spy.finding F currEvent sampleEvent wpt) currEvent leafContext inc)
    update fun σ => { σ with watchedSampleCount := σ.watchedSampleCount + 1 }
  | none => pure ()
  update fun σ => σ.removeEventContextMapEntry sampleEvent
  unlock
  return .disable

/-- `Witch_OnWP_Callback` of DeadStore and FalseSharing, with its mutex. -/
def wasteOnWP (F : FloatUnit) (waste : Waste) (currEvent sampleEvent : Event)
    (wpt : WPTriggerInfo) : LogicCode WPTriggerAction := do
  lock
  if currEvent.accessType = .unknown then
    update fun σ => σ.removeEventContextMapEntry sampleEvent
    unlock
    return .disable
  if waste.checksFixedIP ∧ sampleEvent.fixedIP ≠ currEvent.fixedIP then
    unlock
    return .disable
  match ← findLeaf sampleEvent with
  | some leafContext =>
    let numDiffSamples ← act (takePending currEvent sampleEvent leafContext)
    let inc := numDiffSamples * sampleEvent.accessLength.toNat
    if overlapBytes currEvent sampleEvent wpt ≤ 0 then
      update fun σ => σ.removeEventContextMapEntry sampleEvent
      unlock
      return .disable
    if waste.uses currEvent sampleEvent then
      update (addUsed F [.deadBytes] true false currEvent leafContext inc)
    else if waste.wastes currEvent sampleEvent then
      update (addWasted F [.deadBytes] .deadBytes .sampledContext currEvent leafContext inc)
    update fun σ => { σ with watchedSampleCount := σ.watchedSampleCount + 1 }
  | none => pure ()
  update fun σ => σ.removeEventContextMapEntry sampleEvent
  unlock
  return .disable

/-- The virtual `Witch_OnWP_Callback`, with its mutex. -/
def onWP (F : FloatUnit) : Logic → Event → Event → WPTriggerInfo → LogicCode WPTriggerAction
  | .spy s => spyOnWP F s
  | .waste w => wasteOnWP F w

/-- `cleanContextTree`, with its mutex. The virtual `resetWitchLogic` comes after it. -/
def clean : LogicCode Unit := do
  lock
  update fun σ => { σ with propAttrTable := ∅ }
  update fun σ => { σ with eventToContextLeafMap := ∅ }
  update fun σ => { σ with
    deleted := (σ.cleanChildContext σ.nextContext contextTreeRoot 0).reverse ++ σ.deleted }
  unlock
  update resetWitchLogic

/-- `printContextTree`, with its mutex, which is free again when `cleanContextTree` is
called. -/
def print (b : BuildFlags) (t : WitchLogicType) : LogicCode Unit := do
  lock
  -- an INST build rolls up and prints the tree, another one prints the table
  update (calculate b t)
  unlock
  match t with
  | .redSpy | .loadSpy | .deadSpy => clean
  | .dupSpy | .falseShare => pure ()

/-! ### Each function gives the mutex back -/

section Ends

variable (F : FloatUnit) (currEvent sampleEvent : Event) (wpt : WPTriggerInfo) (σ : WitchLogic)

theorem ends_update {f : WitchLogic → WitchLogic} {α : Type} {k : Unit → LogicCode α}
    {held : Bool} {a : α} {σ σ' : WitchLogic} (h : Ends (k ()) (f σ) held a σ') :
    Ends (update f >>= k) σ held a σ' := h

theorem onSample_ends (event : Event) :
    Ends (onSample event) σ false (σ.witchOnSampleCallback event).1
      (σ.witchOnSampleCallback event).2 := by
  unfold onSample witchOnSampleCallback
  refine ends_lock (ends_act ?_)
  simp only
  split_ifs with hroot
  · exact ends_update (ends_update (ends_unlock ends_pure))
  · exact ends_unlock ends_pure

/-- The two tests that stand for `accepts` in the source. -/
theorem accepts_eq_false_iff (s : Spy) :
    s.accepts currEvent sampleEvent wpt = false ↔
      (if s.wantsOverlap then overlapBytes currEvent sampleEvent wpt ≤ 0
        else 0 ≤ overlapBytes currEvent sampleEvent wpt) ∨
      ((s.offsets currEvent sampleEvent).2 < -16 ∨ (s.offsets currEvent sampleEvent).2 > 16 ∨
        (s.offsets currEvent sampleEvent).1 > 16 ∨ (s.offsets currEvent sampleEvent).1 < -16) := by
  unfold Spy.accepts
  simp only
  generalize overlapBytes currEvent sampleEvent wpt = overlap
  generalize s.offsets currEvent sampleEvent = offset
  rw [Bool.and_eq_false_iff, Bool.not_eq_false']
  refine or_congr ?_ ?_
  · cases s.wantsOverlap with
    | true => simp
    | false => simp
  · simp only [Bool.or_eq_true, decide_eq_true_eq, or_assoc]

theorem spy_ends (s : Spy) :
    Ends (spyOnWP F s currEvent sampleEvent wpt) σ false
      (s.witchOnWPCallback F currEvent sampleEvent wpt σ).1
      (s.witchOnWPCallback F currEvent sampleEvent wpt σ).2 := by
  have haccepts := accepts_eq_false_iff currEvent sampleEvent wpt s
  unfold spyOnWP Spy.witchOnWPCallback
  refine ends_lock ?_
  -- an access the logic does not look for: unlock and return
  by_cases hignored : currEvent.accessType ≠ s.watches ∧ currEvent.accessType ≠ .loadAndStore
  · rw [if_pos hignored, if_pos hignored]
    exact ends_unlock ends_pure
  rw [if_neg hignored, if_neg hignored]
  -- another instruction than the one that was sampled
  by_cases hmismatch : s.checksFixedIP = true ∧ sampleEvent.fixedIP ≠ currEvent.fixedIP
  · rw [if_pos hmismatch, if_pos hmismatch]
    exact ends_unlock ends_pure
  rw [if_neg hmismatch, if_neg hmismatch]
  refine ends_act ?_
  cases σ.eventToContextLeafMap.lookup sampleEvent.eventId with
  -- the sample is not known any more
  | none => exact ends_update (ends_unlock ends_pure)
  | some leafContext =>
    simp only
    -- an overlap the logic does not want
    by_cases hoverlap : if s.wantsOverlap then overlapBytes currEvent sampleEvent wpt ≤ 0
        else 0 ≤ overlapBytes currEvent sampleEvent wpt
    · rw [if_pos hoverlap, if_pos (haccepts.mpr (Or.inl hoverlap))]
      exact ends_update (ends_unlock ends_pure)
    rw [if_neg hoverlap]
    -- offsets too far apart; the two tests are one predicate of the model
    by_cases hoffset : (s.offsets currEvent sampleEvent).2 < -16 ∨
        (s.offsets currEvent sampleEvent).2 > 16 ∨ (s.offsets currEvent sampleEvent).1 > 16 ∨
        (s.offsets currEvent sampleEvent).1 < -16
    · rw [if_pos hoffset, if_pos (haccepts.mpr (Or.inr hoffset))]
      exact ends_update (ends_unlock ends_pure)
    rw [if_neg hoffset, if_neg fun hno => (haccepts.mp hno).elim hoverlap hoffset]
    refine ends_act ?_
    -- no bytes to give away, or they are recorded
    split_ifs with hinc
    · exact ends_update (ends_unlock ends_pure)
    · exact ends_update (ends_update (ends_update (ends_unlock ends_pure)))

theorem waste_ends (w : Waste) :
    Ends (wasteOnWP F w currEvent sampleEvent wpt) σ false
      (w.witchOnWPCallback F currEvent sampleEvent wpt σ).1
      (w.witchOnWPCallback F currEvent sampleEvent wpt σ).2 := by
  unfold wasteOnWP Waste.witchOnWPCallback
  refine ends_lock ?_
  -- the access is not known
  by_cases hrejected : currEvent.accessType = .unknown
  · rw [if_pos hrejected, if_pos hrejected]
    exact ends_update (ends_unlock ends_pure)
  rw [if_neg hrejected, if_neg hrejected]
  -- another instruction than the one that was sampled
  by_cases hmismatch : w.checksFixedIP = true ∧ sampleEvent.fixedIP ≠ currEvent.fixedIP
  · rw [if_pos hmismatch, if_pos hmismatch]
    exact ends_unlock ends_pure
  rw [if_neg hmismatch, if_neg hmismatch]
  refine ends_act ?_
  cases σ.eventToContextLeafMap.lookup sampleEvent.eventId with
  | none => exact ends_update (ends_unlock ends_pure)
  | some leafContext =>
    simp only
    refine ends_act ?_
    by_cases hno : overlapBytes currEvent sampleEvent wpt ≤ 0
    · rw [if_pos hno, if_pos hno]
      exact ends_update (ends_unlock ends_pure)
    rw [if_neg hno, if_neg hno]
    -- the bytes are used, or wasted, or there are none
    split_ifs with huse hwaste
    · exact ends_update (ends_update (ends_update (ends_unlock ends_pure)))
    · exact ends_update (ends_update (ends_update (ends_unlock ends_pure)))
    · exact ends_update (ends_update (ends_unlock ends_pure))

/-- What is deleted does not depend on the tables, which are cleared before. -/
theorem cleanChildContext_congr {σ τ : WitchLogic} (h : τ.context = σ.context) (n root i : ℕ) :
    τ.cleanChildContext n root i = σ.cleanChildContext n root i := by
  induction n generalizing root i with
  | zero => rfl
  | succ n ih =>
    unfold cleanChildContext
    rw [h]
    simp only [ih]

theorem clean_ends : Ends clean σ false () σ.cleanContextTree := by
  unfold cleanContextTree
  -- the totals are reset when the mutex is free again
  have hend : ∀ τ, Ends (do unlock; update resetWitchLogic) τ true () τ.resetWitchLogic :=
    fun _ => ends_unlock rfl
  rw [← cleanChildContext_congr (σ := σ)
    (τ := { σ with propAttrTable := ∅, eventToContextLeafMap := ∅ }) rfl]
  exact ends_lock (ends_update (ends_update (ends_update (hend _))))

theorem print_ends (b : BuildFlags) (t : WitchLogicType) :
    Ends (print b t) σ false () (printContextTree b t σ) := by
  unfold print printContextTree
  refine ends_lock (ends_update (ends_unlock ?_))
  cases t with
  | redSpy | loadSpy | deadSpy => exact clean_ends _
  | dupSpy | falseShare => exact ends_pure

end Ends

/-! ### Sequences of calls -/

/-- A call into a logic. -/
inductive LogicCall
  | sample (event : Event)
  | trigger (currEvent sampleEvent : Event) (wpt : WPTriggerInfo)
  | print
  | clean

/-- The function that is called. -/
def call (F : FloatUnit) (b : BuildFlags) (t : WitchLogicType) : LogicCall → LogicCode Unit
  | .sample event => do
    let _ ← onSample event
    return ()
  | .trigger currEvent sampleEvent wpt => do
    let _ ← onWP F (Logic.ofType b t) currEvent sampleEvent wpt
    return ()
  | .print => print b t
  | .clean => clean

/-- What the call does, without the mutex. -/
def called (F : FloatUnit) (b : BuildFlags) (t : WitchLogicType) (σ : WitchLogic) :
    LogicCall → WitchLogic
  | .sample event => (σ.witchOnSampleCallback event).2
  | .trigger currEvent sampleEvent wpt =>
    ((Logic.ofType b t).witchOnWPCallback F currEvent sampleEvent wpt σ).2
  | .print => printContextTree b t σ
  | .clean => σ.cleanContextTree

theorem onWP_ends (F : FloatUnit) (l : Logic) (currEvent sampleEvent : Event)
    (wpt : WPTriggerInfo) (σ : WitchLogic) :
    Ends (onWP F l currEvent sampleEvent wpt) σ false
      (l.witchOnWPCallback F currEvent sampleEvent wpt σ).1
      (l.witchOnWPCallback F currEvent sampleEvent wpt σ).2 := by
  cases l with
  | spy s => exact spy_ends F currEvent sampleEvent wpt σ s
  | waste w => exact waste_ends F currEvent sampleEvent wpt σ w

theorem call_ends (F : FloatUnit) (b : BuildFlags) (t : WitchLogicType) (σ : WitchLogic)
    (c : LogicCall) : Ends (call F b t c) σ false () (called F b t σ c) := by
  cases c with
  | sample event => exact ends_bind (onSample_ends σ event) ends_pure
  | trigger currEvent sampleEvent wpt =>
    exact ends_bind (onWP_ends F (Logic.ofType b t) currEvent sampleEvent wpt σ) ends_pure
  | print => exact print_ends σ b t
  | clean => exact clean_ends σ

/-- **Lock discipline.** In every build of each logic and from every state, each function that
is called with the mutex free returns what it returns without the mutex, and leaves it free;
and no sequence of calls blocks. -/
theorem calls_end (F : FloatUnit) (b : BuildFlags) (t : WitchLogicType) (σ : WitchLogic) :
    (∀ event, Ends (onSample event) σ false (σ.witchOnSampleCallback event).1
      (σ.witchOnSampleCallback event).2) ∧
    (∀ currEvent sampleEvent wpt,
      Ends (onWP F (Logic.ofType b t) currEvent sampleEvent wpt) σ false
        ((Logic.ofType b t).witchOnWPCallback F currEvent sampleEvent wpt σ).1
        ((Logic.ofType b t).witchOnWPCallback F currEvent sampleEvent wpt σ).2) ∧
    Ends (print b t) σ false () (printContextTree b t σ) ∧
    Ends clean σ false () σ.cleanContextTree ∧
    ∀ calls : List LogicCall,
      Ends (calls.forM (call F b t)) σ false () (calls.foldl (called F b t) σ) :=
  ⟨onSample_ends σ, fun currEvent sampleEvent wpt =>
    onWP_ends F (Logic.ofType b t) currEvent sampleEvent wpt σ, print_ends σ b t, clean_ends σ,
    ends_forM (fun σ c => call_ends F b t σ c) σ⟩

end Locked

end Kognizance
