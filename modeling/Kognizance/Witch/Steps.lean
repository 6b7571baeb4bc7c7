import Kognizance.Lib.Run
import Kognizance.Witch.Callbacks

/-!
# What the callbacks do to a logic

One inversion lemma for `Witch_OnWP_Callback` of all five logics (`Called`), and one
specification of how bytes are attributed (`Recorded`). What the logics keep over a run
follows from these two and from the walk of `addFramesToContextTree`.

`logicStep` takes one sample or one trigger. `WellFormed` holds along every run
(`wellFormed_of_run`): the tree is a forest in the heap, the tables point to its
contexts, and no context has more samples taken than it has had.
-/

namespace Kognizance

open Process WitchLogic

/-! ### The tests of a callback, as predicates -/

namespace Logic

/-- The access is none the logic looks for, and the watchpoint is kept. -/
def Ignores : Logic → Event → Prop
  | .spy s, currEvent =>
    currEvent.accessType ≠ s.watches ∧ currEvent.accessType ≠ .loadAndStore
  | .waste _, _ => False

/-- The kind of the access is not known. -/
def Rejects : Logic → Event → Prop
  | .spy _, _ => False
  | .waste _, currEvent => currEvent.accessType = .unknown

def checksFixedIP : Logic → Bool
  | .spy s => s.checksFixedIP
  | .waste w => w.checksFixedIP

/-- The build compares the two instructions, and they differ. -/
def Mismatched (l : Logic) (currEvent sampleEvent : Event) : Prop :=
  l.checksFixedIP = true ∧ sampleEvent.fixedIP ≠ currEvent.fixedIP

/-- The two accesses pass the overlap test. -/
def accepts : Logic → Event → Event → WPTriggerInfo → Bool
  | .spy s, currEvent, sampleEvent, wpt => s.accepts currEvent sampleEvent wpt
  | .waste _, currEvent, sampleEvent, wpt => 0 < overlapBytes currEvent sampleEvent wpt

/-- The pending samples are taken before the overlap is tested. -/
def takesFirst : Logic → Bool
  | .spy _ => false
  | .waste _ => true

/-- What the logic finds out about the two accesses. -/
def finding (F : FloatUnit) : Logic → Event → Event → WPTriggerInfo → Finding
  | .spy s, currEvent, sampleEvent, wpt => s.finding F currEvent sampleEvent wpt
  | .waste w, currEvent, sampleEvent, _ =>
    if w.uses currEvent sampleEvent then .used else .dead

/-- The updates for one finding. -/
def record (F : FloatUnit) : Logic → Finding → Event → ℕ → ℕ → WitchLogic → WitchLogic
  | .spy s, found, currEvent, leafContext, inc, σ => s.record F found currEvent leafContext inc σ
  | .waste _, found, currEvent, leafContext, inc, σ =>
    match found with
    | .used | .floatUsed => addUsed F [.deadBytes] true false currEvent leafContext inc σ
    | .red | .approxRed | .dead =>
      addWasted F [.deadBytes] found.metric .sampledContext currEvent leafContext inc σ

/-- The tests at the top of the callback pass. -/
structure Proceeds (l : Logic) (currEvent sampleEvent : Event) : Prop where
  watched : ¬ l.Ignores currEvent
  known : ¬ l.Rejects currEvent
  sameIP : ¬ l.Mismatched currEvent sampleEvent

end Logic

/-- The weight of the pending samples of a context, in bytes of the sampled access. -/
def pendingBytes (σ : WitchLogic) (currEvent sampleEvent : Event) (leafContext : ℕ) : ℕ :=
  (takePending currEvent sampleEvent leafContext σ).1 * sampleEvent.accessLength.toNat

section Called

variable (F : FloatUnit) (l : Logic) (currEvent sampleEvent : Event) (wpt : WPTriggerInfo)
  (σ : WitchLogic)

/-- What one call of `Witch_OnWP_Callback` can do. -/
inductive Called : WPTriggerAction → WitchLogic → Prop
  /-- the access is not one the logic looks for -/
  | ignored (h : l.Ignores currEvent) : Called .retain σ
  /-- another instruction; the only `WP_DISABLE` that leaves the entry of the map -/
  | mismatched (hwatched : ¬ l.Ignores currEvent) (h : l.Mismatched currEvent sampleEvent) :
    Called .disable σ
  /-- the kind of the access is not known -/
  | rejected (h : l.Rejects currEvent) :
    Called .disable (σ.removeEventContextMapEntry sampleEvent)
  /-- the sample has no context -/
  | forgotten (hp : l.Proceeds currEvent sampleEvent)
    (h : σ.eventToContextLeafMap.lookup sampleEvent.eventId = none) :
    Called .disable (σ.removeEventContextMapEntry sampleEvent)
  /-- a spy that finds no overlap has taken nothing -/
  | refused (leafContext : ℕ) (hp : l.Proceeds currEvent sampleEvent)
    (hleaf : σ.eventToContextLeafMap.lookup sampleEvent.eventId = some leafContext)
    (hno : l.accepts currEvent sampleEvent wpt = false) (hl : l.takesFirst = false) :
    Called .disable (σ.removeEventContextMapEntry sampleEvent)
  /-- the others have taken the pending samples by then -/
  | lost (leafContext : ℕ) (hp : l.Proceeds currEvent sampleEvent)
    (hleaf : σ.eventToContextLeafMap.lookup sampleEvent.eventId = some leafContext)
    (hno : l.accepts currEvent sampleEvent wpt = false) (hl : l.takesFirst = true) :
    Called .disable ((takePending currEvent sampleEvent leafContext σ).2
      |>.removeEventContextMapEntry sampleEvent)
  /-- a spy that has taken no weight stops -/
  | empty (leafContext : ℕ) (hp : l.Proceeds currEvent sampleEvent)
    (hleaf : σ.eventToContextLeafMap.lookup sampleEvent.eventId = some leafContext)
    (hyes : l.accepts currEvent sampleEvent wpt = true) (hl : l.takesFirst = false)
    (hinc : pendingBytes σ currEvent sampleEvent leafContext = 0) :
    Called .disable ((takePending currEvent sampleEvent leafContext σ).2
      |>.removeEventContextMapEntry sampleEvent)
  /-- the weight taken is attributed -/
  | recorded (leafContext : ℕ) (hp : l.Proceeds currEvent sampleEvent)
    (hleaf : σ.eventToContextLeafMap.lookup sampleEvent.eventId = some leafContext)
    (hyes : l.accepts currEvent sampleEvent wpt = true)
    (hinc : l.takesFirst = false → pendingBytes σ currEvent sampleEvent leafContext ≠ 0) :
    Called .disable (finish sampleEvent
      (l.record F (l.finding F currEvent sampleEvent wpt) currEvent leafContext
        (pendingBytes σ currEvent sampleEvent leafContext)
        (takePending currEvent sampleEvent leafContext σ).2))

theorem spy_called (s : Spy) :
    Called F (.spy s) currEvent sampleEvent wpt σ
      (s.witchOnWPCallback F currEvent sampleEvent wpt σ).1
      (s.witchOnWPCallback F currEvent sampleEvent wpt σ).2 := by
  unfold Spy.witchOnWPCallback
  -- the tests at the top, in the order of the source
  by_cases hignored : currEvent.accessType ≠ s.watches ∧ currEvent.accessType ≠ .loadAndStore
  · rw [if_pos hignored]
    exact .ignored hignored
  rw [if_neg hignored]
  by_cases hmismatch : s.checksFixedIP = true ∧ sampleEvent.fixedIP ≠ currEvent.fixedIP
  · rw [if_pos hmismatch]
    exact .mismatched hignored hmismatch
  rw [if_neg hmismatch]
  have hp : (Logic.spy s).Proceeds currEvent sampleEvent := ⟨hignored, id, hmismatch⟩
  cases hleaf : σ.eventToContextLeafMap.lookup sampleEvent.eventId with
  | none => exact .forgotten hp hleaf
  | some leafContext =>
    simp only
    -- the overlap, then the weight of the samples taken
    split_ifs with hno hinc
    · exact .refused leafContext hp hleaf hno rfl
    · exact .empty leafContext hp hleaf (Bool.eq_true_of_not_eq_false hno) rfl hinc
    · exact .recorded leafContext hp hleaf (Bool.eq_true_of_not_eq_false hno) fun _ => hinc

theorem waste_called (w : Waste) :
    Called F (.waste w) currEvent sampleEvent wpt σ
      (w.witchOnWPCallback F currEvent sampleEvent wpt σ).1
      (w.witchOnWPCallback F currEvent sampleEvent wpt σ).2 := by
  unfold Waste.witchOnWPCallback
  by_cases hrejected : currEvent.accessType = .unknown
  · rw [if_pos hrejected]
    exact .rejected hrejected
  rw [if_neg hrejected]
  by_cases hmismatch : w.checksFixedIP = true ∧ sampleEvent.fixedIP ≠ currEvent.fixedIP
  · rw [if_pos hmismatch]
    exact .mismatched id hmismatch
  rw [if_neg hmismatch]
  have hp : (Logic.waste w).Proceeds currEvent sampleEvent := ⟨id, hrejected, hmismatch⟩
  cases hleaf : σ.eventToContextLeafMap.lookup sampleEvent.eventId with
  | none => exact .forgotten hp hleaf
  | some leafContext =>
    simp only
    by_cases hno : overlapBytes currEvent sampleEvent wpt ≤ 0
    · -- the samples have been taken by now
      rw [if_pos hno]
      exact .lost leafContext hp hleaf (decide_eq_false (not_lt.mpr hno)) rfl
    · rw [if_neg hno]
      have hyes : (Logic.waste w).accepts currEvent sampleEvent wpt = true :=
        decide_eq_true (not_le.mp hno)
      have hrecord := Called.recorded (F := F) (σ := σ) leafContext hp hleaf hyes nofun
      -- a known access is a use or a waste
      cases huse : w.uses currEvent sampleEvent with
      | true =>
        rw [if_pos rfl]
        simp only [Logic.record, Logic.finding, huse, if_pos] at hrecord
        exact hrecord
      | false =>
        have hwaste : w.wastes currEvent sampleEvent = true := by
          simpa [huse] using w.decides currEvent sampleEvent hrejected
        rw [if_neg Bool.false_ne_true, if_pos hwaste]
        simp only [Logic.record, Logic.finding, huse, if_neg Bool.false_ne_true] at hrecord
        exact hrecord

/-- **The callbacks do what `Called` says.** -/
theorem witchOnWPCallback_called :
    Called F l currEvent sampleEvent wpt σ
      (l.witchOnWPCallback F currEvent sampleEvent wpt σ).1
      (l.witchOnWPCallback F currEvent sampleEvent wpt σ).2 := by
  cases l with
  | spy s => exact spy_called F currEvent sampleEvent wpt σ s
  | waste w => exact waste_called F currEvent sampleEvent wpt σ w

end Called

/-! ### Taking a sample -/

/-- What one call of `Witch_OnSample_Callback` can do. -/
inductive Sampled (σ : WitchLogic) (event : Event) : Bool → WitchLogic → Prop
  /-- the sample has no frames -/
  | failed (hempty : event.eventContext_agent = []) : Sampled σ event false σ
  /-- the leaf of its frames is counted and remembered -/
  | counted (σ₁ : WitchLogic) (leafContext : ℕ) (n : SampleNum)
    (hne : event.eventContext_agent ≠ [])
    (hadded : addFrames .sampledContext event.eventContext_agent.reverse σ contextTreeRoot
      = (σ₁, leafContext))
    (hpos : 0 < leafContext)
    (hn : n.catchup_num ≤ n.cur_num ∨ ∃ k, σ.propAttrTable.lookup leafContext = some k ∧
      n.catchup_num = k.catchup_num ∧ n.cur_num = k.cur_num + 1) :
    Sampled σ event true { σ₁ with
      eventToContextLeafMap := σ.eventToContextLeafMap.insert event.eventId leafContext
      propAttrTable := σ.propAttrTable.insert leafContext n }

theorem witchOnSampleCallback_sampled {σ : WitchLogic} (h : σ.TreeOk) (event : Event) :
    Sampled σ event (σ.witchOnSampleCallback event).1 (σ.witchOnSampleCallback event).2 := by
  cases hframes : event.eventContext_agent with
  | nil =>
    have hres : σ.witchOnSampleCallback event = (false, σ) := by
      unfold witchOnSampleCallback addFramesToContextTree
      rw [hframes]
      rfl
    rw [hres]
    exact .failed hframes
  | cons frame frames =>
    -- a walk with a frame ends below the root, so the callback goes on
    have hne : event.eventContext_agent.reverse ≠ [] := by
      rw [hframes]
      simp
    obtain ⟨σ₁, leafContext, hadded⟩ : ∃ σ₁ leafContext,
        addFrames .sampledContext event.eventContext_agent.reverse σ contextTreeRoot
          = (σ₁, leafContext) := ⟨_, _, rfl⟩
    have hg := (h.addFrames .sampledContext h.pos
      event.eventContext_agent.reverse).2.2.1
    have hpos := h.addFrames_lt .sampledContext h.pos hne
    rw [hadded] at hg hpos
    have hroot : leafContext ≠ contextTreeRoot := Nat.ne_of_gt hpos
    have hleafMap : σ₁.eventToContextLeafMap = σ.eventToContextLeafMap := hg.leafMap
    have hattr : σ₁.propAttrTable = σ.propAttrTable := hg.attr
    have hadded' : σ.addFramesToContextTree event.eventContext_agent contextTreeRoot true
        .sampledContext = (σ₁, leafContext) := hadded
    unfold witchOnSampleCallback
    rw [hadded']
    simp only [if_pos hroot, hleafMap, hattr]
    refine .counted σ₁ leafContext _ (by rw [hframes]; simp) hadded hpos ?_
    cases hlook : σ.propAttrTable.lookup leafContext with
    | none => exact Or.inl (Nat.zero_le 1)
    | some k => exact Or.inr ⟨k, rfl, rfl, rfl⟩

/-! ### Taking the pending samples -/

section Take

variable {σ : WitchLogic} {leafContext : ℕ} (currEvent sampleEvent : Event)

/-- A context of the table has as many samples taken as it has had. -/
theorem takePending_of_lookup {n : SampleNum} (h : σ.propAttrTable.lookup leafContext = some n) :
    (takePending currEvent sampleEvent leafContext σ).1 = (n.cur_num - n.catchup_num) * 100003 ∧
      ∃ avg, (takePending currEvent sampleEvent leafContext σ).2 = { σ with
        propAttrTable := σ.propAttrTable.insert leafContext ⟨n.cur_num, n.cur_num, avg⟩ } := by
  unfold takePending getNumDiffSamplesAndReset
  rw [h]
  exact ⟨by simp only [Nat.mul_one], _, rfl⟩

theorem takePending_of_none (h : σ.propAttrTable.lookup leafContext = none) :
    takePending currEvent sampleEvent leafContext σ = (0, σ) := by
  unfold takePending getNumDiffSamplesAndReset
  rw [h]

/-- Taking the pending samples touches the attribution table only, and keeps its
contexts. -/
theorem takePending_fields (σ : WitchLogic) (leafContext : ℕ) :
    ∃ table, (takePending currEvent sampleEvent leafContext σ).2
        = { σ with propAttrTable := table } ∧ ∀ c, c ∈ table ↔ c ∈ σ.propAttrTable := by
  cases h : σ.propAttrTable.lookup leafContext with
  | none =>
    rw [takePending_of_none _ _ h]
    exact ⟨σ.propAttrTable, rfl, fun _ => Iff.rfl⟩
  | some n =>
    obtain ⟨-, avg, heq⟩ := takePending_of_lookup currEvent sampleEvent h
    refine ⟨_, heq, fun c => ?_⟩
    have hmem : leafContext ∈ σ.propAttrTable := AList.lookup_isSome.mp (by rw [h]; rfl)
    rw [AList.mem_insert]
    refine ⟨?_, Or.inr⟩
    rintro (rfl | hc)
    · exact hmem
    · exact hc

end Take

/-! ### Attributing bytes -/

/-- `inc` bytes have been attributed to the metric `m`: globally, to `leafContext`, and
to `extra` if there is one. -/
structure Recorded (σ σ' : WitchLogic) (leafContext inc : ℕ) (m : MetricType)
    (extra : Option ℕ) : Prop where
  tree : σ'.TreeOk
  next : σ.nextContext ≤ σ'.nextContext
  deleted : σ'.deleted = σ.deleted
  leafMap : σ'.eventToContextLeafMap = σ.eventToContextLeafMap
  attr : σ'.propAttrTable = σ.propAttrTable
  total : σ'.total = Function.update σ.total m (σ.total m + inc)
  metric : ∀ x m', m' ≠ .inefficiency → m' ≠ .contextType →
    ((σ'.context x).metrics m').i = ((σ.context x).metrics m').i
      + (if x = leafContext ∧ m' = m then (inc : ℤ) else 0)
      + if some x = extra ∧ m' = m then (inc : ℤ) else 0

section Recorded

variable {σ : WitchLogic} {currEvent : Event} {leafContext : ℕ}

/-- Storing into `INEFFICIENCY` or not does not matter. -/
theorem Recorded.setInefficiency {σ' : WitchLogic} {inc : ℕ} {m : MetricType}
    {extra : Option ℕ} (h : Recorded σ σ' leafContext inc m extra) {c : ℕ}
    (hc : c < σ'.nextContext) (v : ℤ) :
    Recorded σ (σ'.setMetric c .inefficiency v) leafContext inc m extra :=
  { h with
    tree := h.tree.setMetric hc _ _
    metric := by
      intro x m' hm hm'
      rw [setMetric_i, if_neg fun hx => hm hx.2]
      exact h.metric x m' hm hm' }

/-- Extending the tree afterwards does not matter either. -/
theorem Recorded.showUsed {σ' : WitchLogic} {inc : ℕ} {m : MetricType} {extra : Option ℕ}
    (h : Recorded σ σ' leafContext inc m extra) (hleaf : leafContext < σ.nextContext)
    (shows : Bool) (frames : List ContextFrame) :
    Recorded σ (if shows then
        (σ'.addFramesToContextTree frames leafContext false .usedContext).1 else σ')
      leafContext inc m extra := by
  cases shows with
  | false => exact h
  -- the contexts that are added have no metrics yet
  | true =>
    obtain ⟨htree, -, hg, -⟩ :=
      h.tree.addFrames .usedContext (hleaf.trans_le h.next) frames
    exact
      { tree := htree
        next := h.next.trans hg.next
        deleted := hg.deleted.trans h.deleted
        leafMap := hg.leafMap.trans h.leafMap
        attr := hg.attr.trans h.attr
        total := hg.total.trans h.total
        metric := fun x m' hm hm' => (hg.metric x m' hm').trans (h.metric x m' hm hm') }

/-- The total and the sampled context get the bytes. -/
theorem recorded_increment (h : σ.TreeOk) (hleaf : leafContext < σ.nextContext) (m : MetricType)
    (inc : ℕ) :
    Recorded σ
      ({ σ with total := Function.update σ.total m (σ.total m + inc) }.increment leafContext m inc)
      leafContext inc m none where
  tree := TreeOk.setMetric (σ := { σ with
    total := Function.update σ.total m (σ.total m + inc) }) (h.congr rfl rfl) hleaf _ _
  next := le_refl _
  deleted := rfl
  leafMap := rfl
  attr := rfl
  total := rfl
  metric := by
    intro x m' _ _
    have hno : ¬ (some x = none ∧ m' = m) := fun hx => Option.some_ne_none x hx.1
    rw [increment_i, if_neg hno, add_zero]

theorem addUsed_recorded (F : FloatUnit) (bad : List MetricType) (updates shows : Bool)
    (h : σ.TreeOk) (hleaf : leafContext < σ.nextContext) (inc : ℕ) :
    Recorded σ (addUsed F bad updates shows currEvent leafContext inc σ) leafContext inc
      .usedBytes none := by
  have hinc := recorded_increment h hleaf .usedBytes inc
  cases updates with
  | false => exact hinc.showUsed hleaf shows currEvent.eventContext_agent
  | true =>
    exact (hinc.setInefficiency (hleaf.trans_le hinc.next) _).showUsed hleaf shows
      currEvent.eventContext_agent

/-- The context that gets a trigger's bytes besides the sampled one: where the frames
lead to, or a fresh one. -/
def IsWatched (σ : WitchLogic) (currEvent : Event) (leafContext node : ℕ) : Prop :=
  σ.follow currEvent.eventContext_agent leafContext = some node ∨
    (σ.follow currEvent.eventContext_agent leafContext = none ∧ σ.nextContext ≤ node)

/-- After the walk both contexts get the bytes. -/
theorem recorded_walk {σ₁ : WitchLogic} {node : ℕ} {m : MetricType} {inc : ℕ}
    (hleaf : leafContext < σ.nextContext)
    (hg : Grown { σ with total := Function.update σ.total m (σ.total m + inc) } σ₁)
    (htree : σ₁.TreeOk) (hnode : node < σ₁.nextContext) :
    Recorded σ ((σ₁.increment node m inc).increment leafContext m inc) leafContext inc m
      (some node) where
  tree := (htree.setMetric hnode _ _).setMetric (hleaf.trans_le hg.next) _ _
  next := hg.next
  deleted := hg.deleted
  leafMap := hg.leafMap
  attr := hg.attr
  total := hg.total
  metric := by
    intro x m' _ hm'
    simp only [increment_i, Option.some.injEq]
    rw [hg.metric x m' hm', add_right_comm]

theorem addWasted_recorded (currEvent : Event) (F : FloatUnit) (bad : List MetricType)
    (m : MetricType) (ctype : ContextType) (h : σ.TreeOk) (hleaf : leafContext < σ.nextContext)
    (inc : ℕ) :
    ∃ node, IsWatched σ currEvent leafContext node ∧
      Recorded σ (addWasted F bad m ctype currEvent leafContext inc σ) leafContext inc m
        (some node) := by
  have htree₀ : TreeOk { σ with total := Function.update σ.total m (σ.total m + inc) } :=
    h.congr rfl rfl
  have hleaf₀ : leafContext < WitchLogic.nextContext { σ with
      total := Function.update σ.total m (σ.total m + inc) } := hleaf
  obtain ⟨htree, hnode, hg, -⟩ :=
    htree₀.addFrames ctype hleaf₀ currEvent.eventContext_agent
  have hwhere := htree₀.addFrames_follow ctype hleaf₀ currEvent.eventContext_agent
  -- the totals do not matter for where the frames lead
  have hfollow : WitchLogic.follow { σ with total := Function.update σ.total m (σ.total m + inc) }
      currEvent.eventContext_agent leafContext
      = σ.follow currEvent.eventContext_agent leafContext := by
    apply follow_congr
    rfl
  rw [hfollow] at hwhere
  have hrec := recorded_walk hleaf hg htree hnode
  exact ⟨_, hwhere, hrec.setInefficiency (hleaf.trans_le hrec.next) _⟩

/-- **What a finding makes of the tree**: it is a use, or it is not and the watched context
is charged as well. -/
theorem Logic.record_cases (F : FloatUnit) (l : Logic) (found : Finding) (currEvent : Event)
    (leafContext inc : ℕ) (σ : WitchLogic) :
    (found.metric = .usedBytes ∧ ∃ bad updates shows,
      l.record F found currEvent leafContext inc σ
        = addUsed F bad updates shows currEvent leafContext inc σ) ∨
    (found.metric ≠ .usedBytes ∧ ∃ bad ctype,
      l.record F found currEvent leafContext inc σ
        = addWasted F bad found.metric ctype currEvent leafContext inc σ) := by
  cases l with
  | spy s =>
    cases found with
    | used | floatUsed => exact Or.inl ⟨rfl, _, _, _, rfl⟩
    | red | approxRed | dead => exact Or.inr ⟨nofun, _, _, rfl⟩
  | waste w =>
    cases found with
    | used | floatUsed => exact Or.inl ⟨rfl, [.deadBytes], true, false, rfl⟩
    | red | approxRed | dead => exact Or.inr ⟨nofun, [.deadBytes], .sampledContext, rfl⟩

/-- What a logic attributes for one finding. -/
theorem Logic.record_recorded (currEvent : Event) (F : FloatUnit) (l : Logic) (found : Finding)
    (h : σ.TreeOk) (hleaf : leafContext < σ.nextContext) (inc : ℕ) :
    ∃ extra, Recorded σ (l.record F found currEvent leafContext inc σ) leafContext inc
        found.metric extra ∧
      (found.metric = .usedBytes → extra = none) ∧
      ∀ node, extra = some node → IsWatched σ currEvent leafContext node := by
  rcases l.record_cases F found currEvent leafContext inc σ with
    ⟨hused, bad, updates, shows, heq⟩ | ⟨hwasted, bad, ctype, heq⟩
  · rw [heq, hused]
    exact ⟨none, addUsed_recorded F bad updates shows h hleaf inc, fun _ => rfl,
      fun _ hnode => nomatch hnode⟩
  · obtain ⟨node, hwhere, hrec⟩ :=
      addWasted_recorded currEvent F bad found.metric ctype h hleaf inc
    rw [heq]
    refine ⟨some node, hrec, fun hused => absurd hused hwasted, ?_⟩
    rintro _ ⟨⟩
    exact hwhere

end Recorded

/-- The call attributes bytes to the sampled context `leafContext`. -/
structure Attributes (l : Logic) (currEvent sampleEvent : Event) (wpt : WPTriggerInfo)
    (σ : WitchLogic) (leafContext : ℕ) : Prop where
  proceeds : l.Proceeds currEvent sampleEvent
  leaf : σ.eventToContextLeafMap.lookup sampleEvent.eventId = some leafContext
  accepts : l.accepts currEvent sampleEvent wpt = true
  pending : pendingBytes σ currEvent sampleEvent leafContext ≠ 0

/-! ### Runs of a logic -/

/-- One call of a callback. -/
inductive LogicOp
  | sample (event : Event)
  | trigger (currEvent sampleEvent : Event) (wpt : WPTriggerInfo)

/-- One step of a run; it always returns. -/
def logicStep (F : FloatUnit) (l : Logic) (σ : WitchLogic) : LogicOp → Outcome WitchLogic Unit
  | .sample event => .running () (σ.witchOnSampleCallback event).2
  | .trigger currEvent sampleEvent wpt =>
    .running () (l.witchOnWPCallback F currEvent sampleEvent wpt σ).2

/-- The state a run leaves. -/
def runLogic (F : FloatUnit) (l : Logic) (σ : WitchLogic) (ops : List LogicOp) : WitchLogic :=
  (exec (logicStep F l) σ ops).state

/-- **The invariant rule for the logics.** -/
theorem runLogic_invariant {F : FloatUnit} {l : Logic} {I : WitchLogic → Prop}
    {C : WitchLogic → LogicOp → Prop}
    (hsample : ∀ σ event, I σ → C σ (.sample event) → I (σ.witchOnSampleCallback event).2)
    (htrigger : ∀ σ currEvent sampleEvent wpt, I σ → C σ (.trigger currEvent sampleEvent wpt) →
      I (l.witchOnWPCallback F currEvent sampleEvent wpt σ).2)
    {σ : WitchLogic} {ops : List LogicOp} (h : I σ) (hC : Along (logicStep F l) C σ ops) :
    I (runLogic F l σ ops) := by
  refine exec_final (I := I) ?_ (fun _ hI => hI) ?_ h hC
  · intro σ op _ σ' hI hop hs
    -- every call of a logic returns, so a run has no other end
    cases op with
    | sample event =>
      obtain ⟨-, rfl⟩ := Outcome.running.inj hs
      exact hsample σ event hI hop
    | trigger currEvent sampleEvent wpt =>
      obtain ⟨-, rfl⟩ := Outcome.running.inj hs
      exact htrigger σ currEvent sampleEvent wpt hI hop
  · intro σ op e σ' _ _ hs
    cases op with
    | sample => cases hs
    | trigger => cases hs

/-! ### Well-formedness -/

/-- The tree is a forest in the heap, armed samples and attribution entries belong to
its contexts, and `catchup_num` stays behind `cur_num`. -/
structure WellFormed (σ : WitchLogic) : Prop where
  tree : σ.TreeOk
  leaf : ∀ id c, σ.eventToContextLeafMap.lookup id = some c → c ∈ σ.propAttrTable
  key : ∀ c ∈ σ.propAttrTable, 0 < c ∧ c < σ.nextContext
  behind : ∀ c n, σ.propAttrTable.lookup c = some n → n.catchup_num ≤ n.cur_num

theorem treeOk_new : WitchLogic.new.TreeOk where
  pos := Nat.one_pos
  forest :=
    { lt := fun hc => absurd hc List.not_mem_nil
      lt_bound := fun hc => absurd hc List.not_mem_nil
      nodup := fun _ => List.nodup_nil
      parent_unique := fun hc => absurd hc List.not_mem_nil }
  unborn := fun _ _ => rfl
  parent := fun _ _ hc => absurd hc List.not_mem_nil
  root := ⟨rfl, rfl⟩

theorem wellFormed_new : WellFormed WitchLogic.new where
  tree := treeOk_new
  leaf := by
    intro id c h
    rw [WitchLogic.new, AList.lookup_empty] at h
    cases h
  key := fun c hc => absurd hc (AList.notMem_empty c)
  behind := by
    intro c n h
    rw [WitchLogic.new, AList.lookup_empty] at h
    cases h

namespace WellFormed

variable {σ σ' : WitchLogic}

/-- A tree that grows leaves the tables well formed. -/
theorem grow (h : WellFormed σ) (htree : σ'.TreeOk)
    (hleaf : σ'.eventToContextLeafMap = σ.eventToContextLeafMap)
    (hattr : σ'.propAttrTable = σ.propAttrTable) (hnext : σ.nextContext ≤ σ'.nextContext) :
    WellFormed σ' where
  tree := htree
  leaf := by
    rw [hleaf, hattr]
    exact h.leaf
  key := by
    rw [hattr]
    exact fun c hc => ⟨(h.key c hc).1, (h.key c hc).2.trans_le hnext⟩
  behind := by
    rw [hattr]
    exact h.behind

theorem remove (h : WellFormed σ) (event : Event) :
    WellFormed (σ.removeEventContextMapEntry event) where
  tree := h.tree.congr rfl rfl
  leaf := by
    intro id c hlook
    by_cases hid : id = event.eventId
    · subst hid
      rw [WitchLogic.removeEventContextMapEntry, AList.lookup_erase] at hlook
      cases hlook
    · rw [WitchLogic.removeEventContextMapEntry, AList.lookup_erase_ne hid] at hlook
      exact h.leaf id c hlook
  key := h.key
  behind := h.behind

theorem finish (h : WellFormed σ) (event : Event) : WellFormed (finish event σ) := by
  have hcount : WellFormed { σ with watchedSampleCount := σ.watchedSampleCount + 1 } :=
    ⟨h.tree.congr rfl rfl, h.leaf, h.key, h.behind⟩
  exact hcount.remove event

theorem takePending (h : WellFormed σ) (currEvent sampleEvent : Event) (leafContext : ℕ) :
    WellFormed (takePending currEvent sampleEvent leafContext σ).2 := by
  cases hlook : σ.propAttrTable.lookup leafContext with
  | none =>
    -- without an entry nothing is taken
    rw [takePending_of_none _ _ hlook]
    exact h
  | some n =>
    obtain ⟨table, heq, hmem⟩ := takePending_fields currEvent sampleEvent σ leafContext
    obtain ⟨-, avg, heq'⟩ := takePending_of_lookup currEvent sampleEvent hlook
    refine ⟨?_, ?_, ?_, ?_⟩
    · rw [heq]
      exact h.tree.congr rfl rfl
    · rw [heq]
      exact fun id c hc => (hmem c).mpr (h.leaf id c hc)
    · rw [heq]
      exact fun c hc => h.key c ((hmem c).mp hc)
    · -- the leaf has taken all of its samples now, and the others are as they were
      rw [heq']
      intro c k hk
      by_cases hc : c = leafContext
      · subst hc
        rw [AList.lookup_insert] at hk
        obtain rfl := Option.some.inj hk
        exact le_refl n.cur_num
      · rw [AList.lookup_insert_ne hc] at hk
        exact h.behind c k hk

/-- Attributing bytes keeps a logic well formed. -/
theorem recorded (h : WellFormed σ) {leafContext inc : ℕ} {m : MetricType} {extra : Option ℕ}
    (hrec : Recorded σ σ' leafContext inc m extra) : WellFormed σ' :=
  h.grow hrec.tree hrec.leafMap hrec.attr hrec.next

/-- The sampled context of a known sample has been constructed. -/
theorem leaf_lt (h : WellFormed σ) {id : ℤ} {c : ℕ}
    (hleaf : σ.eventToContextLeafMap.lookup id = some c) : c < σ.nextContext :=
  (h.key c (h.leaf id c hleaf)).2

/-- What is attributed once the pending samples of a known sample have been taken. -/
theorem record_taken (h : WellFormed σ) {currEvent sampleEvent : Event} {leafContext : ℕ}
    (hleaf : σ.eventToContextLeafMap.lookup sampleEvent.eventId = some leafContext)
    (F : FloatUnit) (l : Logic) (found : Finding) (inc : ℕ) :
    let taken := (Kognizance.takePending currEvent sampleEvent leafContext σ).2
    ∃ extra, Recorded taken (l.record F found currEvent leafContext inc taken) leafContext inc
        found.metric extra ∧
      (found.metric = .usedBytes → extra = none) ∧
      ∀ node, extra = some node → IsWatched taken currEvent leafContext node := by
  intro taken
  obtain ⟨table, heq, -⟩ := takePending_fields currEvent sampleEvent σ leafContext
  have hlt : leafContext < taken.nextContext := by
    change leafContext < (Kognizance.takePending currEvent sampleEvent leafContext σ).2.nextContext
    rw [heq]
    exact h.leaf_lt hleaf
  exact l.record_recorded currEvent F found (h.takePending currEvent sampleEvent leafContext).tree
    hlt inc

/-- Only waste is attributed to a second context. The trigger's frames lead to it, or it is
fresh, and not sampled. -/
theorem record_watched (h : WellFormed σ) {currEvent sampleEvent : Event} {leafContext : ℕ}
    (hleaf : σ.eventToContextLeafMap.lookup sampleEvent.eventId = some leafContext)
    (F : FloatUnit) (l : Logic) (found : Finding) (inc : ℕ) :
    let taken := (Kognizance.takePending currEvent sampleEvent leafContext σ).2
    ∃ extra, Recorded taken (l.record F found currEvent leafContext inc taken) leafContext inc
        found.metric extra ∧
      ∀ node, extra = some node → found.metric ≠ .usedBytes ∧
        (σ.follow currEvent.eventContext_agent leafContext = some node ∨
          node ∉ taken.propAttrTable) := by
  intro taken
  obtain ⟨extra, hrec, hused, hwatched⟩ := h.record_taken hleaf F l found inc
  refine ⟨extra, hrec, fun node hnode => ⟨fun hmetric => ?_, ?_⟩⟩
  · rw [hused hmetric] at hnode
    cases hnode
  · -- taking the pending samples moves no context and no key
    obtain ⟨table, heq, hkeys⟩ := takePending_fields currEvent sampleEvent σ leafContext
    have hcontext : taken.context = σ.context := (congrArg WitchLogic.context heq).trans rfl
    have hnext : taken.nextContext = σ.nextContext :=
      (congrArg WitchLogic.nextContext heq).trans rfl
    have htable : taken.propAttrTable = table :=
      (congrArg WitchLogic.propAttrTable heq).trans rfl
    rcases hwatched node hnode with hsome | ⟨-, hfresh⟩
    · rw [follow_congr hcontext] at hsome
      exact Or.inl hsome
    · rw [hnext] at hfresh
      rw [htable, hkeys]
      exact Or.inr fun hmem => absurd (h.key node hmem).2 hfresh.not_gt

/-- A callback keeps a logic well formed. -/
theorem called {F : FloatUnit} {l : Logic} {currEvent sampleEvent : Event} {wpt : WPTriggerInfo}
    {a : WPTriggerAction} (h : WellFormed σ)
    (hc : Called F l currEvent sampleEvent wpt σ a σ') : WellFormed σ' := by
  cases hc with
  | ignored => exact h
  | mismatched => exact h
  | rejected => exact h.remove sampleEvent
  | forgotten => exact h.remove sampleEvent
  | refused => exact h.remove sampleEvent
  | lost leafContext => exact (h.takePending currEvent sampleEvent leafContext).remove sampleEvent
  | empty leafContext => exact (h.takePending currEvent sampleEvent leafContext).remove sampleEvent
  | recorded leafContext hp hleaf =>
    have htaken := h.takePending currEvent sampleEvent leafContext
    obtain ⟨extra, hrec, -⟩ := h.record_taken hleaf F l (l.finding F currEvent sampleEvent wpt)
      (pendingBytes σ currEvent sampleEvent leafContext)
    exact (htaken.recorded hrec).finish sampleEvent

/-- **The walk of a sample** ends inside of a tree that has grown. -/
theorem walked {σ₁ : WitchLogic} {frames : List ContextFrame} {leafContext : ℕ} (h : WellFormed σ)
    (hadded : addFrames .sampledContext frames σ contextTreeRoot = (σ₁, leafContext)) :
    σ₁.TreeOk ∧ leafContext < σ₁.nextContext ∧ Grown σ σ₁ := by
  obtain ⟨htree, hlt, hg, -⟩ := h.tree.addFrames .sampledContext h.tree.pos frames
  rw [hadded] at htree hlt hg
  exact ⟨htree, hlt, hg⟩

/-- A sample keeps a logic well formed. -/
theorem sampled {event : Event} {ok : Bool} (h : WellFormed σ) (hs : Sampled σ event ok σ') :
    WellFormed σ' := by
  cases hs with
  | failed => exact h
  | counted σ₁ leafContext n hne hadded hpos hn =>
    obtain ⟨htree, hlt, hg⟩ := h.walked hadded
    refine ⟨htree.congr rfl rfl, ?_, ?_, ?_⟩
    · intro id c hlook
      rw [AList.mem_insert]
      by_cases hid : id = event.eventId
      · subst hid
        rw [AList.lookup_insert] at hlook
        exact Or.inl (Option.some.inj hlook).symm
      · rw [AList.lookup_insert_ne hid] at hlook
        exact Or.inr (h.leaf id c hlook)
    · intro c hc
      rw [AList.mem_insert] at hc
      rcases hc with rfl | hc
      · exact ⟨hpos, hlt⟩
      · exact ⟨(h.key c hc).1, (h.key c hc).2.trans_le hg.next⟩
    · -- the node of the sampled context is new, or has one sample more
      intro c k hlook
      by_cases hc : c = leafContext
      · subst hc
        rw [AList.lookup_insert] at hlook
        obtain rfl := Option.some.inj hlook
        rcases hn with hn | ⟨k, hk, hcatchup, hcur⟩
        · exact hn
        · have hbehind := h.behind c k hk
          omega
      · rw [AList.lookup_insert_ne hc] at hlook
        exact h.behind c k hlook

end WellFormed

/-- **The invariant rule, over well-formed states.** A step may be taken for what
`Sampled` and `Called` say about it. -/
theorem wellFormed_invariant {F : FloatUnit} {l : Logic} {I : WitchLogic → Prop}
    {C : WitchLogic → LogicOp → Prop}
    (hsample : ∀ σ event ok σ', WellFormed σ → I σ → C σ (.sample event) →
      Sampled σ event ok σ' → I σ')
    (htrigger : ∀ σ currEvent sampleEvent wpt a σ', WellFormed σ → I σ →
      C σ (.trigger currEvent sampleEvent wpt) → Called F l currEvent sampleEvent wpt σ a σ' → I σ')
    {σ : WitchLogic} {ops : List LogicOp} (hwf : WellFormed σ) (h : I σ)
    (hC : Along (logicStep F l) C σ ops) :
    WellFormed (runLogic F l σ ops) ∧ I (runLogic F l σ ops) := by
  refine runLogic_invariant (I := fun σ => WellFormed σ ∧ I σ) ?_ ?_ ⟨hwf, h⟩ hC
  · rintro σ event ⟨hwf, h⟩ hop
    have hs := witchOnSampleCallback_sampled hwf.tree event
    exact ⟨hwf.sampled hs, hsample σ event _ _ hwf h hop hs⟩
  · rintro σ currEvent sampleEvent wpt ⟨hwf, h⟩ hop
    have hc := witchOnWPCallback_called F l currEvent sampleEvent wpt σ
    exact ⟨hwf.called hc, htrigger σ currEvent sampleEvent wpt _ _ hwf h hop hc⟩

/-- **Every run leaves a logic well formed.** -/
theorem wellFormed_of_run (F : FloatUnit) (l : Logic) (ops : List LogicOp) :
    WellFormed (runLogic F l .new ops) := by
  have hrun : Along (logicStep F l) (fun _ _ => True) .new ops := along_of_forall fun _ _ => trivial
  exact (wellFormed_invariant (I := fun _ => True) (fun _ _ _ _ _ _ _ _ => trivial)
    (fun _ _ _ _ _ _ _ _ _ _ => trivial) wellFormed_new trivial hrun).1

/-! ### A small configuration, for examples -/

/-- Floats are equal when their bytes are, and no float is close to another. -/
def FloatUnit.bytewise : FloatUnit where
  ne := fun size oldValue newValue => (List.range size).any fun i => oldValue i ≠ newValue i
  farOff := fun _ _ _ => true
  percent := fun bad all => 100 * bad / all

/-- A build that compares instructions and defines nothing else. -/
def BuildFlags.instOnly : BuildFlags :=
  ⟨true, false, true, true, false, false, false, false⟩

/-- The event with a call stack, innermost frame first. -/
def Event.withStack (event : Event) (addrs : List ℤ) : Event :=
  { event with eventContext_agent := addrs.map fun addr => ⟨addr, 0⟩ }

end Kognizance
