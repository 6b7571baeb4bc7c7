import Kognizance.Lib.Run
import Kognizance.Witch.Steps

/-!
# RedSpy and LoadSpy

The two callbacks are copies of each other. They differ in the accesses they look for, in
the treatment of floats, in the frames of used values and in the type they give to the
context of a redundant one. Without floats, on accesses that both look for and in builds
that compare instructions alike, only the last difference remains.

* `Alike`: two logics that differ in `CONTEXTTYPE` at most.
* `twins_agree`: from equal states the two return the same actions and stay alike, along
  every run of updates that are no floats.
-/

namespace Kognizance

open Process WitchLogic

/-- The two contexts differ in `CONTEXTTYPE` at most. -/
structure Context.Alike (c d : Context) : Prop where
  frame : d.frame = c.frame
  children : d.children = c.children
  parent : d._parent = c._parent
  metric : ∀ m, m ≠ .contextType → d.metrics m = c.metrics m

/-- Other metrics on both sides. -/
theorem Context.Alike.withMetrics {c d : Context} (h : c.Alike d)
    {metrics metrics' : MetricType → MetricVal}
    (hmetrics : ∀ m, m ≠ .contextType → metrics' m = metrics m) :
    Context.Alike { c with metrics := metrics } { d with metrics := metrics' } :=
  ⟨h.frame, h.children, h.parent, hmetrics⟩

namespace WitchLogic

/-- The two logics differ in the `CONTEXTTYPE` of their contexts at most. -/
structure Alike (σ τ : WitchLogic) : Prop where
  context : ∀ c, (σ.context c).Alike (τ.context c)
  next : τ.nextContext = σ.nextContext
  deleted : τ.deleted = σ.deleted
  leafMap : τ.eventToContextLeafMap = σ.eventToContextLeafMap
  attr : τ.propAttrTable = σ.propAttrTable
  total : τ.total = σ.total
  watched : τ.watchedSampleCount = σ.watchedSampleCount

theorem Alike.refl (σ : WitchLogic) : Alike σ σ :=
  ⟨fun _ => ⟨rfl, rfl, rfl, fun _ _ => rfl⟩, rfl, rfl, rfl, rfl, rfl, rfl⟩

/-- Two heaps stay alike when alike contexts are put in the same place. -/
theorem alike_update {heap heap' : ℕ → Context} (h : ∀ x, (heap x).Alike (heap' x)) (i : ℕ)
    {c d : Context} (hcd : c.Alike d) (x : ℕ) :
    (Function.update heap i c x).Alike (Function.update heap' i d x) := by
  by_cases hx : x = i
  · subst hx
    rw [Function.update_self, Function.update_self]
    exact hcd
  · rw [Function.update_of_ne hx, Function.update_of_ne hx]
    exact h x

namespace Alike

variable {σ τ : WitchLogic}

/-- The same store into a metric on both sides. -/
theorem setMetric (h : Alike σ τ) (c : ℕ) (m : MetricType) (v : ℤ) :
    Alike (σ.setMetric c m v) (τ.setMetric c m v) := by
  refine { h with context := alike_update h.context c ((h.context c).withMetrics ?_) }
  intro m' hm'
  rw [Function.update_apply, Function.update_apply]
  split_ifs with hm
  · rw [(h.context c).metric m (hm ▸ hm')]
  · exact (h.context c).metric m' hm'

/-- A type on one side and another one on the other. -/
theorem setContextType (h : Alike σ τ) (c : ℕ) (ctype ctype' : ContextType) :
    Alike (σ.setContextType c ctype) (τ.setContextType c ctype') := by
  rw [setContextType_eq, setContextType_eq]
  refine { h with context := alike_update h.context c ((h.context c).withMetrics ?_) }
  intro m hm
  rw [Function.update_of_ne hm, Function.update_of_ne hm]
  exact (h.context c).metric m hm

theorem increment (h : Alike σ τ) (c : ℕ) {m : MetricType} (hm : m ≠ .contextType) (v : ℤ) :
    Alike (σ.increment c m v) (τ.increment c m v) := by
  unfold WitchLogic.increment
  rw [(h.context c).metric m hm]
  exact h.setMetric c m _

theorem findChild (h : Alike σ τ) (c : ℕ) (frame : ContextFrame) :
    τ.findChild c frame = σ.findChild c frame := by
  unfold WitchLogic.findChild
  rw [(h.context c).children]
  simp only [(h.context _).frame]

theorem insertChild (h : Alike σ τ) (p : ℕ) (frame : ContextFrame) :
    Alike (σ.insertChild p frame) (τ.insertChild p frame) := by
  unfold WitchLogic.insertChild
  rw [h.next]
  have hheap := alike_update h.context σ.nextContext
    (c := ⟨frame, fun _ => 0, [], some p⟩) ⟨rfl, rfl, rfl, fun _ _ => rfl⟩
  exact
    { h with
      context := alike_update hheap p
        { hheap p with children := congrArg (σ.nextContext :: ·) (hheap p).children }
      next := rfl }

/-- The walks end at the same context, whatever types they give. -/
theorem addFrames (h : Alike σ τ) (ctype ctype' : ContextType) (frames : List ContextFrame)
    (c : ℕ) :
    Alike (WitchLogic.addFrames ctype frames σ c).1 (WitchLogic.addFrames ctype' frames τ c).1 ∧
      (WitchLogic.addFrames ctype' frames τ c).2 = (WitchLogic.addFrames ctype frames σ c).2 := by
  -- over the frames; both find a child, or both insert the same one
  induction frames generalizing σ τ c with
  | nil => exact ⟨h, rfl⟩
  | cons frame frames ih =>
    unfold WitchLogic.addFrames
    rw [h.findChild]
    cases σ.findChild c frame with
    | some d => exact ih (h.setContextType d ctype ctype') d
    | none =>
      rw [h.next]
      exact ih ((h.insertChild c frame).setContextType σ.nextContext ctype ctype') σ.nextContext

/-- Adding to a total. -/
theorem addTotal (h : Alike σ τ) (m : MetricType) (inc : ℕ) :
    Alike { σ with total := Function.update σ.total m (σ.total m + inc) }
      { τ with total := Function.update τ.total m (τ.total m + inc) } :=
  { h with
    total := by
      change Function.update τ.total m (τ.total m + inc)
        = Function.update σ.total m (σ.total m + inc)
      rw [h.total] }

theorem inefficiencyOf (h : Alike σ τ) (F : FloatUnit) {bad : List MetricType}
    (hbad : MetricType.contextType ∉ bad) (c : ℕ) :
    inefficiencyOf F bad τ c = inefficiencyOf F bad σ c := by
  have hmetric : ∀ m ∈ bad, ((τ.context c).metrics m).i = ((σ.context c).metrics m).i := by
    intro m hm
    rw [(h.context c).metric m fun heq => hbad (heq ▸ hm)]
  unfold Kognizance.inefficiencyOf
  rw [List.map_congr_left hmetric, (h.context c).metric .usedBytes nofun]

/-- Storing the share on both sides. -/
theorem setInefficiency (h : Alike σ τ) (F : FloatUnit) {bad : List MetricType}
    (hbad : MetricType.contextType ∉ bad) (c : ℕ) :
    Alike (σ.setMetric c .inefficiency (Kognizance.inefficiencyOf F bad σ c))
      (τ.setMetric c .inefficiency (Kognizance.inefficiencyOf F bad τ c)) := by
  rw [h.inefficiencyOf F hbad]
  exact h.setMetric c .inefficiency _

theorem addUsed (h : Alike σ τ) (F : FloatUnit) {bad : List MetricType}
    (hbad : MetricType.contextType ∉ bad) (currEvent : Event) (leafContext inc : ℕ) :
    Alike (addUsed F bad true false currEvent leafContext inc σ)
      (addUsed F bad true false currEvent leafContext inc τ) := by
  have hused : MetricType.usedBytes ≠ .contextType := nofun
  exact ((h.addTotal .usedBytes inc).increment leafContext hused inc).setInefficiency F hbad
    leafContext

theorem addWasted (h : Alike σ τ) (F : FloatUnit) {bad : List MetricType}
    (hbad : MetricType.contextType ∉ bad) {m : MetricType} (hm : m ≠ .contextType)
    (ctype ctype' : ContextType) (currEvent : Event) (leafContext inc : ℕ) :
    Alike (addWasted F bad m ctype currEvent leafContext inc σ)
      (addWasted F bad m ctype' currEvent leafContext inc τ) := by
  obtain ⟨hwalk, hend⟩ := (h.addTotal m inc).addFrames ctype ctype' currEvent.eventContext_agent
    leafContext
  unfold Kognizance.addWasted addFramesToContextTree
  simp only [if_neg Bool.false_ne_true, hend]
  exact ((hwalk.increment _ hm inc).increment leafContext hm inc).setInefficiency F hbad leafContext

theorem takePending (h : Alike σ τ) (currEvent sampleEvent : Event) (leafContext : ℕ) :
    (takePending currEvent sampleEvent leafContext τ).1
        = (takePending currEvent sampleEvent leafContext σ).1 ∧
      Alike (takePending currEvent sampleEvent leafContext σ).2
        (takePending currEvent sampleEvent leafContext τ).2 := by
  unfold Kognizance.takePending getNumDiffSamplesAndReset
  rw [h.attr]
  cases σ.propAttrTable.lookup leafContext with
  | none => exact ⟨rfl, h⟩
  | some n => exact ⟨rfl, { h with attr := rfl }⟩

theorem remove (h : Alike σ τ) (event : Event) :
    Alike (σ.removeEventContextMapEntry event) (τ.removeEventContextMapEntry event) :=
  { h with leafMap := congrArg (AList.erase event.eventId) h.leafMap }

theorem finish (h : Alike σ τ) (event : Event) : Alike (finish event σ) (finish event τ) := by
  have hcount : Alike { σ with watchedSampleCount := σ.watchedSampleCount + 1 }
      { τ with watchedSampleCount := τ.watchedSampleCount + 1 } :=
    { h with watched := congrArg (· + 1) h.watched }
  exact hcount.remove event

theorem witchOnSampleCallback (h : Alike σ τ) (event : Event) :
    (τ.witchOnSampleCallback event).1 = (σ.witchOnSampleCallback event).1 ∧
      Alike (σ.witchOnSampleCallback event).2 (τ.witchOnSampleCallback event).2 := by
  -- both logics walk the frames from the root in the same direction
  have hdirected : ∀ ρ : WitchLogic, ρ.addFramesToContextTree event.eventContext_agent
      contextTreeRoot true .sampledContext
      = WitchLogic.addFrames .sampledContext event.eventContext_agent.reverse ρ contextTreeRoot :=
    fun _ => rfl
  -- the walks are alike, and end at the same context
  have hwalk := h.addFrames .sampledContext .sampledContext event.eventContext_agent.reverse
    contextTreeRoot
  unfold WitchLogic.witchOnSampleCallback
  rw [hdirected, hdirected]
  generalize WitchLogic.addFrames .sampledContext event.eventContext_agent.reverse σ
    contextTreeRoot = added at hwalk ⊢
  generalize WitchLogic.addFrames .sampledContext event.eventContext_agent.reverse τ
    contextTreeRoot = added' at hwalk ⊢
  obtain ⟨σ₁, leafContext⟩ := added
  obtain ⟨τ₁, leafContext'⟩ := added'
  obtain ⟨halike, rfl⟩ : Alike σ₁ τ₁ ∧ leafContext' = leafContext := hwalk
  simp only
  split_ifs
  · refine ⟨rfl, { halike with leafMap := ?_, attr := ?_ }⟩
    · simp only [halike.leafMap]
    · simp only [halike.attr]
  · exact ⟨rfl, halike⟩

end Alike

end WitchLogic

/-! ### The two callbacks -/

/-- The trigger may load and store, and is no float. -/
def UpdatesIntegers : LogicOp → Prop
  | .sample _ => True
  | .trigger currEvent _ _ =>
    currEvent.accessType = .loadAndStore ∧ currEvent.floatType = .elemTypeUnknown

/-- What a callback returns. -/
inductive Answer
  | sampled (ok : Bool)
  | triggered (action : WPTriggerAction)

/-- One step of a run, with what it returns. -/
def answerStep (F : FloatUnit) (l : Logic) (σ : WitchLogic) : LogicOp → Outcome WitchLogic Answer
  | .sample event =>
    let r := σ.witchOnSampleCallback event
    .running (.sampled r.1) r.2
  | .trigger currEvent sampleEvent wpt =>
    let r := l.witchOnWPCallback F currEvent sampleEvent wpt σ
    .running (.triggered r.1) r.2

section Twins

variable {b : BuildFlags} {σ τ : WitchLogic} {currEvent : Event} (F : FloatUnit)
  (sampleEvent : Event) (wpt : WPTriggerInfo)

/-- What is no float is compared as an integer by both. -/
theorem twins_finding (hfloat : currEvent.floatType = .elemTypeUnknown) :
    (loadSpy b).finding F currEvent sampleEvent wpt
        = (redSpy b).finding F currEvent sampleEvent wpt ∧
      ((redSpy b).finding F currEvent sampleEvent wpt = .red ∨
        (redSpy b).finding F currEvent sampleEvent wpt = .used) := by
  unfold Spy.finding
  rw [hfloat]
  refine ⟨rfl, ?_⟩
  simp only
  unfold Spy.treatLikeInteger
  split_ifs
  · exact Or.inl rfl
  · exact Or.inr rfl

theorem contextType_notMem_spyBad : MetricType.contextType ∉ spyBad := by decide

/-- **One trigger.** -/
theorem twins_trigger (hinst : b.redSpyInst = b.loadSpyInst) (hshow : b.showUsedContext = false)
    (h : Alike σ τ) (hacc : currEvent.accessType = .loadAndStore)
    (hfloat : currEvent.floatType = .elemTypeUnknown) :
    ((loadSpy b).witchOnWPCallback F currEvent sampleEvent wpt τ).1
        = ((redSpy b).witchOnWPCallback F currEvent sampleEvent wpt σ).1 ∧
      Alike ((redSpy b).witchOnWPCallback F currEvent sampleEvent wpt σ).2
        ((loadSpy b).witchOnWPCallback F currEvent sampleEvent wpt τ).2 := by
  have haccepts : (loadSpy b).accepts currEvent sampleEvent wpt
      = (redSpy b).accepts currEvent sampleEvent wpt := rfl
  have hfixed : (loadSpy b).checksFixedIP = (redSpy b).checksFixedIP := hinst.symm
  obtain ⟨hfound, hkind⟩ := twins_finding (b := b) F sampleEvent wpt hfloat
  unfold Spy.witchOnWPCallback
  have hlooks : ∀ s : Spy,
      ¬ (currEvent.accessType ≠ s.watches ∧ currEvent.accessType ≠ .loadAndStore) :=
    fun _ hno => hno.2 hacc
  rw [if_neg (hlooks _), if_neg (hlooks _), hfixed, h.leafMap]
  by_cases hmismatch : (redSpy b).checksFixedIP = true ∧ sampleEvent.fixedIP ≠ currEvent.fixedIP
  · rw [if_pos hmismatch, if_pos hmismatch]
    exact ⟨rfl, h⟩
  rw [if_neg hmismatch, if_neg hmismatch]
  cases σ.eventToContextLeafMap.lookup sampleEvent.eventId with
  | none => exact ⟨rfl, h.remove sampleEvent⟩
  | some leafContext =>
    obtain ⟨hweight, htaken⟩ := h.takePending currEvent sampleEvent leafContext
    simp only [haccepts, hweight]
    by_cases hno : (redSpy b).accepts currEvent sampleEvent wpt = false
    · rw [if_pos hno, if_pos hno]
      exact ⟨rfl, h.remove sampleEvent⟩
    rw [if_neg hno, if_neg hno]
    by_cases hinc : (takePending currEvent sampleEvent leafContext σ).1
        * sampleEvent.accessLength.toNat = 0
    · rw [if_pos hinc, if_pos hinc]
      exact ⟨rfl, htaken.remove sampleEvent⟩
    rw [if_neg hinc, if_neg hinc]
    refine ⟨rfl, Alike.finish ?_ sampleEvent⟩
    rw [hfound]
    rcases hkind with hred | hused
    · -- the two give different types to the context of a redundant value
      rw [hred]
      have hmetric : Finding.red.metric ≠ .contextType := nofun
      exact htaken.addWasted F contextType_notMem_spyBad hmetric .redContext .sampledContext
        currEvent leafContext _
    · rw [hused]
      unfold Spy.record redSpy loadSpy
      simp only [hshow]
      exact htaken.addUsed F contextType_notMem_spyBad currEvent leafContext _

end Twins

/-- The answers come from the steps of the run. -/
theorem exec_answerStep (F : FloatUnit) (l : Logic) (σ : WitchLogic) (ops : List LogicOp) :
    (exec (answerStep F l) σ ops).state = runLogic F l σ ops := by
  unfold runLogic
  induction ops generalizing σ with
  | nil => rfl
  | cons op ops ih =>
    cases op with
    | sample event => exact ih (σ.witchOnSampleCallback event).2
    | trigger currEvent sampleEvent wpt =>
      exact ih (l.witchOnWPCallback F currEvent sampleEvent wpt σ).2

/-- **RedSpy and LoadSpy agree.** In builds that treat instructions alike and show no used
contexts, they return the same and leave alike states, from every state and along every run
whose triggers are updates of integers. -/
theorem twins_agree (F : FloatUnit) {b : BuildFlags} (hinst : b.redSpyInst = b.loadSpyInst)
    (hshow : b.showUsedContext = false) (σ : WitchLogic) {ops : List LogicOp}
    (hops : ∀ op ∈ ops, UpdatesIntegers op) :
    values (answerStep F (Logic.ofType b .redSpy)) σ ops
        = values (answerStep F (Logic.ofType b .loadSpy)) σ ops ∧
      Alike (runLogic F (Logic.ofType b .redSpy) σ ops)
        (runLogic F (Logic.ofType b .loadSpy) σ ops) := by
  rw [← exec_answerStep, ← exec_answerStep]
  refine lockstep (R := Alike) ?_ (.refl σ) hops
  intro σ τ op h hop
  cases op with
  | sample event =>
    obtain ⟨hok, hstate⟩ := h.witchOnSampleCallback event
    exact ⟨_, _, _, rfl, congrArg (fun ok => Outcome.running (Answer.sampled ok) _) hok, hstate⟩
  | trigger currEvent sampleEvent wpt =>
    obtain ⟨haction, hstate⟩ := twins_trigger F sampleEvent wpt hinst hshow h hop.1 hop.2
    exact ⟨_, _, _, rfl,
      congrArg (fun action => Outcome.running (Answer.triggered action) _) haction, hstate⟩

/-- An update of the sampled address that leaves the old value. -/
def updateAgain : Event :=
  { (Event.storeAt 2 0x1000).withStack [0x50] with accessType := .loadAndStore }

theorem twins_agree_updateAgain :
    let b := BuildFlags.instOnly
    let sampleEvent := (Event.storeAt 1 0x1000).withStack [0x40]
    let ops := [.sample sampleEvent, .trigger updateAgain sampleEvent ⟨0x1000, 8⟩]
    (runLogic .bytewise (Logic.ofType b .redSpy) .new ops).total .redBytes = 800024 ∧
      (runLogic .bytewise (Logic.ofType b .loadSpy) .new ops).total .redBytes = 800024 := by
  intro b sampleEvent ops
  have hops : ∀ op ∈ ops, UpdatesIntegers op := by
    intro op hop
    rcases List.mem_cons.mp hop with rfl | hop
    · trivial
    · obtain rfl := List.mem_singleton.mp hop
      exact ⟨rfl, rfl⟩
  have hred : (runLogic .bytewise (Logic.ofType b .redSpy) .new ops).total .redBytes = 800024 := by
    decide +kernel
  have halike := (twins_agree .bytewise (b := b) rfl rfl .new hops).2
  exact ⟨hred, (congrFun halike.total .redBytes).trans hred⟩

end Kognizance
