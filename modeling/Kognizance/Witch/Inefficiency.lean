import Mathlib.Algebra.Order.BigOperators.Group.List
import Mathlib.Algebra.Order.Group.Int
import Kognizance.Witch.PerContext

/-!
# The stored inefficiency

`INEFFICIENCY` is the share of a context's wasted bytes, recomputed by hand next to the
increments. The increments of the watched context are not among them, nor is the one for a
float that was used in RedSpy and DupSpy, and a context may have got bytes before it is
sampled.

* `Logic.record_inefficiency`: what attributing bytes stores.
* `upToDate_of_run`: in every run whose steps meet `KeepsUpToDate`, the stored value is
  the share of the context's current metrics in every state.
* `floatUsed_stale`: a run after which it is not.
-/

namespace Kognizance

open Process WitchLogic

/-! ### What is stored -/

/-- The metrics that count as wasted. -/
def Logic.bad : Logic → List MetricType
  | .spy _ => spyBad
  | .waste _ => [.deadBytes]

/-- `INEFFICIENCY` is stored for the finding. -/
def Logic.Refreshes : Logic → Finding → Prop
  -- only LoadSpy recomputes the share when a float turns out to differ
  | .spy s, .floatUsed => s.floatUsedInefficiency = true
  | _, _ => True

/-- The bytes of a context that were wasted. -/
def wastedBytes (l : Logic) (σ : WitchLogic) (c : ℕ) : ℤ :=
  (l.bad.map fun m => ((σ.context c).metrics m).i).sum

/-- All bytes of a context. -/
def allBytes (l : Logic) (σ : WitchLogic) (c : ℕ) : ℤ :=
  wastedBytes l σ c + ((σ.context c).metrics .usedBytes).i

/-- The metrics a logic counts. -/
def Logic.counted (l : Logic) : List MetricType := .usedBytes :: l.bad

theorem Logic.counted_ne {l : Logic} {m : MetricType} (hm : m ∈ l.counted) :
    m ≠ .inefficiency ∧ m ≠ .contextType := by
  have hspy : ∀ m ∈ MetricType.usedBytes :: spyBad, m ≠ .inefficiency ∧ m ≠ .contextType := by
    decide
  have hwaste : ∀ m ∈ [MetricType.usedBytes, .deadBytes],
      m ≠ .inefficiency ∧ m ≠ .contextType := by
    decide
  cases l with
  | spy => exact hspy m hm
  | waste => exact hwaste m hm

theorem Logic.usedBytes_notMem_bad (l : Logic) : MetricType.usedBytes ∉ l.bad := by
  cases l with
  | spy => exact (by decide : MetricType.usedBytes ∉ spyBad)
  | waste => exact (by decide : MetricType.usedBytes ∉ [MetricType.deadBytes])

section Stored

variable {l : Logic} {σ σ' : WitchLogic} {c : ℕ}

theorem wastedBytes_congr
    (h : ∀ m ∈ l.bad, ((σ'.context c).metrics m).i = ((σ.context c).metrics m).i) :
    wastedBytes l σ' c = wastedBytes l σ c := by
  unfold wastedBytes
  rw [List.map_congr_left h]

theorem allBytes_congr
    (h : ∀ m ∈ l.counted, ((σ'.context c).metrics m).i = ((σ.context c).metrics m).i) :
    allBytes l σ' c = allBytes l σ c := by
  unfold allBytes
  rw [wastedBytes_congr fun m hm => h m (List.mem_cons_of_mem _ hm),
    h .usedBytes List.mem_cons_self]

theorem inefficiencyOf_eq (F : FloatUnit) (l : Logic) (σ : WitchLogic) (c : ℕ) :
    inefficiencyOf F l.bad σ c = F.percent (wastedBytes l σ c) (allBytes l σ c) := rfl

/-- `σ'` has the share of the metrics of `leafContext` stored if `stores` holds, and the old
value otherwise. -/
def Stores (F : FloatUnit) (l : Logic) (σ σ' : WitchLogic) (leafContext : ℕ) (stores : Prop) :
    Prop :=
  ∀ x, (¬ (x = leafContext ∧ stores) → ((σ'.context x).metrics .inefficiency).i
      = ((σ.context x).metrics .inefficiency).i) ∧
    (x = leafContext ∧ stores → ((σ'.context x).metrics .inefficiency).i
      = F.percent (wastedBytes l σ' x) (allBytes l σ' x))

/-- Storing the share. -/
theorem stores_setMetric (F : FloatUnit) (l : Logic) (σ : WitchLogic) (leafContext : ℕ) :
    Stores F l σ (σ.setMetric leafContext .inefficiency (inefficiencyOf F l.bad σ leafContext))
      leafContext True := by
  intro x
  simp only [and_true]
  constructor
  · intro hx
    rw [setMetric_i, if_neg fun h => hx h.1]
  · rintro rfl
    -- the store itself moves none of the metrics the share is made of
    have hsame : ∀ m ∈ l.counted,
        (((σ.setMetric x .inefficiency (inefficiencyOf F l.bad σ x)).context x).metrics m).i
          = ((σ.context x).metrics m).i := by
      intro m hm
      rw [setMetric_i, if_neg fun h => (Logic.counted_ne hm).1 h.2]
    rw [setMetric_i, if_pos ⟨rfl, rfl⟩, allBytes_congr hsame,
      wastedBytes_congr fun m hm => hsame m (List.mem_cons_of_mem _ hm)]
    exact inefficiencyOf_eq F l σ x

/-- What does not touch `INEFFICIENCY` may happen before. -/
theorem Stores.of_before {F : FloatUnit} {leafContext : ℕ} {stores : Prop} {τ : WitchLogic}
    (h : Stores F l σ σ' leafContext stores)
    (hbefore : ∀ x, ((σ.context x).metrics .inefficiency).i
      = ((τ.context x).metrics .inefficiency).i) :
    Stores F l τ σ' leafContext stores :=
  fun x => ⟨fun hno => ((h x).1 hno).trans (hbefore x), (h x).2⟩

/-- The tree may grow afterwards. -/
theorem Stores.grown {F : FloatUnit} {leafContext : ℕ} {stores : Prop} {τ : WitchLogic}
    (h : Stores F l σ σ' leafContext stores) (hg : Grown σ' τ) :
    Stores F l σ τ leafContext stores := by
  intro x
  have hsame : ∀ m ∈ l.counted,
      ((τ.context x).metrics m).i = ((σ'.context x).metrics m).i :=
    fun m hm => hg.metric x m (Logic.counted_ne hm).2
  rw [hg.metric x .inefficiency (by decide), allBytes_congr hsame,
    wastedBytes_congr fun m hm => hsame m (List.mem_cons_of_mem _ hm)]
  exact h x

theorem Stores.showUsed {F : FloatUnit} {leafContext : ℕ} {stores : Prop}
    (h : Stores F l σ σ' leafContext stores) (htree : σ'.TreeOk)
    (hlt : leafContext < σ'.nextContext) (shows : Bool) (frames : List ContextFrame) :
    Stores F l σ (if shows then
        (σ'.addFramesToContextTree frames leafContext false .usedContext).1 else σ')
      leafContext stores := by
  cases shows with
  | false => exact h
  | true => exact h.grown (htree.addFrames .usedContext hlt frames).2.2.1

theorem addUsed_stores (F : FloatUnit) (l : Logic) (updates shows : Bool) (currEvent : Event)
    {leafContext : ℕ} (h : σ.TreeOk) (hleaf : leafContext < σ.nextContext) (inc : ℕ) :
    Stores F l σ (addUsed F l.bad updates shows currEvent leafContext inc σ) leafContext
      (updates = true) := by
  have hrec := recorded_increment h hleaf .usedBytes inc
  have hlt := hleaf.trans_le hrec.next
  have hbefore : ∀ x, (((WitchLogic.increment { σ with
        total := Function.update σ.total .usedBytes (σ.total .usedBytes + inc) }
        leafContext .usedBytes inc).context x).metrics .inefficiency).i
      = ((σ.context x).metrics .inefficiency).i := by
    intro x
    rw [increment_i, if_neg (fun hx => nomatch hx.2)]
    exact add_zero _
  cases updates with
  | false =>
    -- nothing is stored, so there is nothing to compare
    refine Stores.showUsed (fun x => ⟨fun _ => hbefore x, fun hx => ?_⟩) hrec.tree hlt shows
      currEvent.eventContext_agent
    exact absurd hx.2 Bool.false_ne_true
  | true =>
    have hstores := (stores_setMetric F l _ leafContext).of_before hbefore
    rw [eq_self_iff_true]
    exact hstores.showUsed (hrec.tree.setMetric hlt _ _) hlt shows currEvent.eventContext_agent

theorem addWasted_stores (F : FloatUnit) (l : Logic) (m : MetricType) (ctype : ContextType)
    (currEvent : Event) {leafContext : ℕ} (hm : m ≠ .inefficiency) (h : σ.TreeOk)
    (hleaf : leafContext < σ.nextContext) (inc : ℕ) :
    Stores F l σ (addWasted F l.bad m ctype currEvent leafContext inc σ) leafContext True := by
  have htree₀ : TreeOk { σ with total := Function.update σ.total m (σ.total m + inc) } :=
    h.congr rfl rfl
  have hg := (htree₀.addFrames ctype hleaf currEvent.eventContext_agent).2.2.1
  -- the share is stored last, after both contexts have got their bytes
  refine (stores_setMetric F l _ leafContext).of_before fun x => ?_
  rw [increment_i, increment_i, if_neg (fun hx => hm hx.2.symm), if_neg (fun hx => hm hx.2.symm),
    add_zero, add_zero]
  exact hg.metric x .inefficiency (by decide)

/-- Only a spy that finds a different float may store nothing. -/
theorem Logic.of_not_refreshes {found : Finding} (h : ¬ l.Refreshes found) :
    found.metric = .usedBytes ∧ l.takesFirst = false := by
  cases l with
  | spy s =>
    cases found with
    | floatUsed => exact ⟨rfl, rfl⟩
    | used | red | approxRed | dead => exact absurd trivial h
  | waste => exact absurd trivial h

theorem Finding.metric_ne (found : Finding) : found.metric ≠ .inefficiency := by
  cases found <;> decide

/-- **What attributing bytes stores.** -/
theorem Logic.record_inefficiency (F : FloatUnit) (l : Logic) (found : Finding)
    (currEvent : Event) {leafContext : ℕ} (h : σ.TreeOk) (hleaf : leafContext < σ.nextContext)
    (inc : ℕ) :
    Stores F l σ (l.record F found currEvent leafContext inc σ) leafContext
      (l.Refreshes found) := by
  cases l with
  | spy s =>
    -- by what the callback has found; `UsedBytes` updates the leaf, waste always does
    cases found with
    | used =>
      have hstores := addUsed_stores F (.spy s) true s.showsUsed currEvent h hleaf inc
      rwa [eq_self_iff_true] at hstores
    -- the float branch computes the share in some of the logics only
    | floatUsed =>
      exact addUsed_stores F (.spy s) s.floatUsedInefficiency s.showsUsed currEvent h hleaf inc
    | red | approxRed | dead =>
      exact addWasted_stores F (.spy s) _ s.redContextType currEvent (Finding.metric_ne _) h
        hleaf inc
  | waste w =>
    cases found with
    | used | floatUsed =>
      have hstores := addUsed_stores F (.waste w) true false currEvent h hleaf inc
      rwa [eq_self_iff_true] at hstores
    | red | approxRed | dead =>
      exact addWasted_stores F (.waste w) _ .sampledContext currEvent (Finding.metric_ne _) h
        hleaf inc

end Stored

/-! ### One step -/

/-- The stored value of a sampled context that has bytes is the share of its metrics. -/
def UpToDate (l : Logic) (σ : WitchLogic) : Prop :=
  ∀ c ∈ σ.propAttrTable, allBytes l σ c ≠ 0 →
    ((σ.context c).metrics .inefficiency).i = 100 * wastedBytes l σ c / allBytes l σ c

/-- A sample does not end at a context that was only watched so far and has bytes, a trigger
that finds waste does not lead to another sampled context, and a float that was used is only
found where nothing was wasted yet, unless the logic stores the share then. -/
def KeepsUpToDate (F : FloatUnit) (l : Logic) (σ : WitchLogic) : LogicOp → Prop
  | .sample event => event.eventContext_agent ≠ [] → ∀ c,
      σ.follow event.eventContext_agent.reverse contextTreeRoot = some c →
      c ∉ σ.propAttrTable → allBytes l σ c = 0
  | .trigger currEvent sampleEvent wpt => ∀ leafContext,
      Attributes l currEvent sampleEvent wpt σ leafContext →
      (l.Refreshes (l.finding F currEvent sampleEvent wpt) ∨ wastedBytes l σ leafContext = 0) ∧
      ((l.finding F currEvent sampleEvent wpt).metric ≠ .usedBytes → ∀ node,
        σ.follow currEvent.eventContext_agent leafContext = some node →
        node = leafContext ∨ node ∉ σ.propAttrTable)

/-- What a run keeps. A spy stores the share only once there are bytes. -/
structure KeptUpToDate (l : Logic) (σ : WitchLogic) : Prop where
  upToDate : UpToDate l σ
  nonneg : ∀ c, ∀ m ∈ l.counted, 0 ≤ ((σ.context c).metrics m).i
  unsampled : ∀ c, c ∉ σ.propAttrTable → ((σ.context c).metrics .inefficiency).i = 0
  empty : l.takesFirst = false → ∀ c, allBytes l σ c = 0 →
    ((σ.context c).metrics .inefficiency).i = 0

/-- `((float)bad / all) * 100` is computed exactly and truncated. -/
def FloatUnit.ExactPercent (F : FloatUnit) : Prop :=
  ∀ wasted all, 0 ≤ wasted → wasted ≤ all → 0 < all → F.percent wasted all = 100 * wasted / all

section Step

variable {F : FloatUnit} {l : Logic} {σ σ' : WitchLogic}

/-- None of the metrics is more than their sum. -/
theorem metric_le_allBytes {c : ℕ} {m : MetricType}
    (hnonneg : ∀ m ∈ l.counted, 0 ≤ ((σ.context c).metrics m).i) (hm : m ∈ l.counted) :
    ((σ.context c).metrics m).i ≤ allBytes l σ c := by
  have hsum : allBytes l σ c = (l.counted.map fun m => ((σ.context c).metrics m).i).sum := by
    rw [allBytes, wastedBytes, add_comm]
    rfl
  rw [hsum]
  refine List.single_le_sum (fun v hv => ?_) _ (List.mem_map_of_mem hm)
  obtain ⟨m', hm', rfl⟩ := List.mem_map.mp hv
  exact hnonneg m' hm'

theorem wastedBytes_nonneg {c : ℕ}
    (hnonneg : ∀ m ∈ l.counted, 0 ≤ ((σ.context c).metrics m).i) : 0 ≤ wastedBytes l σ c := by
  refine List.sum_nonneg fun v hv => ?_
  obtain ⟨m, hm, rfl⟩ := List.mem_map.mp hv
  exact hnonneg m (List.mem_cons_of_mem _ hm)

/-- What a logic finds, it counts. -/
theorem Logic.finding_metric_counted (F : FloatUnit) (l : Logic)
    (currEvent sampleEvent : Event) (wpt : WPTriggerInfo) :
    (l.finding F currEvent sampleEvent wpt).metric ∈ l.counted := by
  cases l with
  | spy s =>
    have hne := s.finding_ne_dead F currEvent sampleEvent wpt
    unfold Logic.finding
    simp only
    cases hfound : s.finding F currEvent sampleEvent wpt with
    | used | floatUsed | red | approxRed =>
      simp [Logic.counted, Logic.bad, spyBad, Finding.metric]
    | dead => exact absurd hfound hne
  | waste w =>
    unfold Logic.finding
    simp only
    split_ifs <;> simp [Logic.counted, Logic.bad, Finding.metric]

namespace KeptUpToDate

/-- Only the sampled contexts and the metrics matter. -/
theorem congr (h : KeptUpToDate l σ) (hkeys : ∀ c, c ∈ σ'.propAttrTable ↔ c ∈ σ.propAttrTable)
    (hcontext : σ'.context = σ.context) : KeptUpToDate l σ' where
  -- every clause is about metrics of contexts, which are the same
  upToDate := by
    intro c hc
    have h := h.upToDate c ((hkeys c).mp hc)
    unfold allBytes wastedBytes at h ⊢
    rw [hcontext]
    exact h
  nonneg := by
    rw [hcontext]
    exact h.nonneg
  unsampled := by
    intro c hc
    rw [hcontext]
    exact h.unsampled c fun hmem => hc ((hkeys c).mpr hmem)
  empty := by
    intro hspy c
    have h := h.empty hspy c
    unfold allBytes wastedBytes at h ⊢
    rw [hcontext]
    exact h

/-- The stored value of a spy's context that has wasted nothing. -/
theorem inefficiency_eq_zero (h : KeptUpToDate l σ) (hspy : l.takesFirst = false) {c : ℕ}
    (hkey : c ∈ σ.propAttrTable) (hwasted : wastedBytes l σ c = 0) :
    ((σ.context c).metrics .inefficiency).i = 0 := by
  by_cases hall : allBytes l σ c = 0
  · exact h.empty hspy c hall
  · rw [h.upToDate c hkey hall, hwasted, mul_zero, Int.zero_ediv]

section Recorded

variable {leafContext inc : ℕ} {m : MetricType} {extra : Option ℕ} {stores : Prop}

/-- Where the bytes go that are attributed. -/
theorem counted_recorded (hrec : Recorded σ σ' leafContext inc m extra) (x : ℕ)
    {m' : MetricType} (hm' : m' ∈ l.counted) :
    ((σ'.context x).metrics m').i = ((σ.context x).metrics m').i
      + (if x = leafContext ∧ m' = m then (inc : ℤ) else 0)
      + if some x = extra ∧ m' = m then (inc : ℤ) else 0 :=
  hrec.metric x m' (Logic.counted_ne hm').1 (Logic.counted_ne hm').2

theorem counted_le_recorded (hrec : Recorded σ σ' leafContext inc m extra) (x : ℕ)
    {m' : MetricType} (hm' : m' ∈ l.counted) :
    ((σ.context x).metrics m').i ≤ ((σ'.context x).metrics m').i := by
  rw [counted_recorded hrec x hm']
  split_ifs <;> omega

/-- A sampled context that is not the one of the trigger gets no bytes. -/
theorem counted_eq_recorded (hrec : Recorded σ σ' leafContext inc m extra)
    (hextra : inc ≠ 0 → ∀ node, extra = some node → node = leafContext ∨ node ∉ σ.propAttrTable)
    {x : ℕ} (hx : x ∈ σ.propAttrTable) (hleaf : x ≠ leafContext) {m' : MetricType}
    (hm' : m' ∈ l.counted) :
    ((σ'.context x).metrics m').i = ((σ.context x).metrics m').i := by
  have hother : inc ≠ 0 → extra ≠ some x :=
    fun hinc hnode => (hextra hinc x hnode).elim hleaf fun hout => hout hx
  rw [counted_recorded hrec x hm', if_neg fun hx => hleaf hx.1, extra_eq_zero hother, add_zero,
    add_zero]

theorem nonneg_recorded (h : KeptUpToDate l σ) (hrec : Recorded σ σ' leafContext inc m extra)
    (x : ℕ) {m' : MetricType} (hm' : m' ∈ l.counted) : 0 ≤ ((σ'.context x).metrics m').i :=
  (h.nonneg x m' hm').trans (counted_le_recorded hrec x hm')

/-- The context of the trigger has its share stored, or nothing of it is wasted. -/
theorem recorded_leaf (hF : F.ExactPercent) (h : KeptUpToDate l σ)
    (hrec : Recorded σ σ' leafContext inc m extra) (hst : Stores F l σ σ' leafContext stores)
    (hkey : leafContext ∈ σ.propAttrTable)
    (hstores : stores ∨ (m = .usedBytes ∧ l.takesFirst = false ∧
      wastedBytes l σ leafContext = 0)) (hall : allBytes l σ' leafContext ≠ 0) :
    ((σ'.context leafContext).metrics .inefficiency).i
      = 100 * wastedBytes l σ' leafContext / allBytes l σ' leafContext := by
  by_cases hs : stores
  · -- the share has just been computed, from the metrics as they are now
    have hnonneg : ∀ m' ∈ l.counted, 0 ≤ ((σ'.context leafContext).metrics m').i :=
      fun m' hm' => h.nonneg_recorded hrec leafContext hm'
    have hused := hnonneg .usedBytes List.mem_cons_self
    have hwasted := wastedBytes_nonneg hnonneg
    rw [(hst leafContext).2 ⟨rfl, hs⟩]
    unfold allBytes at hall ⊢
    exact hF _ _ hwasted (by omega) (by omega)
  · -- a float was used: nothing is wasted, before and after
    obtain ⟨rfl, hfirst, hzero⟩ := hstores.resolve_left hs
    have hsame : wastedBytes l σ' leafContext = 0 := by
      rw [← hzero]
      refine wastedBytes_congr fun m' hm' => ?_
      have hne : m' ≠ .usedBytes := fun heq => l.usedBytes_notMem_bad (heq ▸ hm')
      rw [counted_recorded hrec leafContext (List.mem_cons_of_mem _ hm'),
        if_neg fun hx => hne hx.2, if_neg fun hx => hne hx.2, add_zero, add_zero]
    rw [(hst leafContext).1 fun hx => hs hx.2, h.inefficiency_eq_zero hfirst hkey hzero, hsame,
      mul_zero, Int.zero_ediv]

/-- A spy's context that has no bytes afterwards is not the one of the trigger, and had none
before. -/
theorem empty_recorded (h : KeptUpToDate l σ) (hrec : Recorded σ σ' leafContext inc m extra)
    (hm : m ∈ l.counted) (hinc : inc ≠ 0) {x : ℕ} (hall : allBytes l σ' x = 0) :
    x ≠ leafContext ∧ allBytes l σ x = 0 := by
  -- a sum of nonnegative metrics is 0 only if each of them is
  have hzero : ∀ m' ∈ l.counted, ((σ'.context x).metrics m').i = 0 := by
    intro m' hm'
    have hle := metric_le_allBytes (fun m' hm' => h.nonneg_recorded hrec x hm') hm'
    exact le_antisymm (hall ▸ hle) (h.nonneg_recorded hrec x hm')
  constructor
  · -- the context of the trigger has got `inc` bytes just now
    rintro rfl
    have hnew := counted_recorded hrec x hm
    rw [hzero m hm, if_pos ⟨rfl, rfl⟩] at hnew
    have hold := h.nonneg x m hm
    split_ifs at hnew <;> omega
  · rw [← hall]
    refine (allBytes_congr fun m' hm' => ?_).symm
    have hle := counted_le_recorded hrec x hm'
    have hold := h.nonneg x m' hm'
    have hnew := hzero m' hm'
    omega

/-- **Attributing bytes.** The sampled context has its share stored, or nothing of it is
wasted; the other context is not sampled. -/
theorem recorded (hF : F.ExactPercent) (h : KeptUpToDate l σ)
    (hrec : Recorded σ σ' leafContext inc m extra) (hst : Stores F l σ σ' leafContext stores)
    (hkey : leafContext ∈ σ.propAttrTable) (hm : m ∈ l.counted)
    (hstores : stores ∨ (m = .usedBytes ∧ l.takesFirst = false ∧
      wastedBytes l σ leafContext = 0))
    (hextra : inc ≠ 0 → ∀ node, extra = some node → node = leafContext ∨ node ∉ σ.propAttrTable)
    (hspy : l.takesFirst = false → inc ≠ 0) : KeptUpToDate l σ' where
  upToDate := by
    intro x hx hall
    rw [hrec.attr] at hx
    by_cases hleaf : x = leafContext
    · subst hleaf
      exact h.recorded_leaf hF hrec hst hkey hstores hall
    · have hsame : ∀ m' ∈ l.counted,
          ((σ'.context x).metrics m').i = ((σ.context x).metrics m').i :=
        fun m' hm' => counted_eq_recorded hrec hextra hx hleaf hm'
      rw [allBytes_congr hsame] at hall ⊢
      rw [(hst x).1 fun hx => hleaf hx.1,
        wastedBytes_congr fun m' hm' => hsame m' (List.mem_cons_of_mem _ hm')]
      exact h.upToDate x hx hall
  nonneg := fun x _ hm' => h.nonneg_recorded hrec x hm'
  unsampled := by
    -- the share is stored for the context of the trigger only, which is sampled
    intro x hx
    rw [hrec.attr] at hx
    rw [(hst x).1 fun hleaf => hx (hleaf.1 ▸ hkey)]
    exact h.unsampled x hx
  empty := by
    intro hl x hall
    obtain ⟨hleaf, hold⟩ := h.empty_recorded hrec hm (hspy hl) hall
    rw [(hst x).1 fun hx => hleaf hx.1]
    exact h.empty hl x hold

end Recorded

/-- **A trigger.** -/
theorem called (hF : F.ExactPercent) {currEvent sampleEvent : Event} {wpt : WPTriggerInfo}
    {a : WPTriggerAction} (hwf : WellFormed σ) (h : KeptUpToDate l σ)
    (hkeeps : KeepsUpToDate F l σ (.trigger currEvent sampleEvent wpt))
    (hc : Called F l currEvent sampleEvent wpt σ a σ') : KeptUpToDate l σ' := by
  cases hc with
  | ignored => exact h
  | mismatched => exact h
  | rejected => exact h.congr (fun _ => Iff.rfl) rfl
  | forgotten => exact h.congr (fun _ => Iff.rfl) rfl
  | refused => exact h.congr (fun _ => Iff.rfl) rfl
  | lost leafContext | empty leafContext =>
    -- pending samples have been taken, and no context has changed
    obtain ⟨table, heq, hkeys⟩ := takePending_fields currEvent sampleEvent σ leafContext
    rw [heq]
    exact h.congr hkeys rfl
  | recorded leafContext hp hleaf hyes hinc =>
    -- the pending samples are taken first, and the bytes attributed in the state after that
    obtain ⟨table, heq, hkeys⟩ := takePending_fields currEvent sampleEvent σ leafContext
    have htaken : KeptUpToDate l (takePending currEvent sampleEvent leafContext σ).2 := by
      rw [heq]
      exact h.congr hkeys rfl
    have hwf' := hwf.takePending currEvent sampleEvent leafContext
    have hkey : leafContext ∈
        (takePending currEvent sampleEvent leafContext σ).2.propAttrTable := by
      rw [heq, hkeys]
      exact hwf.leaf _ _ hleaf
    obtain ⟨extra, hrec, hwatched⟩ := hwf.record_watched hleaf F l
      (l.finding F currEvent sampleEvent wpt) (pendingBytes σ currEvent sampleEvent leafContext)
    have hst := l.record_inefficiency F (l.finding F currEvent sampleEvent wpt) currEvent
      hwf'.tree (hwf'.key _ hkey).2 (pendingBytes σ currEvent sampleEvent leafContext)
    refine (htaken.recorded hF hrec hst hkey (l.finding_metric_counted F _ _ _) ?_ ?_
      hinc).congr (fun _ => Iff.rfl) rfl
    · -- only a spy's float is found without a store, and a spy has bytes to attribute
      by_cases hstores : l.Refreshes (l.finding F currEvent sampleEvent wpt)
      · exact Or.inl hstores
      · obtain ⟨hmetric, hfirst⟩ := Logic.of_not_refreshes hstores
        have hattr : Attributes l currEvent sampleEvent wpt σ leafContext :=
          ⟨hp, hleaf, hyes, hinc hfirst⟩
        have hzero := (hkeeps leafContext hattr).1.resolve_left hstores
        rw [heq]
        exact Or.inr ⟨hmetric, hfirst, hzero⟩
    · -- the other context is not sampled: it is a fresh one, or the run keeps it apart
      intro hpending node hnode
      obtain ⟨hwaste, hsome | hout⟩ := hwatched node hnode
      · rw [heq, hkeys]
        exact (hkeeps leafContext ⟨hp, hleaf, hyes, hpending⟩).2 hwaste node hsome
      · exact Or.inr hout

/-- The walk of a sample keeps every metric. -/
theorem grown (h : KeptUpToDate l σ) (hg : Grown σ σ') : KeptUpToDate l σ' := by
  have hmetric : ∀ c, ∀ m ∈ l.counted,
      ((σ'.context c).metrics m).i = ((σ.context c).metrics m).i :=
    fun c m hm => hg.metric c m (Logic.counted_ne hm).2
  have hwasted : ∀ c, wastedBytes l σ' c = wastedBytes l σ c := fun c =>
    wastedBytes_congr fun m hm => hmetric c m (List.mem_cons_of_mem _ hm)
  have hall : ∀ c, allBytes l σ' c = allBytes l σ c := fun c => allBytes_congr (hmetric c)
  have hineff : ∀ c, ((σ'.context c).metrics .inefficiency).i
      = ((σ.context c).metrics .inefficiency).i := fun c => hg.metric c _ (by decide)
  refine ⟨fun c => ?_, fun c m hm => ?_, fun c => ?_, fun hspy c => ?_⟩
  · rw [hg.attr, hall, hwasted, hineff]
    exact h.upToDate c
  · rw [hmetric c m hm]
    exact h.nonneg c m hm
  · rw [hg.attr, hineff]
    exact h.unsampled c
  · rw [hall, hineff]
    exact h.empty hspy c

/-- A context without bytes may be added to the sampled ones. -/
theorem insert (h : KeptUpToDate l σ) {c : ℕ} (hnew : c ∉ σ.propAttrTable → allBytes l σ c = 0)
    (n : SampleNum) (leafMap : AList fun _ : ℤ => ℕ) :
    KeptUpToDate l { σ with
      eventToContextLeafMap := leafMap
      propAttrTable := σ.propAttrTable.insert c n } where
  upToDate := by
    intro x hx hall
    -- the fresh key has no bytes, so nothing is asked of it
    change allBytes l σ x ≠ 0 at hall
    refine h.upToDate x ?_ hall
    rcases (AList.mem_insert _).mp hx with rfl | hx
    · exact not_not.mp fun hno => hall (hnew hno)
    · exact hx
  nonneg := h.nonneg
  unsampled := fun x hx => h.unsampled x fun hmem => hx ((AList.mem_insert _).mpr (Or.inr hmem))
  empty := h.empty

/-- **A sample.** The context it counts for is a key already, a fresh one, or one that the
run keeps free of bytes. -/
theorem sampled {event : Event} {ok : Bool} (hwf : WellFormed σ) (h : KeptUpToDate l σ)
    (hkeeps : KeepsUpToDate F l σ (.sample event)) (hs : Sampled σ event ok σ') :
    KeptUpToDate l σ' := by
  cases hs with
  | failed => exact h
  | counted σ₁ leafContext n hne hadded hpos hn =>
    have hg := (hwf.walked hadded).2.2
    have hwhere := hwf.tree.addFrames_follow .sampledContext hwf.tree.pos
      event.eventContext_agent.reverse
    rw [hadded] at hwhere
    -- the walk ends at a context the run keeps free of bytes, or at a fresh one
    have hnew : leafContext ∉ σ₁.propAttrTable → allBytes l σ₁ leafContext = 0 := by
      intro hkey
      rw [hg.attr] at hkey
      rw [allBytes_congr fun m hm => hg.metric leafContext m (Logic.counted_ne hm).2]
      rcases hwhere with hsome | ⟨-, hfresh⟩
      · exact hkeeps hne leafContext hsome hkey
      · unfold allBytes wastedBytes
        rw [hwf.tree.unborn leafContext hfresh]
        cases l <;> rfl
    rw [← hg.attr]
    exact (h.grown hg).insert hnew _ _

end KeptUpToDate

end Step

/-- **The stored value is the share of the current metrics, along every run** that
refreshes it. -/
theorem upToDate_of_run {F : FloatUnit} (hF : F.ExactPercent) (b : BuildFlags)
    (t : WitchLogicType) (ops : List LogicOp)
    (hops : Along (logicStep F (Logic.ofType b t)) (KeepsUpToDate F (Logic.ofType b t)) .new
      ops) :
    UpToDate (Logic.ofType b t) (runLogic F (Logic.ofType b t) .new ops) := by
  have hnew : KeptUpToDate (Logic.ofType b t) .new :=
    { upToDate := fun c hc => absurd hc (AList.notMem_empty c)
      nonneg := fun _ _ _ => le_rfl
      unsampled := fun _ _ => rfl
      empty := fun _ _ _ => rfl }
  exact (wellFormed_invariant (I := KeptUpToDate (Logic.ofType b t))
    (C := KeepsUpToDate F (Logic.ofType b t))
    (fun _ _ _ _ hwf h hkeeps hs => h.sampled hwf hkeeps hs)
    (fun _ _ _ _ _ _ hwf h hkeeps hc => h.called hF hwf hkeeps hc)
    wellFormed_new hnew hops).2.upToDate

/-! ### Two runs of RedSpy -/

theorem upToDate_of_storeTwice :
    UpToDate (Logic.ofType .instOnly .redSpy)
      (runLogic .bytewise (Logic.ofType .instOnly .redSpy) .new (storeTwice [0x50])) := by
  refine upToDate_of_run (fun _ _ _ _ _ => rfl) .instOnly .redSpy (storeTwice [0x50])
    (.cons ?_ rfl (.cons ?_ rfl trivial))
  · -- the new tree has no context to end at
    intro _ c hsome
    cases hsome
  · -- the frames of the trigger lead nowhere yet
    intro leafContext hatt
    have hleaf :
        (WitchLogic.new.witchOnSampleCallback sampledStore).2.eventToContextLeafMap.lookup 1
          = some 1 := by decide +kernel
    have hnone : (WitchLogic.new.witchOnSampleCallback sampledStore).2.follow [⟨0x50, 0⟩] 1
        = none := by decide +kernel
    obtain rfl := Option.some.inj (hleaf.symm.trans hatt.leaf)
    exact ⟨Or.inl trivial, fun _ node hsome => absurd (hnone.symm.trans hsome) nofun⟩

/-- The store, sampled a second time. -/
def sampledAgain : Event := (Event.storeAt 4 0x1000).withStack [0x40]

/-- A store of another value, as a float. -/
def otherFloat : Event :=
  { Event.storeAt 3 0x1000 with floatType := .elemTypeSingle, valueAtEvent := fun _ => 1 }

/-- **A float that was used leaves the old value.** The context has wasted one of its two
stores, and 100 percent are stored. -/
theorem floatUsed_stale :
    let l := Logic.ofType .instOnly .redSpy
    let σ := runLogic .bytewise l .new
      (storeTwice [0x50] ++ [.sample sampledAgain, .trigger otherFloat sampledAgain ⟨0x1000, 8⟩])
    wastedBytes l σ 1 = 800024 ∧ allBytes l σ 1 = 1600048 ∧
      ((σ.context 1).metrics .inefficiency).i = 100 ∧ ¬ UpToDate l σ := by
  intro l σ
  have hkey : (1 : ℕ) ∈ σ.propAttrTable := by decide +kernel
  have hvalues : wastedBytes l σ 1 = 800024 ∧ allBytes l σ 1 = 1600048 ∧
      ((σ.context 1).metrics .inefficiency).i = 100 := by
    decide +kernel
  refine ⟨hvalues.1, hvalues.2.1, hvalues.2.2, fun h => ?_⟩
  have h := h 1 hkey (by rw [hvalues.2.1]; decide)
  rw [hvalues.1, hvalues.2.1, hvalues.2.2] at h
  exact absurd h (by decide)

end Kognizance
