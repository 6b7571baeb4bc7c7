import Mathlib.Data.List.AList
import Mathlib.Data.Rat.Defs
import Mathlib.Algebra.Ring.Rat
import Kognizance.Lib.Arena
import Kognizance.Platform.Event

/-!
# The calling context tree

`WitchLogic.hpp`: the tree of call frames that a logic hangs its metrics on, the map
from armed samples to their contexts, and the attribution table.

A `Context` is an object on the heap. The objects are numbered in the order of their
construction, with `contextTreeRoot` as number 0, and `WitchLogic.context` is the
heap. A `Context` built only for a lookup is deleted at once and gets no number.
Counters and byte counts are exact numbers: they stay far below the width of the
source's types.

* `WitchLogic.TreeOk`: the tree is a forest in the heap.
* `WitchLogic.Grown`: what extending the tree changes, and what it keeps.
* `WitchLogic.TreeOk.addFrames`: adding a list of frames is such a step.
* `WitchLogic.TreeOk.addFrames_follow`: the context it ends at is the one the frames
  lead to.
-/

namespace Kognizance

/-- `MetricType` -/
inductive MetricType
  | usedBytes
  | redBytes
  | approxRedBytes
  | deadBytes
  | sampleCount
  | watchedCount
  | inefficiency
  | contextType
  deriving DecidableEq, Repr

/-- `ContextType` -/
inductive ContextType
  | sampledContext
  | usedContext
  | deadContext
  | redContext
  | undefinedContext
  deriving DecidableEq, Repr

/-- The value of the enumerator. -/
def ContextType.toInt : ContextType → ℤ
  | .sampledContext => 0
  | .usedContext => 1
  | .deadContext => 2
  | .redContext => 3
  | .undefinedContext => 4

/-- `metric_val_t` -/
@[ext] structure MetricVal where
  r : ℤ
  i : ℤ
  deriving DecidableEq, Repr

/-- The default member initialisers. -/
instance : Zero MetricVal := ⟨⟨0, 0⟩⟩

/-- `operator+` -/
instance : Add MetricVal := ⟨fun v1 v2 => ⟨v1.r + v2.r, v1.i + v2.i⟩⟩

/-- `Context` -/
structure Context where
  frame : ContextFrame
  /-- A metric that was never touched is 0. -/
  metrics : MetricType → MetricVal
  /-- The set of children. They differ in their frames; the order says nothing. -/
  children : List ℕ
  _parent : Option ℕ

/-- `Context()` -/
def Context.blank : Context := ⟨⟨0, 0⟩, fun _ => 0, [], none⟩

/-- `SampleNum`. The running average is an exact quotient here. -/
structure SampleNum where
  catchup_num : ℕ
  cur_num : ℕ
  avgDistance : ℚ

/-- The members of `WitchLogic` and the global totals of the logic built on it. -/
structure WitchLogic where
  context : ℕ → Context
  /-- The number of the next `Context`. -/
  nextContext : ℕ
  /-- The contexts deleted so far, the last one first. -/
  deleted : List ℕ
  eventToContextLeafMap : AList fun _ : ℤ => ℕ
  propAttrTable : AList fun _ : ℕ => SampleNum
  /-- `totalUsedBytes`, `totalRedBytes` or `totalDupBytes`, `totalApproxRedBytes` or
  `totalApproxDupBytes`, and `totalDeadBytes`, under the metric each belongs to. -/
  total : MetricType → ℕ
  watchedSampleCount : ℕ

namespace WitchLogic

/-- `contextTreeRoot` -/
abbrev contextTreeRoot : ℕ := 0

/-- A newly constructed logic. -/
def new : WitchLogic where
  context := fun _ => Context.blank
  nextContext := 1
  deleted := []
  eventToContextLeafMap := ∅
  propAttrTable := ∅
  total := fun _ => 0
  watchedSampleCount := 0

/-! ### The functions of `WitchLogic.hpp` -/

variable (σ : WitchLogic)

/-- Store into a metric of a context. -/
def setMetric (c : ℕ) (m : MetricType) (v : ℤ) : WitchLogic :=
  { σ with
    context := Function.update σ.context c
      { σ.context c with
        metrics := Function.update (σ.context c).metrics m
          { (σ.context c).metrics m with i := v } } }

/-- `metrics[m].increment` with a value whose `i` is `v`. -/
def increment (c : ℕ) (m : MetricType) (v : ℤ) : WitchLogic :=
  σ.setMetric c m (((σ.context c).metrics m).i + v)

/-- The two stores into `CONTEXTTYPE`. -/
def setContextType (c : ℕ) (ctype : ContextType) : WitchLogic :=
  let old := ((σ.context c).metrics .contextType).i
  -- a context of another type is marked first, but the mark does not last
  let σ' := if old ≠ ContextType.sampledContext.toInt ∧ old ≠ ctype.toInt then
      σ.setMetric c .contextType ContextType.undefinedContext.toInt
    else σ
  σ'.setMetric c .contextType ctype.toInt

/-- `children.find`: contexts are compared by their frames. -/
def findChild (c : ℕ) (frame : ContextFrame) : Option ℕ :=
  (σ.context c).children.find? fun d => (σ.context d).frame = frame

/-- A new `Context`, inserted under `p`. -/
def insertChild (p : ℕ) (frame : ContextFrame) : WitchLogic :=
  let heap := Function.update σ.context σ.nextContext ⟨frame, fun _ => 0, [], some p⟩
  -- the object has a number before its parent points to it
  { σ with
    context := Function.update heap p
      { heap p with children := σ.nextContext :: (heap p).children }
    nextContext := σ.nextContext + 1 }

/-- The loop of `addFramesToContextTree`, one frame after the other. -/
def addFrames (ctype : ContextType) : List ContextFrame → WitchLogic → ℕ → WitchLogic × ℕ
  | [], σ, currentNode => (σ, currentNode)
  | frame :: frames, σ, currentNode =>
    match σ.findChild currentNode frame with
    -- the object made for the lookup is deleted, the walk goes on in the old one
    | some c => addFrames ctype frames (σ.setContextType c ctype) c
    | none => addFrames ctype frames
        ((σ.insertChild currentNode frame).setContextType σ.nextContext ctype) σ.nextContext

/-- `addFramesToContextTree` -/
def addFramesToContextTree (contextFrameList : List ContextFrame) (root : ℕ)
    (direction_ParentToChild : Bool) (ctype : ContextType) : WitchLogic × ℕ :=
  addFrames ctype (if direction_ParentToChild then contextFrameList.reverse else contextFrameList)
    σ root

/-- `Witch_OnSample_Callback` -/
def witchOnSampleCallback (event : Event) : Bool × WitchLogic :=
  let added := σ.addFramesToContextTree event.eventContext_agent contextTreeRoot true
    .sampledContext
  let σ := added.1
  let leafContext := added.2
  -- an event without frames ends at the root, and is not counted
  if leafContext ≠ contextTreeRoot then
    let counters : SampleNum := match σ.propAttrTable.lookup leafContext with
      | some n => { n with cur_num := n.cur_num + 1 }
      | none => { cur_num := 1, catchup_num := 0, avgDistance := 0 }
    (true, { σ with
      eventToContextLeafMap := σ.eventToContextLeafMap.insert event.eventId leafContext
      propAttrTable := σ.propAttrTable.insert leafContext counters })
  else (false, σ)

/-- `GetNumDiffSamplesAndReset`. `catchup_num` never exceeds `cur_num`, see
`WellFormed.behind`. -/
def getNumDiffSamplesAndReset (leafContext prop threshold : ℕ) (dist : UInt64) :
    ℕ × WitchLogic :=
  match σ.propAttrTable.lookup leafContext with
  -- only an error message
  | none => (0, σ)
  | some n =>
    ((n.cur_num - n.catchup_num) * prop * threshold,
      { σ with
        propAttrTable := σ.propAttrTable.insert leafContext
          { cur_num := n.cur_num
            catchup_num := n.cur_num
            avgDistance := (n.avgDistance + dist.toNat) / n.cur_num } })

/-- `removeEventContextMapEntry` -/
def removeEventContextMapEntry (event : Event) : WitchLogic :=
  { σ with eventToContextLeafMap := σ.eventToContextLeafMap.erase event.eventId }

/-- The test for a child with the address of its parent, which the report skips. -/
def skipped (c : ℕ) : Bool :=
  match (σ.context c)._parent with
  | none => false
  | some p => (σ.context c).frame.binary_addr = (σ.context p).frame.binary_addr

/-- `calculateForAllContext`, with a fuel for the depth of the tree. -/
def calculateForAllContext : ℕ → WitchLogic → ℕ → MetricVal × WitchLogic
  | 0, σ, _ => (0, σ)
  | n + 1, σ, root =>
    if σ.skipped root then (0, σ)
    else
      -- the recursive calls add to the metrics of the children, in place
      let below := (σ.context root).children.foldl
        (fun acc c =>
          let ret := calculateForAllContext n acc.2 c
          (acc.1 + ret.1, ret.2)) (0, σ)
      -- what the children return is their own total
      let σ := (below.2.increment root .redBytes below.1.i).increment root .usedBytes below.1.r
      ({ i := ((σ.context root).metrics .redBytes).i
         r := ((σ.context root).metrics .usedBytes).i }, σ)

/-- `cleanChildContext`, with a fuel for the depth. The objects it deletes, in the
order of their deletion; `i` is the depth. -/
def cleanChildContext : ℕ → ℕ → ℕ → List ℕ
  | 0, _, _ => []
  | n + 1, root, i =>
    (σ.context root).children.flatMap (fun c => cleanChildContext n c (i + 1)) ++
      if i ≠ 0 then [root] else []

/-- `resetWitchLogic`, which is the same in every logic. -/
def resetWitchLogic : WitchLogic :=
  { σ with total := fun _ => 0, watchedSampleCount := 0 }

/-- `cleanContextTree`. A deleted object keeps its number, and the pointers to it
stay where they are. -/
def cleanContextTree : WitchLogic :=
  resetWitchLogic
    { σ with
      propAttrTable := ∅
      eventToContextLeafMap := ∅
      deleted := (σ.cleanChildContext σ.nextContext contextTreeRoot 0).reverse ++ σ.deleted }

/-! ### What the small steps change -/

section Steps

variable {σ : WitchLogic}

/-- The children lists, as an arena. -/
def kids (σ : WitchLogic) (c : ℕ) : List ℕ := (σ.context c).children

@[simp] theorem setMetric_frame (c x : ℕ) (m : MetricType) (v : ℤ) :
    ((σ.setMetric c m v).context x).frame = (σ.context x).frame := by
  unfold setMetric
  by_cases hx : x = c
  · subst hx
    simp
  · simp [hx]

@[simp] theorem setMetric_kids (c : ℕ) (m : MetricType) (v : ℤ) :
    (σ.setMetric c m v).kids = σ.kids := by
  funext x
  unfold setMetric kids
  by_cases hx : x = c
  · subst hx
    simp
  · simp [hx]

@[simp] theorem setMetric_parent (c x : ℕ) (m : MetricType) (v : ℤ) :
    ((σ.setMetric c m v).context x)._parent = (σ.context x)._parent := by
  unfold setMetric
  by_cases hx : x = c
  · subst hx
    simp
  · simp [hx]

theorem setMetric_i (c x : ℕ) (m m' : MetricType) (v : ℤ) :
    (((σ.setMetric c m v).context x).metrics m').i
      = if x = c ∧ m' = m then v else ((σ.context x).metrics m').i := by
  unfold setMetric
  by_cases hx : x = c
  · subst hx
    by_cases hm : m' = m
    · subst hm
      simp
    · simp [hm]
  · simp [hx]

/-- The second of the two stores decides. -/
theorem setContextType_eq (c : ℕ) (ctype : ContextType) :
    σ.setContextType c ctype = σ.setMetric c .contextType ctype.toInt := by
  unfold setContextType
  simp only
  split_ifs
  · unfold setMetric
    simp only [Function.update_self, Function.update_idem]
  · rfl

/-- `increment` adds to one metric of one context. -/
theorem increment_i (c x : ℕ) (m m' : MetricType) (v : ℤ) :
    (((σ.increment c m v).context x).metrics m').i
      = ((σ.context x).metrics m').i + if x = c ∧ m' = m then v else 0 := by
  unfold increment
  rw [setMetric_i]
  split_ifs with h
  · obtain ⟨rfl, rfl⟩ := h
    rfl
  · rw [add_zero]

/-- A new child is hung into the arena. -/
theorem insertChild_kids {p : ℕ} {frame : ContextFrame} (hp : p < σ.nextContext)
    (hblank : σ.context σ.nextContext = Context.blank) :
    (σ.insertChild p frame).kids = Arena.hang σ.kids p σ.nextContext := by
  funext x
  unfold insertChild kids Arena.hang
  by_cases hx : x = p
  · subst hx
    simp [hp.ne]
  · by_cases hn : x = σ.nextContext
    · subst hn
      simp [hx, hblank, Context.blank]
    · simp [hx, hn]

theorem insertChild_frame {p : ℕ} {frame : ContextFrame} (hp : p < σ.nextContext) (x : ℕ) :
    ((σ.insertChild p frame).context x).frame
      = if x = σ.nextContext then frame else (σ.context x).frame := by
  unfold insertChild
  by_cases hx : x = p
  · subst hx
    simp [hp.ne]
  · by_cases hn : x = σ.nextContext
    · subst hn
      simp [hx]
    · simp [hx, hn]

theorem insertChild_parent {p : ℕ} {frame : ContextFrame} (hp : p < σ.nextContext) (x : ℕ) :
    ((σ.insertChild p frame).context x)._parent
      = if x = σ.nextContext then some p else (σ.context x)._parent := by
  unfold insertChild
  by_cases hx : x = p
  · subst hx
    simp [hp.ne]
  · by_cases hn : x = σ.nextContext
    · subst hn
      simp [hx]
    · simp [hx, hn]

theorem insertChild_metrics {p : ℕ} {frame : ContextFrame} (hp : p < σ.nextContext)
    (hblank : σ.context σ.nextContext = Context.blank) (x : ℕ) :
    ((σ.insertChild p frame).context x).metrics = (σ.context x).metrics := by
  unfold insertChild
  by_cases hx : x = p
  · subst hx
    simp [hp.ne]
  · by_cases hn : x = σ.nextContext
    · subst hn
      simp [hx, hblank, Context.blank]
    · simp [hx, hn]

end Steps

/-! ### The shape of the tree -/

/-- The objects constructed so far form a forest, the others are untouched memory,
and `_parent` points back along `children`. -/
structure TreeOk (σ : WitchLogic) : Prop where
  pos : 0 < σ.nextContext
  forest : Arena.Forest σ.kids σ.nextContext
  unborn : ∀ c, σ.nextContext ≤ c → σ.context c = Context.blank
  parent : ∀ p c, c ∈ σ.kids p → (σ.context c)._parent = some p
  root : (σ.context contextTreeRoot).frame = ⟨0, 0⟩ ∧
    (σ.context contextTreeRoot)._parent = none

/-- Only the heap matters for the shape. -/
theorem TreeOk.congr {σ σ' : WitchLogic} (h : σ.TreeOk) (hctx : σ'.context = σ.context)
    (hnext : σ'.nextContext = σ.nextContext) : σ'.TreeOk := by
  have hkids : σ'.kids = σ.kids := by
    unfold kids
    rw [hctx]
  refine ⟨?_, ?_, ?_, ?_, ?_⟩
  · rw [hnext]
    exact h.pos
  · rw [hkids, hnext]
    exact h.forest
  · rw [hctx, hnext]
    exact h.unborn
  · rw [hkids, hctx]
    exact h.parent
  · rw [hctx]
    exact h.root

/-- Extending the tree changes the shape below old contexts only by new ones, no
metric but `CONTEXTTYPE`, and none of the tables. -/
structure Grown (σ σ' : WitchLogic) : Prop where
  next : σ.nextContext ≤ σ'.nextContext
  frame : ∀ c, c < σ.nextContext → (σ'.context c).frame = (σ.context c).frame
  parent : ∀ c, c < σ.nextContext → (σ'.context c)._parent = (σ.context c)._parent
  metric : ∀ c m, m ≠ .contextType →
    ((σ'.context c).metrics m).i = ((σ.context c).metrics m).i
  deleted : σ'.deleted = σ.deleted
  leafMap : σ'.eventToContextLeafMap = σ.eventToContextLeafMap
  attr : σ'.propAttrTable = σ.propAttrTable
  total : σ'.total = σ.total
  watched : σ'.watchedSampleCount = σ.watchedSampleCount

section Walk

variable {σ : WitchLogic} {ctype : ContextType}

theorem Grown.refl (σ : WitchLogic) : Grown σ σ where
  next := le_refl _
  frame := fun _ _ => rfl
  parent := fun _ _ => rfl
  metric := fun _ _ _ => rfl
  deleted := rfl
  leafMap := rfl
  attr := rfl
  total := rfl
  watched := rfl

theorem Grown.trans {σ' σ'' : WitchLogic} (h : Grown σ σ') (h' : Grown σ' σ'') :
    Grown σ σ'' where
  next := h.next.trans h'.next
  frame := fun c hc => (h'.frame c (hc.trans_le h.next)).trans (h.frame c hc)
  parent := fun c hc => (h'.parent c (hc.trans_le h.next)).trans (h.parent c hc)
  metric := fun c m hm => (h'.metric c m hm).trans (h.metric c m hm)
  deleted := h'.deleted.trans h.deleted
  leafMap := h'.leafMap.trans h.leafMap
  attr := h'.attr.trans h.attr
  total := h'.total.trans h.total
  watched := h'.watched.trans h.watched

/-- Storing into a metric of a constructed context keeps the shape. -/
theorem TreeOk.setMetric (h : σ.TreeOk) {c : ℕ} (hc : c < σ.nextContext) (m : MetricType)
    (v : ℤ) : (σ.setMetric c m v).TreeOk where
  pos := h.pos
  forest := by
    rw [setMetric_kids]
    exact h.forest
  unborn := by
    intro x hx
    -- a context that is not constructed yet is another one
    have hne : x ≠ c := (hc.trans_le hx).ne'
    rw [← h.unborn x hx]
    exact Function.update_of_ne hne _ _
  parent := by
    intro p x hx
    rw [setMetric_kids] at hx
    rw [setMetric_parent]
    exact h.parent p x hx
  root := by
    rw [setMetric_frame, setMetric_parent]
    exact h.root

theorem grown_setContextType (c : ℕ) : Grown σ (σ.setContextType c ctype) := by
  rw [setContextType_eq]
  refine { Grown.refl σ with frame := ?_, parent := ?_, metric := ?_ }
  · exact fun x _ => setMetric_frame c x _ _
  · exact fun x _ => setMetric_parent c x _ _
  · intro x m hm
    rw [setMetric_i, if_neg fun hx => hm hx.2]

theorem TreeOk.insertChild (h : σ.TreeOk) {p : ℕ} (hp : p < σ.nextContext)
    (frame : ContextFrame) : (σ.insertChild p frame).TreeOk where
  pos := Nat.succ_pos _
  forest := by
    rw [insertChild_kids hp (h.unborn _ le_rfl)]
    exact h.forest.hang hp
  unborn := by
    -- an id above the new one is neither the child nor its parent
    intro x hx
    have hnext : σ.nextContext < x := hx
    rw [← h.unborn x hnext.le, WitchLogic.insertChild]
    simp only
    rw [Function.update_of_ne (hp.trans hnext).ne', Function.update_of_ne hnext.ne']
  parent := by
    intro q x hx
    rw [insertChild_kids hp (h.unborn _ le_rfl), Arena.mem_hang] at hx
    rw [insertChild_parent hp]
    rcases hx with ⟨rfl, rfl⟩ | hx
    · rw [if_pos rfl]
    · rw [if_neg (h.forest.lt_bound hx).ne]
      exact h.parent q x hx
  root := by
    rw [insertChild_frame hp, insertChild_parent hp, if_neg h.pos.ne, if_neg h.pos.ne]
    exact h.root

theorem TreeOk.grown_insertChild (h : σ.TreeOk) {p : ℕ} (hp : p < σ.nextContext)
    (frame : ContextFrame) : Grown σ (σ.insertChild p frame) where
  next := Nat.le_succ _
  frame := by
    intro c hc
    rw [insertChild_frame hp, if_neg hc.ne]
  parent := by
    intro c hc
    rw [insertChild_parent hp, if_neg hc.ne]
  metric := by
    intro c m _
    rw [insertChild_metrics hp (h.unborn _ le_rfl)]
  deleted := rfl
  leafMap := rfl
  attr := rfl
  total := rfl
  watched := rfl

theorem findChild_eq_some {c d : ℕ} {frame : ContextFrame} (h : σ.findChild c frame = some d) :
    d ∈ σ.kids c ∧ (σ.context d).frame = frame := by
  have hp := List.find?_some h
  exact ⟨List.mem_of_find?_eq_some h, by simpa using hp⟩

/-- Walking into a child that is there. -/
theorem TreeOk.found (h : σ.TreeOk) {c d : ℕ} {frame : ContextFrame}
    (hfind : σ.findChild c frame = some d) (ctype : ContextType) :
    (σ.setContextType d ctype).TreeOk ∧ d < (σ.setContextType d ctype).nextContext ∧
      Grown σ (σ.setContextType d ctype) ∧ c < d := by
  have hd := (findChild_eq_some hfind).1
  have hg : Grown σ (σ.setContextType d ctype) := grown_setContextType d
  refine ⟨?_, (h.forest.lt_bound hd).trans_le hg.next, hg, h.forest.lt hd⟩
  rw [setContextType_eq]
  exact h.setMetric (h.forest.lt_bound hd) _ _

/-- Walking into a child that is inserted. -/
theorem TreeOk.inserted (h : σ.TreeOk) {c : ℕ} (hc : c < σ.nextContext)
    (frame : ContextFrame) (ctype : ContextType) :
    let σ' := (σ.insertChild c frame).setContextType σ.nextContext ctype
    σ'.TreeOk ∧ σ.nextContext < σ'.nextContext ∧ Grown σ σ' := by
  intro σ'
  have hnew : σ.nextContext < (σ.insertChild c frame).nextContext := Nat.lt_succ_self _
  have hg : Grown (σ.insertChild c frame) σ' := grown_setContextType _
  refine ⟨?_, hnew.trans_le hg.next, (h.grown_insertChild hc frame).trans hg⟩
  change TreeOk (setContextType _ _ _)
  rw [setContextType_eq]
  exact (h.insertChild hc frame).setMetric hnew _ _

/-- **The walk rule.** What holds at the start of the walk, and is kept when a child
is found and when one is inserted, holds at its end. -/
theorem addFrames_invariant {I : WitchLogic → ℕ → Prop}
    (hfound : ∀ σ c frame d, I σ c → σ.findChild c frame = some d →
      I (σ.setContextType d ctype) d)
    (hnew : ∀ σ c frame, I σ c → σ.findChild c frame = none →
      I ((σ.insertChild c frame).setContextType σ.nextContext ctype) σ.nextContext)
    {c : ℕ} (h : I σ c) (frames : List ContextFrame) :
    I (addFrames ctype frames σ c).1 (addFrames ctype frames σ c).2 := by
  induction frames generalizing σ c with
  | nil => exact h
  | cons frame frames ih =>
    unfold addFrames
    cases hfind : σ.findChild c frame with
    | some d => exact ih (hfound σ c frame d h hfind)
    | none => exact ih (hnew σ c frame h hfind)

/-- What the walk leaves. -/
theorem TreeOk.addFrames (h : σ.TreeOk) (ctype : ContextType) {c : ℕ} (hc : c < σ.nextContext)
    (frames : List ContextFrame) :
    let added := WitchLogic.addFrames ctype frames σ c
    added.1.TreeOk ∧ added.2 < added.1.nextContext ∧ Grown σ added.1 ∧ c ≤ added.2 := by
  refine addFrames_invariant (I := fun σ' d => σ'.TreeOk ∧ d < σ'.nextContext ∧ Grown σ σ' ∧ c ≤ d)
    ?_ ?_ ⟨h, hc, .refl σ, le_refl c⟩ frames
  · rintro σ' x frame d ⟨hok, -, hg, hle⟩ hfind
    obtain ⟨hok', hd, hg', hlt⟩ := hok.found hfind ctype
    exact ⟨hok', hd, hg.trans hg', hle.trans hlt.le⟩
  · rintro σ' x frame ⟨hok, hx, hg, hle⟩ -
    obtain ⟨hok', hnew, hg'⟩ := hok.inserted hx frame ctype
    exact ⟨hok', hnew, hg.trans hg', hle.trans hx.le⟩

/-- A walk over at least one frame ends at a younger context. -/
theorem TreeOk.addFrames_lt (h : σ.TreeOk) (ctype : ContextType) {c : ℕ}
    (hc : c < σ.nextContext) {frames : List ContextFrame} (hne : frames ≠ []) :
    c < (WitchLogic.addFrames ctype frames σ c).2 := by
  cases frames with
  | nil => exact absurd rfl hne
  | cons frame frames =>
    unfold WitchLogic.addFrames
    cases hfind : σ.findChild c frame with
    | some d =>
      obtain ⟨hok, hd, -, hlt⟩ := h.found hfind ctype
      exact hlt.trans_le (hok.addFrames ctype hd frames).2.2.2
    | none =>
      obtain ⟨hok, hnew, -⟩ := h.inserted hc frame ctype
      exact hc.trans_le (hok.addFrames ctype hnew frames).2.2.2

/-- The context that a list of frames leads to, when all of it is in the tree. -/
def follow (σ : WitchLogic) : List ContextFrame → ℕ → Option ℕ
  | [], c => some c
  | frame :: frames, c =>
    match σ.findChild c frame with
    | some d => follow σ frames d
    | none => none

/-- Only the heap matters for where frames lead. -/
theorem follow_congr {σ' : WitchLogic} (h : σ'.context = σ.context) (frames : List ContextFrame)
    (c : ℕ) : σ'.follow frames c = σ.follow frames c := by
  induction frames generalizing c with
  | nil => rfl
  | cons frame frames ih =>
    unfold follow findChild
    rw [h]
    split
    · exact ih _
    · rfl

theorem setMetric_findChild (c x : ℕ) (m : MetricType) (v : ℤ) (frame : ContextFrame) :
    (σ.setMetric c m v).findChild x frame = σ.findChild x frame := by
  have hkids : ((σ.setMetric c m v).context x).children = (σ.context x).children :=
    congrFun (setMetric_kids (σ := σ) c m v) x
  simp only [findChild, hkids, setMetric_frame]

theorem setContextType_follow (c : ℕ) (frames : List ContextFrame) (x : ℕ) :
    (σ.setContextType c ctype).follow frames x = σ.follow frames x := by
  induction frames generalizing x with
  | nil => rfl
  | cons frame frames ih =>
    unfold follow
    rw [setContextType_eq, setMetric_findChild, ← setContextType_eq]
    cases σ.findChild x frame with
    | some d => exact ih d
    | none => rfl

/-- The walk ends where the frames lead to, or at a context it has inserted. -/
theorem TreeOk.addFrames_follow (h : σ.TreeOk) (ctype : ContextType) {c : ℕ}
    (hc : c < σ.nextContext) (frames : List ContextFrame) :
    let added := WitchLogic.addFrames ctype frames σ c
    σ.follow frames c = some added.2 ∨
      (σ.follow frames c = none ∧ σ.nextContext ≤ added.2) := by
  induction frames generalizing σ c with
  | nil => exact Or.inl rfl
  | cons frame frames ih =>
    unfold WitchLogic.addFrames follow
    cases hfind : σ.findChild c frame with
    | some d =>
      obtain ⟨hok, hd, hg, -⟩ := h.found hfind ctype
      have hrest := ih hok hd
      rw [setContextType_follow] at hrest
      exact hrest.imp_right fun hfresh => ⟨hfresh.1, hg.next.trans hfresh.2⟩
    | none =>
      -- below a context that was just inserted there are only younger ones
      obtain ⟨hok, hnew, -⟩ := h.inserted hc frame ctype
      exact Or.inr ⟨rfl, (hok.addFrames ctype hnew frames).2.2.2⟩

end Walk

end WitchLogic

end Kognizance
