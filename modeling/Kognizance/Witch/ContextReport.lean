import Kognizance.Lib.Outline
import Kognizance.Witch.ContextKinds
import Kognizance.Witch.Reset

/-!
# The report by sampled contexts

A build that does not roll the metrics up prints a block for every sampled context: a header,
the way from the context up to the root (`printSampledContext`), and the tree below it
(`printWatchedContext`), one line a context and indented by its depth. The blocks are sorted by
the metric of their contexts. The children of a context are an `unordered_set`, and `std::sort`
is not stable, so the order of siblings and of equal contexts is anything.

* `contextReport` is what `printContextTree` prints in these builds.
* `BlockShows` says that a block can be read back as the part of the tree it is about.
* `report_shows_of_run`: along every run, the report shows the sampled contexts that have
  children, each in one block, and all that is below them.
-/

namespace Kognizance

open Process WitchLogic Arena

/-- The macros that leave lines out or mark them. -/
structure PrintFlags where
  avoidSeen : Bool
  showSampledWatchedSameAddress : Bool
  deriving DecidableEq, Repr

/-- `SeenList` -/
def seenList : List ℤ :=
  [0xffffffff810c3ac2, 0xffffffff810bea30, 0xffffffff810cae83, 0xffffffff810cb70b,
    0xffffffff811145f5, 0xffffffff819f051f, 0xffffffff819f08d9, 0xffffffff81398ce6]

/-- `inAlreadySeenList`; the address is made an `unsigned long`. -/
def inAlreadySeenList (ipAddr : ℤ) : Bool := decide (ipAddr % 2 ^ 64 ∈ seenList)

/-- A line of `printSampledContext`. -/
structure SampledLine where
  depth : ℕ
  frame : ContextFrame
  deriving DecidableEq, Repr

/-- What `printWatchedContext` prints: a line, or the mark in front of a line with the address
of the sampled context. -/
inductive WatchedLine
  | sameAddress
  | context (depth : ℕ) (frame : ContextFrame) (tag : String)
  deriving DecidableEq, Repr

/-- The output for one sampled context. The quotient and the distance are exact; the source
prints them as floating-point numbers. -/
structure ReportBlock where
  localInefficiency : ℤ
  /-- a quotient by 0 is no number -/
  inefficiency : Option ℚ
  sampleCount : ℕ
  eventDistance : ℚ
  sampled : List SampledLine
  watched : List WatchedLine
  deriving DecidableEq

namespace WitchLogic

variable (fl : PrintFlags) (σ : WitchLogic)

/-- Nothing is printed about a context in the list. -/
def hides (c : ℕ) : Bool :=
  fl.avoidSeen && inAlreadySeenList (σ.context c).frame.binary_addr

/-- `printSampledContext`, with a fuel for the way up. -/
def printSampledContext : ℕ → Option ℕ → ℕ → List SampledLine
  | 0, _, _ => []
  | _, none, _ => []
  | n + 1, some root, i =>
    if i = 0 ∧ hides fl σ root then []
    else ⟨i, (σ.context root).frame⟩ ::
      printSampledContext n (σ.context root)._parent (i + 1)

/-- `printWatchedContext`, with a fuel for the depth of the tree. `order` is the order in which
the children of a context come. -/
def printWatchedContext (order : ℕ → List ℕ) : ℕ → ℕ → ℕ → List WatchedLine
  | 0, _, _ => []
  | n + 1, root, i =>
    if i = 0 ∧ hides fl σ root then []
    else
      (if i ≠ 0 then
        [.context i (σ.context root).frame (printedTag (σ.contextType root))] else []) ++
      (order root).flatMap fun c =>
        (if fl.showSampledWatchedSameAddress ∧ i = 0 ∧
            (σ.context root).frame.binary_addr = (σ.context c).frame.binary_addr then
          [.sameAddress] else []) ++
        printWatchedContext order n c (i + 1)

end WitchLogic

/-- The metric that a logic sorts its contexts by. -/
def WitchLogicType.sortedBy : WitchLogicType → MetricType
  | .redSpy | .loadSpy | .dupSpy => .redBytes
  | .deadSpy | .falseShare => .deadBytes

/-- The metrics whose bytes count as inefficiency in the header. -/
def WitchLogicType.wasteful : WitchLogicType → List MetricType
  | .redSpy | .loadSpy | .dupSpy => [.redBytes, .approxRedBytes]
  | .deadSpy | .falseShare => [.deadBytes]

/-- The block of a sampled context. -/
def reportBlock (t : WitchLogicType) (fl : PrintFlags) (order : ℕ → List ℕ) (σ : WitchLogic)
    (elem : ℕ × SampleNum) : ReportBlock where
  localInefficiency := ((σ.context elem.1).metrics .inefficiency).i
  inefficiency := if totalSum t σ = 0 then none
    else some (100 * (t.wasteful.map fun m => ((σ.context elem.1).metrics m).i).sum / totalSum t σ)
  sampleCount := elem.2.cur_num
  eventDistance := elem.2.avgDistance
  sampled := printSampledContext fl σ σ.nextContext (some elem.1) 0
  watched := printWatchedContext fl σ order σ.nextContext elem.1 0

/-- `printContextTree`, its output where it does not roll up. `elems` is the sorted table. -/
def contextReport (b : BuildFlags) (t : WitchLogicType) (fl : PrintFlags) (order : ℕ → List ℕ)
    (elems : List (ℕ × SampleNum)) (σ : WitchLogic) : List ReportBlock :=
  if b.inst t then []
  else
    (elems.filter fun elem => (σ.context elem.1).children.length ≠ 0).map
      (reportBlock t fl order σ)

/-- `elems` is the attribution table, sorted by the metric. -/
structure SortedTable (t : WitchLogicType) (elems : List (ℕ × SampleNum)) (σ : WitchLogic) :
    Prop where
  perm : elems.Perm (σ.propAttrTable.entries.map fun e => (e.1, e.2))
  sorted : elems.Pairwise fun x y =>
    ¬ ((σ.context y.1).metrics t.sortedBy).i < ((σ.context x.1).metrics t.sortedBy).i

/-! ### Reading a block -/

/-- The lines of a watched tree with the depth below the sampled context. -/
def watchedOutline (lines : List WatchedLine) : List (ℕ × ContextFrame) :=
  lines.filterMap fun
    | .sameAddress => none
    | .context depth frame _ => some (depth - 1, frame)

/-- The tags of the lines. -/
def watchedTags (lines : List WatchedLine) : List String :=
  lines.filterMap fun
    | .sameAddress => none
    | .context _ _ tag => some tag

/-- The block of a context is hidden, or tells which context it is and what is below it: the
frames of the sampled lines, read from the root on, lead to the context and to no other one; each
line of the watched tree is read as the frames that lead from the context to the one it stands
for, and has the tag of that; and every context below is shown by one line. -/
structure BlockShows (fl : PrintFlags) (σ : WitchLogic) (c : ℕ) (block : ReportBlock) : Prop where
  counted : ∃ n, σ.propAttrTable.lookup c = some n ∧ block.sampleCount = n.cur_num ∧
    block.eventDistance = n.avgDistance
  hidden : hides fl σ c = true → block.sampled = [] ∧ block.watched = []
  sampled : hides fl σ c = false → ∃ frames, (∀ d, σ.Leads contextTreeRoot frames d ↔ d = c) ∧
    block.sampled = (frames.reverse ++ [(σ.context contextTreeRoot).frame]).zipIdx.map
      fun (frame, depth) => ⟨depth, frame⟩
  watched : hides fl σ c = false → ∃ ds : List ℕ,
    ds.Nodup ∧ (∀ d, d ∈ ds ↔ Below σ.kids c d ∧ d ≠ c) ∧
    List.Forall₂ (σ.Leads c) (readOutline [] (watchedOutline block.watched)) ds ∧
    (readOutline [] (watchedOutline block.watched)).Nodup ∧
    watchedTags block.watched = ds.map fun d => printedTag (σ.contextType d)

/-! ### What insertions and stores keep -/

section Keeps

variable {I : WitchLogic → Prop}

/-- A property of the tree that stores into metrics and insertions keep. -/
structure KeptByTree (I : WitchLogic → Prop) : Prop where
  congr : ∀ {σ σ' : WitchLogic}, I σ → σ'.context = σ.context →
    σ'.nextContext = σ.nextContext → I σ'
  setMetric : ∀ {σ : WitchLogic} (c : ℕ) (m : MetricType) (v : ℤ), I σ → I (σ.setMetric c m v)
  addFrames : ∀ {σ : WitchLogic} (ctype : ContextType) {c : ℕ} (frames : List ContextFrame),
    σ.TreeOk → I σ → c < σ.nextContext → I (addFrames ctype frames σ c).1

namespace KeptByTree

variable (hI : KeptByTree I) {σ σ' : WitchLogic} {leafContext : ℕ}

include hI

theorem addUsed (htree : σ.TreeOk) (h : I σ) (F : FloatUnit) (bad : List MetricType)
    (updates shows : Bool) (currEvent : Event) (hleaf : leafContext < σ.nextContext) (inc : ℕ) :
    I (addUsed F bad updates shows currEvent leafContext inc σ) := by
  -- the bytes go to the total and to the leaf, and then the frames may be shown below it
  have htree₀ : TreeOk { σ with
      total := Function.update σ.total .usedBytes (σ.total .usedBytes + inc) } :=
    htree.congr rfl rfl
  have h₀ : I { σ with
      total := Function.update σ.total .usedBytes (σ.total .usedBytes + inc) } :=
    hI.congr h rfl rfl
  have hshow : ∀ τ : WitchLogic, τ.TreeOk → I τ → leafContext < τ.nextContext →
      I (if shows then (τ.addFramesToContextTree currEvent.eventContext_agent leafContext
        false .usedContext).1 else τ) := by
    intro τ hτ hIτ hlt
    cases shows with
    | false => exact hIτ
    | true => exact hI.addFrames .usedContext currEvent.eventContext_agent hτ hIτ hlt
  cases updates with
  | false => exact hshow _ (htree₀.setMetric hleaf _ _) (hI.setMetric _ _ _ h₀) hleaf
  | true =>
    exact hshow _ ((htree₀.setMetric hleaf _ _).setMetric hleaf _ _)
      (hI.setMetric _ _ _ (hI.setMetric _ _ _ h₀)) hleaf

theorem addWasted (htree : σ.TreeOk) (h : I σ) (F : FloatUnit) (bad : List MetricType)
    (m : MetricType) (ctype : ContextType) (currEvent : Event)
    (hleaf : leafContext < σ.nextContext) (inc : ℕ) :
    I (addWasted F bad m ctype currEvent leafContext inc σ) := by
  have htree₀ : TreeOk { σ with total := Function.update σ.total m (σ.total m + inc) } :=
    htree.congr rfl rfl
  have h₀ : I { σ with total := Function.update σ.total m (σ.total m + inc) } :=
    hI.congr h rfl rfl
  have hwalk := hI.addFrames ctype currEvent.eventContext_agent htree₀ h₀ hleaf
  exact hI.setMetric _ _ _ (hI.setMetric _ _ _ (hI.setMetric _ _ _ hwalk))

theorem called {F : FloatUnit} {l : Logic} {currEvent sampleEvent : Event} {wpt : WPTriggerInfo}
    {a : WPTriggerAction} (hwf : WellFormed σ) (h : I σ)
    (hc : Called F l currEvent sampleEvent wpt σ a σ') : I σ' := by
  cases hc with
  | ignored => exact h
  | mismatched => exact h
  | rejected | forgotten | refused => exact hI.congr h rfl rfl
  | lost leafContext | empty leafContext =>
    obtain ⟨table, heq, -⟩ := takePending_fields currEvent sampleEvent σ leafContext
    rw [heq]
    exact hI.congr h rfl rfl
  | recorded leafContext hp hleaf =>
    -- the sample is taken, the bytes are recorded, and the entry of the event is removed
    obtain ⟨table, heq, -⟩ := takePending_fields currEvent sampleEvent σ leafContext
    have hlt := hwf.leaf_lt hleaf
    have htree : TreeOk { σ with propAttrTable := table } := hwf.tree.congr rfl rfl
    have htaken : I { σ with propAttrTable := table } := hI.congr h rfl rfl
    have hrecorded : I (l.record F (l.finding F currEvent sampleEvent wpt) currEvent leafContext
        (pendingBytes σ currEvent sampleEvent leafContext)
        { σ with propAttrTable := table }) := by
      obtain ⟨-, bad, updates, shows, hrecord⟩ | ⟨-, bad, ctype, hrecord⟩ :=
        l.record_cases F (l.finding F currEvent sampleEvent wpt) currEvent leafContext
          (pendingBytes σ currEvent sampleEvent leafContext) { σ with propAttrTable := table }
      · rw [hrecord]
        exact hI.addUsed htree htaken F bad updates shows currEvent hlt _
      · rw [hrecord]
        exact hI.addWasted htree htaken F bad _ ctype currEvent hlt _
    rw [heq]
    exact hI.congr hrecorded rfl rfl

theorem sampled {event : Event} {ok : Bool} (hwf : WellFormed σ) (h : I σ)
    (hs : Sampled σ event ok σ') : I σ' := by
  cases hs with
  | failed => exact h
  | counted σ₁ leafContext n hne hadded =>
    have hwalk := hI.addFrames .sampledContext event.eventContext_agent.reverse hwf.tree h
      hwf.tree.pos
    rw [hadded] at hwalk
    exact hI.congr hwalk rfl rfl

/-- **Along every run.** -/
theorem of_run (hnew : I .new) (F : FloatUnit) (l : Logic) (ops : List LogicOp) :
    I (runLogic F l .new ops) :=
  (wellFormed_invariant (C := fun _ _ => True)
    (fun _ _ _ _ hwf h _ hs => hI.sampled hwf h hs)
    (fun _ _ _ _ _ _ hwf h _ hc => hI.called hwf h hc)
    wellFormed_new hnew (along_of_forall fun _ _ => trivial)).2

end KeptByTree

end Keeps

theorem siblingsDiffer_kept : KeptByTree SiblingsDiffer where
  congr h hcontext _ := by
    unfold SiblingsDiffer WitchLogic.kids
    rw [hcontext]
    exact h
  setMetric c m v h := by
    unfold SiblingsDiffer
    simp only [setMetric_kids, setMetric_frame]
    exact h
  addFrames ctype _ frames htree h hc := (htree.addFrames_leads h ctype hc frames).1

/-! ### What the lines say -/

section Lines

variable {fl : PrintFlags} {σ : WitchLogic} {order : ℕ → List ℕ}

/-- **The sampled lines** are the way up, from the context to the root. -/
theorem printSampledContext_eq (h : σ.TreeOk) {frames : List ContextFrame} {c n i : ℕ}
    (hpath : σ.Leads contextTreeRoot frames c) (hn : frames.length < n)
    (hhides : i = 0 → hides fl σ c = false) :
    printSampledContext fl σ n (some c) i =
      ((frames.reverse ++ [(σ.context contextTreeRoot).frame]).zipIdx i).map
        fun (frame, depth) => ⟨depth, frame⟩ := by
  -- over the frames, the innermost one first
  induction frames using List.reverseRecOn generalizing c n i with
  | nil =>
    obtain ⟨n, rfl⟩ := Nat.exists_eq_add_one_of_ne_zero (Nat.ne_of_gt hn)
    cases hpath
    have hshown : ¬ (i = 0 ∧ hides fl σ contextTreeRoot = true) := by
      rintro ⟨hi, hhidden⟩
      rw [hhides hi] at hhidden
      cases hhidden
    unfold printSampledContext
    rw [if_neg hshown, h.root.2]
    cases n <;> rfl
  | append_singleton frames frame ih =>
    obtain ⟨p, hp, hc, hframe⟩ := hpath.split_last
    obtain ⟨n, rfl⟩ := Nat.exists_eq_add_one_of_ne_zero (Nat.ne_of_gt (Nat.zero_lt_of_lt hn))
    have hshown : ¬ (i = 0 ∧ hides fl σ c = true) := by
      rintro ⟨hi, hhidden⟩
      rw [hhides hi] at hhidden
      cases hhidden
    have hlen : frames.length < n := by simpa using hn
    have hup := ih hp hlen (i := i + 1) fun hi => absurd hi (Nat.succ_ne_zero i)
    unfold printSampledContext
    rw [if_neg hshown, h.parent p c hc, hup, ← hframe]
    simp

theorem watchedOutline_append (lines lines' : List WatchedLine) :
    watchedOutline (lines ++ lines') = watchedOutline lines ++ watchedOutline lines' :=
  List.filterMap_append

theorem watchedTags_append (lines lines' : List WatchedLine) :
    watchedTags (lines ++ lines') = watchedTags lines ++ watchedTags lines' :=
  List.filterMap_append

theorem watchedOutline_flatMap (f : ℕ → List WatchedLine) (cs : List ℕ) :
    watchedOutline (cs.flatMap f) = cs.flatMap fun c => watchedOutline (f c) :=
  List.filterMap_flatMap

theorem watchedTags_flatMap (f : ℕ → List WatchedLine) (cs : List ℕ) :
    watchedTags (cs.flatMap f) = cs.flatMap fun c => watchedTags (f c) :=
  List.filterMap_flatMap

/-- The mark is no line. -/
theorem watched_mark (p : Prop) [Decidable p] :
    watchedOutline (if p then [.sameAddress] else []) = [] ∧
      watchedTags (if p then [.sameAddress] else []) = [] := by
  by_cases hp : p
  · rw [if_pos hp]
    exact ⟨rfl, rfl⟩
  · rw [if_neg hp]
    exact ⟨rfl, rfl⟩

/-- **The lines of a watched context** are the outline below it, with the tags. -/
theorem printWatchedContext_below (n c i : ℕ) :
    watchedOutline (printWatchedContext fl σ order n c (i + 1)) =
        labelled (fun c => (σ.context c).frame) (outline order n i c) ∧
      watchedTags (printWatchedContext fl σ order n c (i + 1)) =
        (Arena.traverse order n c).map fun d => printedTag (σ.contextType d) := by
  -- over the depth; below the watched context nothing is hidden, and the depth is never 0
  induction n generalizing c i with
  | zero => exact ⟨rfl, rfl⟩
  | succ n ih =>
    have hdepth : ¬ (i + 1 = 0 ∧ hides fl σ c = true) := fun h => absurd h.1 (Nat.succ_ne_zero i)
    unfold printWatchedContext outline Arena.traverse
    rw [if_neg hdepth, if_pos (Nat.succ_ne_zero i), watchedOutline_append, watchedTags_append,
      watchedOutline_flatMap, watchedTags_flatMap]
    simp only [watchedOutline_append, watchedTags_append, watched_mark, List.nil_append,
      (ih _ (i + 1)).1, (ih _ (i + 1)).2]
    refine ⟨?_, ?_⟩
    · rw [labelled, List.map_cons, List.map_flatMap]
      rfl
    · rw [List.map_cons, List.map_flatMap]
      rfl

/-- **The watched lines of a sampled context.** -/
theorem printWatchedContext_eq {c : ℕ} (hhides : hides fl σ c = false) (n : ℕ) :
    watchedOutline (printWatchedContext fl σ order (n + 1) c 0) =
        labelled (fun c => (σ.context c).frame) ((order c).flatMap (outline order n 0)) ∧
      watchedTags (printWatchedContext fl σ order (n + 1) c 0) =
        (descendants order n c).map fun d => printedTag (σ.contextType d) := by
  have hshown : ¬ (0 = 0 ∧ hides fl σ c = true) := by
    rw [hhides]
    exact fun h => absurd h.2 Bool.false_ne_true
  have hself : ¬ (0 ≠ 0) := fun h => h rfl
  unfold printWatchedContext
  rw [if_neg hshown, if_neg hself, List.nil_append, watchedOutline_flatMap, watchedTags_flatMap]
  simp only [watchedOutline_append, watchedTags_append, watched_mark, List.nil_append,
    (printWatchedContext_below n _ 0).1, (printWatchedContext_below n _ 0).2]
  refine ⟨?_, ?_⟩
  · rw [labelled, List.map_flatMap]
    rfl
  · rw [descendants, List.map_flatMap]

end Lines

/-! ### The report of a run -/

section Report

variable {fl : PrintFlags} {σ : WitchLogic} {order : ℕ → List ℕ}

theorem below_order (horder : ∀ c, (order c).Perm (σ.kids c)) (c x : ℕ) :
    Below order c x ↔ Below σ.kids c x := by
  have hsame : (fun p c => c ∈ order p) = fun p c => c ∈ σ.kids p := by
    funext p c
    exact propext (horder p).mem_iff
  unfold Below
  rw [hsame]

/-- The order of the children is nothing to a forest. -/
theorem forest_order (h : σ.TreeOk) (horder : ∀ c, (order c).Perm (σ.kids c)) :
    Forest order σ.nextContext where
  lt hc := h.forest.lt ((horder _).mem_iff.mp hc)
  lt_bound hc := h.forest.lt_bound ((horder _).mem_iff.mp hc)
  nodup p := (horder p).nodup_iff.mpr (h.forest.nodup p)
  parent_unique hc hc' :=
    h.forest.parent_unique ((horder _).mem_iff.mp hc) ((horder _).mem_iff.mp hc')

/-- Every context below the root is reached along its frames. -/
theorem exists_leads {c : ℕ} (h : Below σ.kids contextTreeRoot c) :
    ∃ frames, σ.Leads contextTreeRoot frames c := by
  induction h with
  | refl => exact ⟨[], .nil _⟩
  | tail _ hc ih =>
    obtain ⟨frames, hpath⟩ := ih
    exact ⟨_, Path.append hpath (.cons hc (.nil _))⟩

theorem length_lt_of_leads (h : σ.TreeOk) {frames : List ContextFrame} {c d : ℕ}
    (hpath : σ.Leads c frames d) : c + frames.length ≤ d := by
  induction hpath with
  | nil => exact le_rfl
  | cons hd _ ih =>
    have hlt := h.forest.lt hd
    rw [List.length_cons]
    omega

/-- **A block shows its context.** -/
theorem blockShows (b : WitchLogicType) (hwf : WellFormed σ) (halive : Alive σ)
    (hD : σ.SiblingsDiffer) (horder : ∀ c, (order c).Perm (σ.kids c)) {c : ℕ} {n : SampleNum}
    (hc : σ.propAttrTable.lookup c = some n) :
    BlockShows fl σ c (reportBlock b fl order σ (c, n)) := by
  have hlt : c < σ.nextContext := by
    refine (hwf.key c (AList.lookup_isSome.mp ?_)).2
    rw [hc]
    rfl
  obtain ⟨k, hk⟩ := Nat.exists_eq_add_one_of_ne_zero (Nat.ne_of_gt (Nat.zero_lt_of_lt hlt))
  refine ⟨⟨n, hc, rfl, rfl⟩, fun hhidden => ?_, fun hshown => ?_, fun hshown => ?_⟩
  · -- a hidden context prints nothing in either part
    simp only [reportBlock, hk]
    unfold printSampledContext printWatchedContext
    rw [if_pos ⟨rfl, hhidden⟩, if_pos ⟨rfl, hhidden⟩]
    exact ⟨rfl, rfl⟩
  · -- the lines from the context up to the root are the frames that lead to it
    obtain ⟨frames, hpath⟩ := exists_leads (halive.rooted c hlt)
    refine ⟨frames, fun d => ⟨fun hd => hd.end_unique hD hpath, ?_⟩, ?_⟩
    · rintro rfl
      exact hpath
    · have hlen := length_lt_of_leads hwf.tree hpath
      exact printSampledContext_eq hwf.tree hpath (by omega) fun _ => hshown
  · -- the watched lines are an outline, which is read back if siblings differ
    have hF := forest_order hwf.tree horder
    have hD' : Distinct order fun c => (σ.context c).frame := fun p x hx y hy heq =>
      hD p x ((horder p).mem_iff.mp hx) y ((horder p).mem_iff.mp hy) heq
    obtain ⟨hlines, htags⟩ : watchedOutline (printWatchedContext fl σ order (k + 1) c 0) = _ ∧ _ :=
      printWatchedContext_eq hshown k
    obtain ⟨hpaths, hnodup⟩ := hF.readOutline hD' (n := k) (c := c)
    have hwatched : (reportBlock b fl order σ (c, n)).watched =
        printWatchedContext fl σ order (k + 1) c 0 := by
      rw [← hk]
      rfl
    rw [hwatched, hlines]
    refine ⟨descendants order k c, hF.descendants_nodup k c, fun d => ?_, ?_, hnodup, htags⟩
    · rw [hF.mem_descendants_iff (by omega), below_order horder]
    · exact hpaths.imp fun frames d hpath =>
        hpath.mono (fun p x hx => (horder p).mem_iff.mp hx) fun _ _ _ => rfl

/-- **The report shows the sampled contexts.** After every run, whatever the order of children and
of equal contexts: each sampled context with children has one block, the blocks are sorted, and
each of them shows its context and the tree below it. -/
theorem report_shows_of_run (F : FloatUnit) (b : BuildFlags) (t : WitchLogicType)
    (fl : PrintFlags) (ops : List LogicOp) (order : ℕ → List ℕ) (elems : List (ℕ × SampleNum))
    (hprints : b.inst t = false)
    (horder : ∀ c, (order c).Perm ((runLogic F (Logic.ofType b t) .new ops).kids c))
    (helems : SortedTable t elems (runLogic F (Logic.ofType b t) .new ops)) :
    let σ := runLogic F (Logic.ofType b t) .new ops
    ∃ cs : List ℕ, cs.Nodup ∧
      (∀ c, c ∈ cs ↔ c ∈ σ.propAttrTable ∧ (σ.context c).children ≠ []) ∧
      (cs.Pairwise fun c d => ((σ.context c).metrics t.sortedBy).i ≤
        ((σ.context d).metrics t.sortedBy).i) ∧
      List.Forall₂ (BlockShows fl σ) cs (contextReport b t fl order elems σ) := by
  intro σ
  obtain ⟨hwf, halive⟩ : WellFormed σ ∧ Alive σ := alive_of_run F (Logic.ofType b t) ops
  have hD : σ.SiblingsDiffer :=
    siblingsDiffer_kept.of_run siblingsDiffer_new F (Logic.ofType b t) ops
  have hmem (c : ℕ) (n : SampleNum) : (c, n) ∈ elems ↔ σ.propAttrTable.lookup c = some n := by
    rw [helems.perm.mem_iff, ← Option.mem_def, AList.mem_lookup_iff]
    constructor
    · intro h
      obtain ⟨e, he, heq⟩ := List.mem_map.mp h
      cases heq
      exact he
    · exact fun h => List.mem_map.mpr ⟨⟨c, n⟩, h, rfl⟩
  -- the blocks are those of the sorted table, without the contexts that have no children
  refine ⟨(elems.filter fun elem => (σ.context elem.1).children.length ≠ 0).map Prod.fst,
    ?_, ?_, ?_, ?_⟩
  · -- a context is once in the table
    have hkeys : (elems.map Prod.fst).Nodup := by
      rw [(helems.perm.map Prod.fst).nodup_iff, List.map_map]
      exact σ.propAttrTable.nodupKeys
    exact hkeys.sublist (List.filter_sublist.map _)
  · intro c
    rw [← AList.lookup_isSome, Option.isSome_iff_exists]
    constructor
    · intro h
      obtain ⟨⟨c', n⟩, helem, rfl⟩ := List.mem_map.mp h
      obtain ⟨hin, hkids⟩ := List.mem_filter.mp helem
      exact ⟨⟨n, (hmem _ n).mp hin⟩, by simpa using hkids⟩
    · rintro ⟨⟨n, hn⟩, hkids⟩
      refine List.mem_map.mpr ⟨(c, n), List.mem_filter.mpr ⟨(hmem c n).mpr hn, ?_⟩, rfl⟩
      simpa using hkids
  · -- leaving out entries keeps the order
    rw [List.pairwise_map]
    exact (helems.sorted.sublist List.filter_sublist).imp fun h => not_lt.mp h
  · -- each block shows the context of its entry
    rw [contextReport, hprints, if_neg Bool.false_ne_true]
    rw [List.forall₂_map_left_iff, List.forall₂_map_right_iff, List.forall₂_same]
    intro elem helem
    exact blockShows t hwf halive hD horder ((hmem _ _).mp (List.mem_of_mem_filter helem))

end Report

/-- A build that defines nothing. -/
def BuildFlags.noInst : BuildFlags :=
  ⟨false, false, false, false, false, false, false, false⟩

/-- A store is sampled, and a second store of the same value is found at another place. -/
def stateAfterStores : WitchLogic :=
  runLogic .bytewise (Logic.ofType .noInst .redSpy) .new (storeTwice [0x50])

theorem report_shows_storeTwice :
    ∃ block, contextReport .noInst .redSpy ⟨true, true⟩ stateAfterStores.kids
        (stateAfterStores.propAttrTable.entries.map fun e => (e.1, e.2)) stateAfterStores
          = [block] ∧
      BlockShows ⟨true, true⟩ stateAfterStores 1 block := by
  have hsorted : SortedTable .redSpy
      (stateAfterStores.propAttrTable.entries.map fun e => (e.1, e.2)) stateAfterStores :=
    ⟨.refl _, by decide +kernel⟩
  obtain ⟨cs, -, hmem, -, hshows⟩ := report_shows_of_run .bytewise .noInst .redSpy ⟨true, true⟩
    (storeTwice [0x50]) stateAfterStores.kids _ rfl (fun _ => .refl _) hsorted
  -- the sampled context has a child, so it is in the report
  have hone : 1 ∈ cs := (hmem 1).mpr ⟨by decide +kernel, by decide +kernel⟩
  have hlen : (contextReport .noInst .redSpy ⟨true, true⟩ stateAfterStores.kids
      (stateAfterStores.propAttrTable.entries.map fun e => (e.1, e.2)) stateAfterStores).length
        = 1 := by decide +kernel
  obtain ⟨block, hblock⟩ := List.length_eq_one_iff.mp hlen
  obtain ⟨c, rfl⟩ := List.length_eq_one_iff.mp (hshows.length_eq.trans hlen)
  obtain rfl := List.mem_singleton.mp hone
  refine ⟨block, hblock, ?_⟩
  have hboth : List.Forall₂ (BlockShows ⟨true, true⟩ stateAfterStores) [1] [block] :=
    hblock ▸ hshows
  exact (List.forall₂_cons.mp hboth).1

end Kognizance
