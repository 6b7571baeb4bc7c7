import Kognizance.Witch.Trie

/-!
# The kinds of contexts

Every walk of `addFramesToContextTree` stores its context type into the contexts it comes to. The
report prints a tag for it. A context of two types is to be marked as undefined.

* `history` is what a context has been visited as by a sequence of insertions.
* `contextType_eq`: the metric of a context is the type of its last visit.
* `kinds_iff`: so the contexts of two types are marked iff their last visit marks them.
-/

namespace Kognizance

open Process WitchLogic

namespace WitchLogic

/-! ### Visits -/

/-- The contexts the loop of `addFramesToContextTree` goes into. -/
def walkVisits (ctype : ContextType) : List ContextFrame → WitchLogic → ℕ → List ℕ
  | [], _, _ => []
  | frame :: frames, σ, currentNode =>
    match σ.findChild currentNode frame with
    | some c => c :: walkVisits ctype frames (σ.setContextType c ctype) c
    | none => σ.nextContext :: walkVisits ctype frames
        ((σ.insertChild currentNode frame).setContextType σ.nextContext ctype) σ.nextContext

/-- The contexts an insertion visits. -/
def visits (σ : WitchLogic) (op : Insertion) : List ℕ :=
  walkVisits op.ctype op.directed σ op.root

/-- The tree after an insertion. -/
def afterInsertion (σ : WitchLogic) (op : Insertion) : WitchLogic :=
  (σ.addFramesToContextTree op.contextFrameList op.root op.direction_ParentToChild op.ctype).1

/-- The types a context has been visited as, the first one first. -/
def history : WitchLogic → List Insertion → ℕ → List ContextType
  | _, [], _ => []
  | σ, op :: ops, c =>
    (if c ∈ σ.visits op then [op.ctype] else []) ++ history (σ.afterInsertion op) ops c

/-- The visits since the last one as `SAMPLEDCONTEXT`, the last one first. -/
def sinceSampled (h : List ContextType) : List ContextType :=
  h.reverse.takeWhile fun t => decide (t ≠ .sampledContext)

/-- The tag `printWatchedContext` prints for a value of the metric. -/
def printedTag (i : ℤ) : String :=
  if i = ContextType.usedContext.toInt then "[U]"
  else if i = ContextType.deadContext.toInt then "[D]"
  else if i = ContextType.redContext.toInt then "[R]"
  else if i = ContextType.undefinedContext.toInt then "[UD]"
  else ""

/-- The value of `CONTEXTTYPE`. -/
def contextType (σ : WitchLogic) (c : ℕ) : ℤ := ((σ.context c).metrics .contextType).i

/-- The metric of a context with these visits: undefined after two types, and the type after
one. -/
structure KindRight (h : List ContextType) (i : ℤ) : Prop where
  two : ∀ t ∈ sinceSampled h, ∀ t' ∈ sinceSampled h, t ≠ t' →
    i = ContextType.undefinedContext.toInt ∧ printedTag i = "[UD]"
  one : ∀ t ∈ sinceSampled h, (∀ t' ∈ sinceSampled h, t' = t) →
    i = t.toInt ∧ printedTag i = printedTag t.toInt

/-- Since it was sampled, the context has been visited as one type only, or as undefined by the
last visit. -/
def MarkLasts (h : List ContextType) : Prop :=
  ∀ t ∈ (sinceSampled h).head?, t = .undefinedContext ∨ ∀ t' ∈ sinceSampled h, t' = t

/-! ### The metric is the last visit -/

variable {σ : WitchLogic}

theorem setContextType_contextType (c x : ℕ) (ctype : ContextType) :
    (σ.setContextType c ctype).contextType x = if x = c then ctype.toInt else σ.contextType x := by
  rw [setContextType_eq, contextType, setMetric_i]
  by_cases hx : x = c
  · rw [if_pos ⟨hx, rfl⟩, if_pos hx]
  · rw [if_neg fun h => hx h.1, if_neg hx, contextType]

/-- **One walk** stores its type into the contexts it visits. -/
theorem TreeOk.addFrames_contextType (h : σ.TreeOk) (ctype : ContextType) {c : ℕ}
    (hc : c < σ.nextContext) (frames : List ContextFrame) (x : ℕ) :
    (WitchLogic.addFrames ctype frames σ c).1.contextType x =
      if x ∈ walkVisits ctype frames σ c then ctype.toInt else σ.contextType x := by
  induction frames generalizing σ c with
  | nil => rfl
  | cons frame frames ih =>
    unfold WitchLogic.addFrames walkVisits
    -- the frame is there, and its context gets the type of the walk
    cases hfind : σ.findChild c frame with
    | some d =>
      obtain ⟨hok, hd, -⟩ := h.found hfind ctype
      dsimp only
      rw [ih hok hd, setContextType_contextType]
      by_cases hx : x = d <;> simp [hx]
    -- the frame is inserted, with the default in its metric until then
    | none =>
      obtain ⟨hok, hnew, -⟩ := h.inserted hc frame ctype
      have hold : (σ.insertChild c frame).contextType x = σ.contextType x := by
        unfold contextType
        rw [insertChild_metrics hc (h.unborn _ le_rfl)]
      dsimp only
      rw [ih hok hnew, setContextType_contextType, hold]
      by_cases hx : x = σ.nextContext <;> simp [hx]

/-- **The metric of a context** is the type of its last visit. -/
theorem TreeOk.contextType_eq (h : σ.TreeOk) (hD : σ.SiblingsDiffer) {ops : List Insertion}
    (hops : Along insertStep StartsInTree σ ops) (c : ℕ) :
    (exec insertStep σ ops).state.contextType c =
      ((σ.history ops c).getLast?.map ContextType.toInt).getD (σ.contextType c) := by
  induction ops generalizing σ with
  | nil => rfl
  | cons op ops ih =>
    have hs : insertStep σ op = .running (σ.addFramesToContextTree op.contextFrameList op.root
      op.direction_ParentToChild op.ctype).2 (σ.afterInsertion op) := rfl
    obtain ⟨hok, hD', -⟩ := h.inserts hD hops.1 hs
    have hone : (σ.afterInsertion op).contextType c =
        if c ∈ σ.visits op then op.ctype.toInt else σ.contextType c :=
      h.addFrames_contextType op.ctype hops.1 op.directed c
    rw [exec_cons_running _ hs, ih hok hD' (hops.2 _ _ hs), history, List.getLast?_append]
    cases hlast : ((σ.afterInsertion op).history ops c).getLast? with
    | some t => rfl
    | none =>
      -- no later visit
      rw [Option.map_none, Option.getD_none, hone]
      by_cases hvisit : c ∈ σ.visits op
      · rw [if_pos hvisit, if_pos hvisit]
        rfl
      · rw [if_neg hvisit, if_neg hvisit]
        rfl

/-! ### What the mark is worth -/

theorem toInt_injective : Function.Injective ContextType.toInt := by
  intro t t' h
  cases t <;> cases t' <;> first | rfl | cases h

theorem getLast?_of_sinceSampled {h rest : List ContextType} {t : ContextType}
    (heq : sinceSampled h = t :: rest) : h.getLast? = some t := by
  rw [← List.head?_reverse]
  unfold sinceSampled at heq
  cases hrev : h.reverse with
  | nil => simp [hrev] at heq
  | cons s l =>
    rw [hrev, List.takeWhile_cons] at heq
    split at heq
    · exact congrArg some (List.cons.inj heq).1
    · cases heq

/-- With the type of the last visit in the metric, a context is right iff its mark lasts. -/
theorem kindRight_iff (h : List ContextType) :
    KindRight h ((h.getLast?.map ContextType.toInt).getD ContextType.sampledContext.toInt) ↔
      MarkLasts h := by
  unfold MarkLasts
  -- by the visits since the last `SAMPLEDCONTEXT` one
  cases heq : sinceSampled h with
  | nil =>
    refine ⟨fun _ t ht => absurd ht (by simp), fun _ => ⟨?_, ?_⟩⟩
    · simp [heq]
    · simp [heq]
  | cons t rest =>
    rw [getLast?_of_sinceSampled heq, Option.map_some, Option.getD_some]
    constructor
    · -- two different types since then would make a context of both kinds
      rintro ⟨htwo, -⟩ s hs
      obtain rfl : t = s := by simpa using hs
      by_cases hall : ∀ t' ∈ t :: rest, t' = t
      · exact Or.inr hall
      · simp only [not_forall] at hall
        obtain ⟨t', ht', hne⟩ := hall
        rw [heq] at htwo
        exact Or.inl (toInt_injective (htwo t List.mem_cons_self t' ht' (Ne.symm hne)).1)
    · intro hmark
      have hcases := hmark t rfl
      refine ⟨?_, ?_⟩
      · rw [heq]
        intro s hs s' hs' hne
        rcases hcases with rfl | hall
        · exact ⟨rfl, rfl⟩
        · exact absurd ((hall s hs).trans (hall s' hs').symm) hne
      · rw [heq]
        intro s hs hall
        obtain rfl : t = s := hall t List.mem_cons_self
        exact ⟨rfl, rfl⟩

/-- After every run, a context is right iff its mark lasts. -/
theorem kindRight_treeAfter_iff {ops : List Insertion}
    (hops : Along insertStep StartsInTree .new ops) (c : ℕ) :
    KindRight (history .new ops c) ((treeAfter ops).contextType c) ↔
      MarkLasts (history .new ops c) := by
  have hmetric := treeOk_new.contextType_eq siblingsDiffer_new hops c
  have hnew : WitchLogic.new.contextType c = ContextType.sampledContext.toInt := rfl
  rw [treeAfter, hmetric, hnew]
  exact kindRight_iff _

/-- **Contexts of two types.** All the contexts are right in all the states of a run iff, at each
of its points, every context has been visited since it was sampled as one type only, or as
undefined by its last visit. -/
theorem kinds_iff {ops : List Insertion} (hops : Along insertStep StartsInTree .new ops) :
    (∀ pre post, ops = pre ++ post →
      ∀ c, KindRight (history .new pre c) ((treeAfter pre).contextType c)) ↔
    ∀ pre post, ops = pre ++ post → ∀ c, MarkLasts (history .new pre c) := by
  constructor
  · rintro hright pre post rfl c
    exact (kindRight_treeAfter_iff hops.left c).mp (hright pre post rfl c)
  · rintro hmark pre post rfl c
    exact (kindRight_treeAfter_iff hops.left c).mpr (hmark pre post rfl c)

/-- A stack of one frame, inserted with this type. -/
def insertFrame (ctype : ContextType) : Insertion := ⟨[⟨0x50, 1⟩], contextTreeRoot, true, ctype⟩

/-- The same stack, inserted with these types one after the other. -/
def oneFrame (ctypes : List ContextType) : List Insertion := ctypes.map insertFrame

/-- A frame that has been the context of a use and then of a dead store is printed as the context
of a dead store. -/
theorem usedThenDead_unmarked :
    history .new (oneFrame [.usedContext, .deadContext]) 1 = [.usedContext, .deadContext] ∧
    printedTag ((treeAfter (oneFrame [.usedContext, .deadContext])).contextType 1) = "[D]" ∧
    ¬ KindRight (history .new (oneFrame [.usedContext, .deadContext]) 1)
      ((treeAfter (oneFrame [.usedContext, .deadContext])).contextType 1) := by
  have hhistory : history .new (oneFrame [.usedContext, .deadContext]) 1 =
      [.usedContext, .deadContext] := by decide +kernel
  have htag : printedTag ((treeAfter (oneFrame [.usedContext, .deadContext])).contextType 1) =
      "[D]" := by decide +kernel
  refine ⟨hhistory, htag, fun hright => ?_⟩
  rw [hhistory] at hright
  have hmarked := (hright.two .usedContext (by decide) .deadContext (by decide) (by decide)).2
  exact absurd (htag.symm.trans hmarked) (by decide)

/-- A frame that is sampled after its use, and then is the context of a dead store. -/
def sampledAfter : List Insertion :=
  oneFrame [.usedContext, .sampledContext, .deadContext]

/-- It is printed as the context of a dead store: the use was before it was sampled. -/
theorem kinds_iff_sampledAfter :
    history .new sampledAfter 1 = [.usedContext, .sampledContext, .deadContext] ∧
      KindRight (history .new sampledAfter 1) ((treeAfter sampledAfter).contextType 1) ∧
      printedTag ((treeAfter sampledAfter).contextType 1) = "[D]" := by
  have hops : Along insertStep StartsInTree .new sampledAfter :=
    .cons Nat.one_pos rfl (.cons (by decide +kernel) rfl (.cons (by decide +kernel) rfl trivial))
  have hhistory : history .new sampledAfter 1 =
      [.usedContext, .sampledContext, .deadContext] := by decide +kernel
  -- every insertion goes into the one frame
  have hfirst : WitchLogic.new.visits (insertFrame .usedContext) = [1] := by decide +kernel
  have hsecond : (WitchLogic.new.afterInsertion (insertFrame .usedContext)).visits
      (insertFrame .sampledContext) = [1] := by decide +kernel
  have hthird : ((WitchLogic.new.afterInsertion (insertFrame .usedContext)).afterInsertion
      (insertFrame .sampledContext)).visits (insertFrame .deadContext) = [1] := by decide +kernel
  have hright : KindRight (history .new sampledAfter 1)
      ((treeAfter sampledAfter).contextType 1) := by
    refine (kinds_iff hops).mpr ?_ _ [] (List.append_nil _).symm 1
    -- at no point is there a visit of a second type since the frame was sampled
    intro pre post hsplit c
    rw [sampledAfter, oneFrame, List.map_cons, List.map_cons, List.map_cons, List.map_nil] at hsplit
    rcases pre with _ | ⟨used, _ | ⟨sampled, _ | ⟨dead, _ | ⟨op, rest⟩⟩⟩⟩
    case nil => simp [history, MarkLasts, sinceSampled]
    case cons.nil =>
      obtain ⟨rfl, -⟩ := List.cons.inj hsplit
      simp only [history, hfirst, List.mem_singleton]
      split_ifs <;> simp [MarkLasts, sinceSampled, insertFrame]
    case cons.cons.nil =>
      obtain ⟨rfl, hrest⟩ := List.cons.inj hsplit
      obtain ⟨rfl, -⟩ := List.cons.inj hrest
      simp only [history, hfirst, hsecond, List.mem_singleton]
      split_ifs <;> simp [MarkLasts, sinceSampled, insertFrame]
    case cons.cons.cons.nil =>
      obtain ⟨rfl, hrest⟩ := List.cons.inj hsplit
      obtain ⟨rfl, hlast⟩ := List.cons.inj hrest
      obtain ⟨rfl, -⟩ := List.cons.inj hlast
      simp only [history, hfirst, hsecond, hthird, List.mem_singleton]
      split_ifs <;> simp [MarkLasts, sinceSampled, insertFrame]
    case cons.cons.cons.cons => simp at hsplit
  refine ⟨hhistory, hright, ?_⟩
  rw [hhistory] at hright
  exact (hright.one .deadContext (by decide) (by decide)).2

end WitchLogic

end Kognizance
