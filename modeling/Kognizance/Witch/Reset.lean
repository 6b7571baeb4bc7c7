import Kognizance.Witch.Report

/-!
# Cleaning up after a report

`printContextTree` of RedSpy, LoadSpy and DeadStore ends in `cleanContextTree`, which is
meant to leave a logic as good as new. It empties the two tables, deletes every context
below the root and clears the totals. The root stays, and it keeps its metrics and the
pointers to its deleted children.

* `cleanContextTree_deletes_once`: after every run, every context but the root is
  deleted exactly once.
* `root_keeps_report`: the root starts the next run with the bytes of the last report.
* `resets_iff`: the logic is as good as new exactly if no frame has been sampled.
* `sample_keeps_deleted`: after one sample the root has a deleted child.
-/

namespace Kognizance

open Process WitchLogic Arena

/-- The logic has deleted nothing yet, and its contexts hang together. -/
structure Alive (σ : WitchLogic) : Prop where
  tree : σ.TreeOk
  rooted : ∀ c, c < σ.nextContext → Below σ.kids contextTreeRoot c
  deleted : σ.deleted = []

/-- The figures of two reports agree: at every path of frames, the one to the root
included, and in the totals. -/
structure SameFigures (σ τ : WitchLogic) : Prop where
  node : ∀ frames, (σ.follow frames contextTreeRoot).map (fun c => (σ.context c).metrics)
    = (τ.follow frames contextTreeRoot).map fun c => (τ.context c).metrics
  total : σ.total = τ.total
  watched : σ.watchedSampleCount = τ.watchedSampleCount

/-- The post-processing after `s1` leaves a logic as good as new: it has deleted each
context but the root once, and reaches none of them; and `s2` is reported as from a
fresh logic. -/
structure Resets (F : FloatUnit) (b : BuildFlags) (t : WitchLogicType) (s1 s2 : List LogicOp) :
    Prop where
  reachable : ∀ c,
    let τ := printContextTree b t (runLogic F (Logic.ofType b t) .new s1)
    Below τ.kids contextTreeRoot c → c ∉ τ.deleted
  once : ∀ c,
    let τ := printContextTree b t (runLogic F (Logic.ofType b t) .new s1)
    0 < c → c < τ.nextContext → τ.deleted.count c = 1
  fresh :
    let τ := printContextTree b t (runLogic F (Logic.ofType b t) .new s1)
    SameFigures (calculate b t (runLogic F (Logic.ofType b t) τ s2))
      (calculate b t (runLogic F (Logic.ofType b t) .new s2))

/-! ### What the clean-up deletes -/

/-- Below the root the clean-up deletes children first. -/
theorem cleanChildContext_succ (σ : WitchLogic) (n c i : ℕ) :
    σ.cleanChildContext n c (i + 1) = postorder σ.kids n c := by
  induction n generalizing c i with
  | zero => rfl
  | succ n ih =>
    unfold cleanChildContext postorder
    rw [if_pos (Nat.succ_ne_zero i)]
    congr 1
    exact List.flatMap_congr fun d _ => ih d (i + 1)

/-- The root itself is not deleted. -/
theorem cleanChildContext_root (σ : WitchLogic) (n : ℕ) :
    postorder σ.kids (n + 1) contextTreeRoot
      = σ.cleanChildContext (n + 1) contextTreeRoot 0 ++ [contextTreeRoot] := by
  unfold cleanChildContext postorder
  rw [if_neg (not_not.mpr rfl), List.append_nil]
  congr 1
  exact List.flatMap_congr fun d _ => (cleanChildContext_succ σ n d 0).symm

/-- The clean-up walks over what is below the root, and meets nothing twice. -/
theorem Alive.count_cleanChildContext {σ : WitchLogic} (h : Alive σ) {c : ℕ} (hpos : 0 < c)
    (hc : c < σ.nextContext) :
    (σ.cleanChildContext σ.nextContext contextTreeRoot 0).count c = 1 := by
  -- the clean-up is the post-order walk without the root
  obtain ⟨n, hn⟩ := Nat.exists_eq_succ_of_ne_zero h.tree.pos.ne'
  have hperm : (postorder σ.kids σ.nextContext contextTreeRoot).Perm
      (traverse σ.kids σ.nextContext contextTreeRoot) := postorder_perm _ _
  have hnodup := (h.tree.forest.traverse_nodup σ.nextContext contextTreeRoot).perm hperm.symm
  have hmem : c ∈ postorder σ.kids σ.nextContext contextTreeRoot := by
    rw [hperm.mem_iff, h.tree.forest.mem_traverse_iff h.tree.pos (Nat.le_add_left _ _)]
    exact h.rooted c hc
  have hcount := List.count_eq_one_of_mem hnodup hmem
  have hroot : [contextTreeRoot].count c = 0 :=
    List.count_eq_zero_of_not_mem (by simpa using hpos.ne')
  rw [hn, cleanChildContext_root, List.count_append, hroot, add_zero] at hcount
  rw [hn]
  exact hcount

/-- **The roll-up rule.** What storing into metrics keeps survives the roll-up. -/
theorem calculateForAllContext_invariant {I : WitchLogic → Prop}
    (hmetric : ∀ σ c m v, I σ → I (σ.setMetric c m v)) (n : ℕ) {σ : WitchLogic} (h : I σ) (c : ℕ) :
    I (calculateForAllContext n σ c).2 := by
  -- over the depth of the recursion, and within it over the children
  induction n generalizing σ c with
  | zero => exact h
  | succ n ih =>
    have hfold : ∀ (l : List ℕ) (acc : MetricVal × WitchLogic), I acc.2 →
        I (l.foldl (fun acc d => (acc.1 + (calculateForAllContext n acc.2 d).1,
          (calculateForAllContext n acc.2 d).2)) acc).2 := by
      intro l
      induction l with
      | nil => exact fun _ hacc => hacc
      | cons d l ihl => exact fun acc hacc => ihl _ (ih hacc d)
    unfold calculateForAllContext
    split_ifs
    · exact h
    · exact hmetric _ c _ _ (hmetric _ c _ _ (hfold (σ.context c).children (0, σ) h))

/-- The roll-up changes metrics only. -/
theorem calculate_fields (b : BuildFlags) (t : WitchLogicType) (σ : WitchLogic) :
    SameTree σ (calculate b t σ) ∧ (calculate b t σ).nextContext = σ.nextContext ∧
      (calculate b t σ).deleted = σ.deleted := by
  unfold calculate
  split_ifs
  · refine calculateForAllContext_invariant
      (I := fun τ => SameTree σ τ ∧ τ.nextContext = σ.nextContext ∧ τ.deleted = σ.deleted)
      ?_ σ.nextContext ⟨.refl σ, rfl, rfl⟩ contextTreeRoot
    rintro τ c m v ⟨htree, hnext, hdeleted⟩
    exact ⟨htree.trans (sameTree_setMetric τ c m v), hnext, hdeleted⟩
  · exact ⟨.refl σ, rfl, rfl⟩

/-! ### What a run keeps alive -/

namespace Alive

variable {σ σ' : WitchLogic} {leafContext : ℕ}

/-- Only the heap matters. -/
theorem congr (h : Alive σ) (hcontext : σ'.context = σ.context)
    (hnext : σ'.nextContext = σ.nextContext) (hdeleted : σ'.deleted = σ.deleted) : Alive σ' where
  tree := h.tree.congr hcontext hnext
  rooted := by
    have hkids : σ'.kids = σ.kids := by
      unfold WitchLogic.kids
      rw [hcontext]
    rw [hkids, hnext]
    exact h.rooted
  deleted := hdeleted.trans h.deleted

theorem setMetric (h : Alive σ) {c : ℕ} (hc : c < σ.nextContext) (m : MetricType) (v : ℤ) :
    Alive (σ.setMetric c m v) where
  tree := h.tree.setMetric hc m v
  rooted := by
    rw [setMetric_kids]
    exact h.rooted
  deleted := h.deleted

/-- A new child hangs below its parent. -/
theorem insertChild (h : Alive σ) {p : ℕ} (hp : p < σ.nextContext) (frame : ContextFrame) :
    Alive (σ.insertChild p frame) where
  tree := h.tree.insertChild hp frame
  rooted := by
    rw [insertChild_kids hp (h.tree.unborn _ le_rfl)]
    have hold : ∀ c, c < σ.nextContext →
        Below (hang σ.kids p σ.nextContext) contextTreeRoot c :=
      fun c hc => (below_hang_iff h.tree.forest hc).mpr (h.rooted c hc)
    intro c hc
    rcases Nat.lt_succ_iff_lt_or_eq.mp hc with hlt | rfl
    · exact hold c hlt
    · exact (hold p hp).tail (mem_hang.mpr (Or.inl ⟨rfl, rfl⟩))
  deleted := h.deleted

theorem addFrames (h : Alive σ) (ctype : ContextType) {c : ℕ} (hc : c < σ.nextContext)
    (frames : List ContextFrame) : Alive (WitchLogic.addFrames ctype frames σ c).1 := by
  refine (addFrames_invariant (I := fun σ d => Alive σ ∧ d < σ.nextContext) ?_ ?_ ⟨h, hc⟩
    frames).1
  · rintro τ x frame d ⟨hτ, -⟩ hfind
    have hd := hτ.tree.forest.lt_bound (findChild_eq_some hfind).1
    rw [setContextType_eq]
    exact ⟨hτ.setMetric hd _ _, hd⟩
  · rintro τ x frame ⟨hτ, hx⟩ -
    have hnew : τ.nextContext < (τ.insertChild x frame).nextContext := Nat.lt_succ_self _
    rw [setContextType_eq]
    exact ⟨(hτ.insertChild hx frame).setMetric hnew _ _, hnew⟩

theorem addUsed (h : Alive σ) (F : FloatUnit) (bad : List MetricType) (updates shows : Bool)
    (currEvent : Event) (hleaf : leafContext < σ.nextContext) (inc : ℕ) :
    Alive (addUsed F bad updates shows currEvent leafContext inc σ) := by
  have h₀ : Alive { σ with
      total := Function.update σ.total .usedBytes (σ.total .usedBytes + inc) } :=
    h.congr rfl rfl rfl
  have hshow : ∀ τ : WitchLogic, Alive τ → leafContext < τ.nextContext →
      Alive (if shows then (τ.addFramesToContextTree currEvent.eventContext_agent leafContext
        false .usedContext).1 else τ) := by
    intro τ hτ hlt
    cases shows with
    | false => exact hτ
    | true => exact hτ.addFrames .usedContext hlt currEvent.eventContext_agent
  cases updates with
  | false => exact hshow _ (h₀.setMetric hleaf _ _) hleaf
  | true => exact hshow _ ((h₀.setMetric hleaf _ _).setMetric hleaf _ _) hleaf

theorem addWasted (h : Alive σ) (F : FloatUnit) (bad : List MetricType) (m : MetricType)
    (ctype : ContextType) (currEvent : Event) (hleaf : leafContext < σ.nextContext) (inc : ℕ) :
    Alive (addWasted F bad m ctype currEvent leafContext inc σ) := by
  have h₀ : Alive { σ with total := Function.update σ.total m (σ.total m + inc) } :=
    h.congr rfl rfl rfl
  have hleaf₀ : leafContext < WitchLogic.nextContext { σ with
      total := Function.update σ.total m (σ.total m + inc) } := hleaf
  have hwalk := h₀.addFrames ctype hleaf₀ currEvent.eventContext_agent
  obtain ⟨-, hnode, hg, -⟩ := h₀.tree.addFrames ctype hleaf₀ currEvent.eventContext_agent
  have hleaf₁ := hleaf.trans_le hg.next
  exact ((hwalk.setMetric hnode _ _).setMetric hleaf₁ _ _).setMetric hleaf₁ _ _

theorem record (h : Alive σ) (F : FloatUnit) (l : Logic) (found : Finding) (currEvent : Event)
    (hleaf : leafContext < σ.nextContext) (inc : ℕ) :
    Alive (l.record F found currEvent leafContext inc σ) := by
  rcases l.record_cases F found currEvent leafContext inc σ with
    ⟨-, bad, updates, shows, heq⟩ | ⟨-, bad, ctype, heq⟩
  · rw [heq]
    exact h.addUsed F bad updates shows currEvent hleaf inc
  · rw [heq]
    exact h.addWasted F bad found.metric ctype currEvent hleaf inc

/-- **A trigger.** -/
theorem called {F : FloatUnit} {l : Logic} {currEvent sampleEvent : Event} {wpt : WPTriggerInfo}
    {a : WPTriggerAction} (hwf : WellFormed σ) (h : Alive σ)
    (hc : Called F l currEvent sampleEvent wpt σ a σ') : Alive σ' := by
  cases hc with
  | ignored => exact h
  | mismatched => exact h
  | rejected | forgotten | refused => exact h.congr rfl rfl rfl
  | lost leafContext | empty leafContext =>
    obtain ⟨table, heq, -⟩ := takePending_fields currEvent sampleEvent σ leafContext
    rw [heq]
    exact h.congr rfl rfl rfl
  | recorded leafContext hp hleaf =>
    obtain ⟨table, heq, -⟩ := takePending_fields currEvent sampleEvent σ leafContext
    have htaken : Alive { σ with propAttrTable := table } := h.congr rfl rfl rfl
    rw [heq]
    exact (htaken.record F l _ currEvent (hwf.leaf_lt hleaf) _).congr rfl rfl rfl

/-- **A sample.** -/
theorem sampled {event : Event} {ok : Bool} (h : Alive σ) (hs : Sampled σ event ok σ') :
    Alive σ' := by
  cases hs with
  | failed => exact h
  | counted σ₁ leafContext n hne hadded =>
    have hwalk := h.addFrames .sampledContext h.tree.pos event.eventContext_agent.reverse
    rw [hadded] at hwalk
    exact hwalk.congr rfl rfl rfl

end Alive

theorem alive_new : Alive .new where
  tree := treeOk_new
  rooted := by
    intro c hc
    obtain rfl : c = contextTreeRoot := Nat.lt_one_iff.mp hc
    exact .refl
  deleted := rfl

theorem alive_of_run (F : FloatUnit) (l : Logic) (ops : List LogicOp) :
    WellFormed (runLogic F l .new ops) ∧ Alive (runLogic F l .new ops) :=
  wellFormed_invariant (C := fun _ _ => True)
    (fun _ _ _ _ _ h _ hs => h.sampled hs)
    (fun _ _ _ _ _ _ hwf h _ hc => h.called hwf hc)
    wellFormed_new alive_new (along_of_forall fun _ _ => trivial)

/-! ### What the clean-up leaves -/

section CleanUp

variable (F : FloatUnit) (b : BuildFlags) (t : WitchLogicType)

/-- Behind the roll-up the clean-up deletes every context once. -/
theorem Alive.count_calculate {σ : WitchLogic} (h : Alive σ) {c : ℕ} (hpos : 0 < c)
    (hc : c < σ.nextContext) : (calculate b t σ).cleanContextTree.deleted.count c = 1 := by
  obtain ⟨htree, hnext, hdeleted⟩ := calculate_fields b t σ
  -- the clean-up looks at the children only, which the roll-up leaves
  have hclean : ∀ n d i, (calculate b t σ).cleanChildContext n d i = σ.cleanChildContext n d i := by
    intro n
    induction n with
    | zero => exact fun _ _ => rfl
    | succ n ih =>
      intro d i
      have hkids : ((calculate b t σ).context d).children = (σ.context d).children :=
        congrFun htree.kids d
      unfold cleanChildContext
      rw [hkids]
      congr 1
      exact List.flatMap_congr fun x _ => ih x (i + 1)
  change (((calculate b t σ).cleanChildContext (calculate b t σ).nextContext contextTreeRoot
    0).reverse ++ (calculate b t σ).deleted).count c = 1
  rw [hclean, hnext, hdeleted, h.deleted, List.append_nil, List.count_reverse]
  exact h.count_cleanChildContext hpos hc

/-- **After every run the clean-up deletes every context but the root, and each once.** -/
theorem cleanContextTree_deletes_once (ops : List LogicOp) (c : ℕ) (hpos : 0 < c) :
    let σ := runLogic F (Logic.ofType b t) .new ops
    c < σ.nextContext → (calculate b t σ).cleanContextTree.deleted.count c = 1 :=
  fun hc => (alive_of_run F _ ops).2.count_calculate b t hpos hc

/-- The root starts the next run with the bytes of the last report. -/
theorem root_keeps_report (ops : List LogicOp) (hinst : b.inst t = true) :
    let σ := runLogic F (Logic.ofType b t) .new ops
    reportBytes (calculate b t σ).cleanContextTree contextTreeRoot = shownSum σ := by
  intro σ
  have hroot := (alive_of_run F (Logic.ofType b t) ops).2.tree.calculate_root_sum
  change reportBytes (calculate b t σ) contextTreeRoot = shownSum σ
  unfold calculate
  rw [if_pos hinst]
  exact hroot

end CleanUp

/-! ### Runs without a frame -/

section Fresh

variable {F : FloatUnit} {l : Logic} {σ : WitchLogic}

/-- A sample without frames leaves a fresh logic as it was. -/
theorem Sampled.eq_new {event : Event} {ok : Bool} (hs : Sampled .new event ok σ)
    (hempty : event.eventContext_agent = []) : σ = .new := by
  cases hs with
  | failed => rfl
  | counted σ₁ leafContext n hne => exact absurd hempty hne

/-- So does a trigger: a fresh logic knows no sample. -/
theorem Called.eq_new {currEvent sampleEvent : Event} {wpt : WPTriggerInfo} {a : WPTriggerAction}
    (hc : Called F l currEvent sampleEvent wpt .new a σ) : σ = .new := by
  have hnone : ∀ {id : ℤ} {leafContext : ℕ},
      WitchLogic.new.eventToContextLeafMap.lookup id ≠ some leafContext := nofun
  cases hc with
  | ignored => rfl
  | mismatched => rfl
  | rejected | forgotten | refused => rfl
  | lost leafContext hp hleaf | empty leafContext hp hleaf | recorded leafContext hp hleaf =>
    exact absurd hleaf hnone

theorem runLogic_new (F : FloatUnit) (l : Logic) {ops : List LogicOp}
    (h : ∀ event, LogicOp.sample event ∈ ops → event.eventContext_agent = []) :
    runLogic F l .new ops = .new := by
  refine runLogic_invariant (I := fun σ => σ = .new)
    (C := fun _ op => ∀ event, op = .sample event → event.eventContext_agent = []) ?_ ?_ rfl
    (along_of_forall fun op hop event heq => h event (heq ▸ hop))
  · rintro _ event rfl hempty
    exact (witchOnSampleCallback_sampled treeOk_new event).eq_new (hempty event rfl)
  · rintro _ currEvent sampleEvent wpt rfl -
    exact (witchOnWPCallback_called F l currEvent sampleEvent wpt .new).eq_new

/-- Adding nothing changes nothing. -/
theorem increment_zero (σ : WitchLogic) (c : ℕ) (m : MetricType) : σ.increment c m 0 = σ := by
  unfold increment WitchLogic.setMetric
  simp only [add_zero, Function.update_eq_self]

/-- The report of a fresh logic is empty, and leaves it fresh. -/
theorem printContextTree_new (b : BuildFlags) (t : WitchLogicType) :
    printContextTree b t .new = .new := by
  have hcalculate : calculate b t .new = .new := by
    have hroll : (calculateForAllContext 1 .new contextTreeRoot).2
        = (WitchLogic.new.increment contextTreeRoot .redBytes 0).increment contextTreeRoot
          .usedBytes 0 := rfl
    unfold calculate
    split_ifs
    · change (calculateForAllContext 1 .new contextTreeRoot).2 = .new
      rw [hroll, increment_zero, increment_zero]
    · rfl
  unfold printContextTree
  rw [hcalculate]
  cases t with
  | redSpy | loadSpy | deadSpy | dupSpy | falseShare => rfl

/-! ### Runs with a frame -/

/-- A sample with a frame constructs a context. -/
theorem Sampled.one_lt {event : Event} {ok : Bool} {σ' : WitchLogic} (hwf : WellFormed σ)
    (hs : Sampled σ event ok σ') (hne : event.eventContext_agent ≠ []) : 1 < σ'.nextContext := by
  cases hs with
  | failed hempty => exact absurd hempty hne
  | counted σ₁ leafContext n _ hadded hpos =>
    exact Nat.lt_of_le_of_lt hpos (hwf.walked hadded).2.1

/-- No step forgets a context. -/
theorem Called.next_le {currEvent sampleEvent : Event} {wpt : WPTriggerInfo}
    {a : WPTriggerAction} {σ' : WitchLogic} (hwf : WellFormed σ)
    (hc : Called F l currEvent sampleEvent wpt σ a σ') : σ.nextContext ≤ σ'.nextContext := by
  cases hc with
  | ignored => exact le_rfl
  | mismatched => exact le_rfl
  | rejected | forgotten | refused => exact le_rfl
  | lost leafContext | empty leafContext =>
    obtain ⟨table, heq, -⟩ := takePending_fields currEvent sampleEvent σ leafContext
    rw [heq]
    exact le_rfl
  | recorded leafContext hp hleaf =>
    obtain ⟨table, heq, -⟩ := takePending_fields currEvent sampleEvent σ leafContext
    obtain ⟨extra, hrec, -⟩ := hwf.record_taken hleaf F l (l.finding F currEvent sampleEvent wpt)
      (pendingBytes σ currEvent sampleEvent leafContext)
    rw [heq] at hrec
    rw [heq]
    exact hrec.next

theorem Sampled.next_le {event : Event} {ok : Bool} {σ' : WitchLogic} (hwf : WellFormed σ)
    (hs : Sampled σ event ok σ') : σ.nextContext ≤ σ'.nextContext := by
  cases hs with
  | failed => exact le_rfl
  | counted σ₁ leafContext n _ hadded => exact (hwf.walked hadded).2.2.next

/-- The rest of a run keeps the contexts. -/
theorem one_lt_of_run {ops : List LogicOp} (hwf : WellFormed σ) (h : 1 < σ.nextContext) :
    1 < (runLogic F l σ ops).nextContext := by
  have hinv : WellFormed (runLogic F l σ ops) ∧ 1 < (runLogic F l σ ops).nextContext :=
    wellFormed_invariant (I := fun τ => 1 < τ.nextContext) (C := fun _ _ => True)
      (fun _ _ _ _ hwf hlt _ hs => hlt.trans_le (hs.next_le hwf))
      (fun _ _ _ _ _ _ hwf hlt _ hc => hlt.trans_le (hc.next_le hwf)) hwf h
      (along_of_forall fun _ _ => trivial)
  exact hinv.2

/-- A run that samples a frame constructs a context. -/
theorem one_lt_of_sample {ops : List LogicOp} (hwf : WellFormed σ) {event : Event}
    (hmem : .sample event ∈ ops) (hne : event.eventContext_agent ≠ []) :
    1 < (runLogic F l σ ops).nextContext := by
  induction ops generalizing σ with
  | nil => cases hmem
  | cons op ops ih =>
    rcases List.mem_cons.mp hmem with rfl | hrest
    · -- the sample constructs a context, and the rest of the run keeps it
      have hs := witchOnSampleCallback_sampled hwf.tree event
      change 1 < (runLogic F l (σ.witchOnSampleCallback event).2 ops).nextContext
      exact one_lt_of_run (hwf.sampled hs) (hs.one_lt hwf hne)
    · cases op with
      | sample e =>
        change 1 < (runLogic F l (σ.witchOnSampleCallback e).2 ops).nextContext
        exact ih (hwf.sampled (witchOnSampleCallback_sampled hwf.tree e)) hrest
      | trigger currEvent sampleEvent wpt =>
        change 1 < (runLogic F l
          (l.witchOnWPCallback F currEvent sampleEvent wpt σ).2 ops).nextContext
        exact ih (hwf.called (witchOnWPCallback_called F l currEvent sampleEvent wpt σ)) hrest

end Fresh

/-- The report moves no context, clean-up or not. -/
theorem printContextTree_fields (b : BuildFlags) (t : WitchLogicType) (σ : WitchLogic) :
    (printContextTree b t σ).kids = σ.kids ∧
      (printContextTree b t σ).nextContext = σ.nextContext := by
  obtain ⟨htree, hnext, -⟩ := calculate_fields b t σ
  cases t with
  | redSpy | loadSpy | deadSpy | dupSpy | falseShare => exact ⟨htree.kids, hnext⟩

/-- **The post-processing leaves a logic as good as new exactly if no frame has been
sampled before.** -/
theorem resets_iff (F : FloatUnit) (b : BuildFlags) (t : WitchLogicType)
    (s1 s2 : List LogicOp) :
    Resets F b t s1 s2 ↔
      ∀ event, LogicOp.sample event ∈ s1 → event.eventContext_agent = [] := by
  constructor
  · intro h event hmem
    by_contra hne
    obtain ⟨hwf, halive⟩ := alive_of_run F (Logic.ofType b t) s1
    have hlt : 1 < (runLogic F (Logic.ofType b t) .new s1).nextContext :=
      one_lt_of_sample wellFormed_new hmem hne
    obtain ⟨hkids, hnext⟩ :=
      printContextTree_fields b t (runLogic F (Logic.ofType b t) .new s1)
    -- the first context constructed is deleted, and still reached
    have honce := h.once 1 Nat.one_pos (hlt.trans_eq hnext.symm)
    have hreached := halive.rooted 1 hlt
    rw [← hkids] at hreached
    refine h.reachable 1 hreached (List.count_pos_iff.mp ?_)
    rw [honce]
    exact Nat.one_pos
  · intro h
    have hnew : printContextTree b t (runLogic F (Logic.ofType b t) .new s1) = .new := by
      rw [runLogic_new F _ h, printContextTree_new]
    refine ⟨?_, ?_, ?_⟩
    · intro c
      rw [hnew]
      exact fun _ => List.not_mem_nil
    · intro c
      rw [hnew]
      intro τ hpos hlt
      exact absurd hpos (not_lt.mpr (Nat.lt_succ_iff.mp hlt))
    · rw [hnew]
      exact ⟨fun _ => rfl, rfl, rfl⟩

/-- **After one sample the root has a deleted child.** -/
theorem sample_keeps_deleted :
    ¬ Resets .bytewise .instOnly .redSpy [.sample sampledStore] [] := by
  intro h
  have hkid : 1 ∈ (printContextTree .instOnly .redSpy (runLogic .bytewise
      (Logic.ofType .instOnly .redSpy) .new [.sample sampledStore])).kids 0 := by
    decide +kernel
  have hdeleted : 1 ∈ (printContextTree .instOnly .redSpy (runLogic .bytewise
      (Logic.ofType .instOnly .redSpy) .new [.sample sampledStore])).deleted := by
    decide +kernel
  exact h.reachable 1 (.single hkid) hdeleted

end Kognizance
