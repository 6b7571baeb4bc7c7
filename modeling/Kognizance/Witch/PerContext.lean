import Mathlib.Algebra.BigOperators.Group.Finset.Basic
import Kognizance.Witch.Attribution

/-!
# The figures per context and the global figures

A wasteful trigger adds its bytes to the sampled context and to the context that the
trigger's frames lead to below it. The sum over the sampled contexts, the keys of
`propAttrTable`, therefore counts the bytes once only if the second context is not
sampled itself: neither now, nor when a later sample ends at it.

* `keySum_eq_total_of_run`: in every run whose steps keep the two kinds of context apart
  (`KeepsApart`), each metric sums up to its global total.
* `emptyStack_counted_twice`: a trigger without frames counts its bytes twice.
-/

namespace Kognizance

open Process WitchLogic

/-- The contexts that have been sampled. -/
def sampledContexts (σ : WitchLogic) : Finset ℕ := σ.propAttrTable.keys.toFinset

theorem mem_sampledContexts {σ : WitchLogic} {c : ℕ} :
    c ∈ sampledContexts σ ↔ c ∈ σ.propAttrTable := by
  rw [sampledContexts, List.mem_toFinset, AList.mem_keys]

/-- The sum of a metric over the sampled contexts. -/
def keySum (σ : WitchLogic) (m : MetricType) : ℤ :=
  ∑ c ∈ sampledContexts σ, ((σ.context c).metrics m).i

/-- A sample does not end at a context that was only watched so far and has bytes, and a
trigger that finds waste does not lead to a sampled context. -/
def KeepsApart (F : FloatUnit) (b : BuildFlags) (t : WitchLogicType) (σ : WitchLogic) :
    LogicOp → Prop
  | .sample event => event.eventContext_agent ≠ [] → ∀ c,
      σ.follow event.eventContext_agent.reverse contextTreeRoot = some c →
      c ∉ σ.propAttrTable → ∀ m ∈ t.totals, ((σ.context c).metrics m).i = 0
  | .trigger currEvent sampleEvent wpt => ∀ leafContext node,
      Attributes (Logic.ofType b t) currEvent sampleEvent wpt σ leafContext →
      ((Logic.ofType b t).finding F currEvent sampleEvent wpt).metric ≠ .usedBytes →
      σ.follow currEvent.eventContext_agent leafContext = some node → node ∉ σ.propAttrTable

/-- The metrics sum up to the totals. -/
def SumsUp (t : WitchLogicType) (σ : WitchLogic) : Prop :=
  ∀ m ∈ t.totals, keySum σ m = σ.total m

theorem totals_ne {t : WitchLogicType} {m : MetricType} (hm : m ∈ t.totals) :
    m ≠ .inefficiency ∧ m ≠ .contextType := by
  cases t with
  | redSpy | loadSpy | dupSpy | deadSpy | falseShare =>
    revert m
    decide

/-- Adding at one place adds to the sum, if the place counts. -/
theorem sum_ite_place (K : Finset ℕ) (c : ℕ) (p : Prop) [Decidable p] (v : ℤ) :
    (∑ x ∈ K, if x = c ∧ p then v else 0) = if c ∈ K ∧ p then v else 0 := by
  by_cases hp : p
  · simp only [hp, and_true, Finset.sum_ite_eq']
  · simp only [hp, and_false, if_false, Finset.sum_const_zero]

/-! ### One step -/

section Step

variable {F : FloatUnit} {b : BuildFlags} {t : WitchLogicType} {σ σ' : WitchLogic}

/-- The sum only depends on the sampled contexts and their metrics. -/
theorem keySum_congr {m : MetricType} (hkeys : ∀ c, c ∈ σ'.propAttrTable ↔ c ∈ σ.propAttrTable)
    (hmetric : ∀ c, ((σ'.context c).metrics m).i = ((σ.context c).metrics m).i) :
    keySum σ' m = keySum σ m := by
  have hsame : sampledContexts σ' = sampledContexts σ := by
    ext c
    rw [mem_sampledContexts, mem_sampledContexts, hkeys]
  unfold keySum
  rw [hsame]
  exact Finset.sum_congr rfl fun c _ => hmetric c

/-- A context that is not the other one gets nothing as such. -/
theorem extra_eq_zero {x inc : ℕ} {m m' : MetricType} {extra : Option ℕ}
    (h : inc ≠ 0 → extra ≠ some x) :
    (if some x = extra ∧ m' = m then (inc : ℤ) else 0) = 0 := by
  split_ifs with hex
  · by_contra hne
    exact h (fun h0 => hne (by rw [h0, Nat.cast_zero])) hex.1.symm
  · rfl

/-- Attributing bytes adds them once for the sampled context, and once more if the other
context is sampled as well. -/
theorem keySum_recorded {leafContext inc : ℕ} {m m' : MetricType} {extra : Option ℕ}
    (hrec : Recorded σ σ' leafContext inc m extra) (hleaf : leafContext ∈ σ.propAttrTable)
    (hextra : inc ≠ 0 → ∀ node, extra = some node → node ∉ σ.propAttrTable)
    (hm' : m' ≠ .inefficiency ∧ m' ≠ .contextType) :
    keySum σ' m' = keySum σ m' + if m' = m then (inc : ℤ) else 0 := by
  have hsame : sampledContexts σ' = sampledContexts σ := by
    rw [sampledContexts, hrec.attr, sampledContexts]
  have hadd : ∀ c ∈ sampledContexts σ, ((σ'.context c).metrics m').i
      = ((σ.context c).metrics m').i
        + if c = leafContext ∧ m' = m then (inc : ℤ) else 0 := by
    intro c hc
    -- if the other context is sampled, there were no bytes to add
    have hother : inc ≠ 0 → extra ≠ some c :=
      fun hinc hnode => hextra hinc c hnode (mem_sampledContexts.mp hc)
    rw [hrec.metric c m' hm'.1 hm'.2, extra_eq_zero hother, add_zero]
  unfold keySum
  rw [hsame, Finset.sum_congr rfl hadd, Finset.sum_add_distrib, sum_ite_place]
  simp only [mem_sampledContexts.mpr hleaf, true_and]

theorem SumsUp.congr (h : SumsUp t σ)
    (hkeys : ∀ c, c ∈ σ'.propAttrTable ↔ c ∈ σ.propAttrTable)
    (hcontext : σ'.context = σ.context) (htotal : σ'.total = σ.total) : SumsUp t σ' := by
  intro m hm
  rw [htotal, ← h m hm]
  refine keySum_congr hkeys fun c => ?_
  rw [hcontext]

theorem SumsUp.recorded (h : SumsUp t σ) {leafContext inc : ℕ} {m : MetricType}
    {extra : Option ℕ} (hrec : Recorded σ σ' leafContext inc m extra)
    (hleaf : leafContext ∈ σ.propAttrTable)
    (hextra : inc ≠ 0 → ∀ node, extra = some node → node ∉ σ.propAttrTable) : SumsUp t σ' := by
  intro m' hm'
  rw [keySum_recorded hrec hleaf hextra (totals_ne hm'), h m' hm', hrec.total,
    Function.update_apply]
  split_ifs with hmetric
  · subst hmetric
    rw [Nat.cast_add]
  · rw [add_zero]

/-- **A trigger.** -/
theorem SumsUp.called {currEvent sampleEvent : Event} {wpt : WPTriggerInfo}
    {a : WPTriggerAction} (hwf : WellFormed σ) (h : SumsUp t σ)
    (hapart : KeepsApart F b t σ (.trigger currEvent sampleEvent wpt))
    (hc : Called F (Logic.ofType b t) currEvent sampleEvent wpt σ a σ') : SumsUp t σ' := by
  cases hc with
  | ignored => exact h
  | mismatched => exact h
  | rejected => exact h
  | forgotten => exact h
  | refused => exact h
  | lost leafContext | empty leafContext =>
    obtain ⟨table, heq, hkeys⟩ := takePending_fields currEvent sampleEvent σ leafContext
    rw [heq]
    exact h.congr hkeys rfl rfl
  | recorded leafContext hp hleaf hyes hinc =>
    -- taking the pending samples moves no bytes and no key
    obtain ⟨table, heq, hkeys⟩ := takePending_fields currEvent sampleEvent σ leafContext
    have htaken : SumsUp t (takePending currEvent sampleEvent leafContext σ).2 := by
      rw [heq]
      exact h.congr hkeys rfl rfl
    have hkey : leafContext ∈
        (takePending currEvent sampleEvent leafContext σ).2.propAttrTable := by
      rw [heq, hkeys]
      exact hwf.leaf _ _ hleaf
    obtain ⟨extra, hrec, hwatched⟩ := hwf.record_watched hleaf F (Logic.ofType b t)
      ((Logic.ofType b t).finding F currEvent sampleEvent wpt)
      (pendingBytes σ currEvent sampleEvent leafContext)
    refine (htaken.recorded hrec hkey ?_).congr (fun _ => Iff.rfl) rfl rfl
    -- the other context is not sampled: it is a fresh one, or the run keeps it apart
    intro hpending node hnode
    obtain ⟨hwaste, hsome | hout⟩ := hwatched node hnode
    · rw [heq, hkeys]
      exact hapart leafContext node ⟨hp, hleaf, hyes, hpending⟩ hwaste hsome
    · exact hout

/-- **A sample.** The context it counts for is a key already, a fresh one, or one that
the run keeps free of bytes. -/
theorem SumsUp.sampled {event : Event} {ok : Bool} (hwf : WellFormed σ) (h : SumsUp t σ)
    (hapart : KeepsApart F b t σ (.sample event)) (hs : Sampled σ event ok σ') :
    SumsUp t σ' := by
  cases hs with
  | failed => exact h
  | counted σ₁ leafContext n hne hadded hpos hn =>
    -- the walk keeps every metric, so only a new key can change the sum
    have hg := (hwf.walked hadded).2.2
    have hwhere := hwf.tree.addFrames_follow .sampledContext hwf.tree.pos
      event.eventContext_agent.reverse
    rw [hadded] at hwhere
    intro m hm
    have hmetric : ∀ c, ((σ₁.context c).metrics m).i = ((σ.context c).metrics m).i :=
      fun c => hg.metric c m (totals_ne hm).2
    have htotal : σ₁.total m = σ.total m := congrFun hg.total m
    change keySum { σ₁ with
      eventToContextLeafMap := σ.eventToContextLeafMap.insert event.eventId leafContext
      propAttrTable := σ.propAttrTable.insert leafContext n } m = σ₁.total m
    rw [htotal, ← h m hm]
    by_cases hkey : leafContext ∈ σ.propAttrTable
    · refine keySum_congr (fun c => ?_) hmetric
      rw [AList.mem_insert]
      exact ⟨fun hc => hc.elim (fun heq => heq ▸ hkey) id, Or.inr⟩
    · -- the new key brings no bytes
      have hzero : ((σ.context leafContext).metrics m).i = 0 := by
        rcases hwhere with hsome | ⟨-, hfresh⟩
        · exact hapart hne leafContext hsome hkey m hm
        · rw [hwf.tree.unborn leafContext hfresh]
          rfl
      have hkeys : sampledContexts { σ₁ with
          eventToContextLeafMap := σ.eventToContextLeafMap.insert event.eventId leafContext
          propAttrTable := σ.propAttrTable.insert leafContext n }
          = insert leafContext (sampledContexts σ) := by
        ext c
        rw [mem_sampledContexts, AList.mem_insert, Finset.mem_insert, mem_sampledContexts]
      unfold keySum
      rw [hkeys, Finset.sum_insert (fun hmem => hkey (mem_sampledContexts.mp hmem)), hmetric,
        hzero, zero_add]
      exact Finset.sum_congr rfl fun c _ => hmetric c

end Step

/-- **The figures per context add up to the global ones, along every run** that keeps
watched and sampled contexts apart. -/
theorem keySum_eq_total_of_run (F : FloatUnit) (b : BuildFlags) (t : WitchLogicType)
    (ops : List LogicOp)
    (hops : Along (logicStep F (Logic.ofType b t)) (KeepsApart F b t) .new ops) :
    SumsUp t (runLogic F (Logic.ofType b t) .new ops) := by
  have hinv := wellFormed_invariant (I := SumsUp t) (C := KeepsApart F b t)
    (fun _ _ _ _ hwf h hapart hs => h.sampled hwf hapart hs)
    (fun _ _ _ _ _ _ hwf h hapart hc => h.called hwf hapart hc)
    wellFormed_new (fun _ _ => rfl) hops
  exact hinv.2

/-! ### Two runs of RedSpy -/

/-- A store sampled in the context `0x40`. -/
def sampledStore : Event := (Event.storeAt 1 0x1000).withStack [0x40]

/-- A store of the same value, with the given frames. -/
def sameStore (addrs : List ℤ) : Event := (Event.storeAt 2 0x1000).withStack addrs

/-- The sample and its trigger. -/
def storeTwice (addrs : List ℤ) : List LogicOp :=
  [.sample sampledStore, .trigger (sameStore addrs) sampledStore ⟨0x1000, 8⟩]

theorem keySum_eq_total_of_storeTwice :
    SumsUp .redSpy (runLogic .bytewise (Logic.ofType .instOnly .redSpy) .new
      (storeTwice [0x50])) := by
  refine keySum_eq_total_of_run .bytewise .instOnly .redSpy (storeTwice [0x50])
    (.cons ?_ rfl (.cons ?_ rfl trivial))
  · intro _ c hsome
    cases hsome
  · intro leafContext node hatt _ hsome
    -- the frame `0x50` is not in the tree yet
    have hleaf :
        (WitchLogic.new.witchOnSampleCallback sampledStore).2.eventToContextLeafMap.lookup 1
          = some 1 := by decide +kernel
    have hnone : (WitchLogic.new.witchOnSampleCallback sampledStore).2.follow [⟨0x50, 0⟩] 1
        = none := by decide +kernel
    obtain rfl := Option.some.inj (hleaf.symm.trans hatt.leaf)
    exact absurd (hnone.symm.trans hsome) nofun

/-- **A trigger without frames counts its bytes twice.** -/
theorem emptyStack_counted_twice :
    let σ := runLogic .bytewise (Logic.ofType .instOnly .redSpy) .new (storeTwice [])
    ¬ SumsUp .redSpy σ := by
  intro σ h
  have hsum : keySum σ .redBytes = 2 * σ.total .redBytes ∧ σ.total .redBytes ≠ 0 := by
    decide +kernel
  have hone := h .redBytes (by decide)
  omega

end Kognizance
