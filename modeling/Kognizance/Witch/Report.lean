import Mathlib.Algebra.BigOperators.Pi
import Kognizance.Witch.PerContext

/-!
# The report

An INST build prints one tree: `calculateForAllContext` adds to every context the bytes
of its children, and `printAllContext` prints the result. Both skip a child that has the
address of its parent, which is how a trigger at the sampled instruction is meant to stay
out of the sum. The root should end up with all bytes.

* `calculate_root`: the root ends up with the bytes of the contexts that are shown.
* `report_accounts_of_run`: these are `totalBytes` in every run whose triggers are
  reported (`Reported`): the sampled context is shown, the context watched for a
  redundant value is not, and neither `APPROXREDBYTES` nor `DEADBYTES`, which the report
  does not read, get any bytes.
* `deadStore_reports_nothing`: DeadStore's own metric is missing from its report.
-/

namespace Kognizance

open Process WitchLogic Arena

namespace WitchLogic

/-- The children the report does not skip. -/
def shownKids (σ : WitchLogic) (c : ℕ) : List ℕ :=
  (σ.kids c).filter fun d =>
    (σ.context d).frame.binary_addr ≠ (σ.context c).frame.binary_addr

/-- The report reaches the context: on the way from the root no address repeats. -/
def Shown (σ : WitchLogic) (c : ℕ) : Prop := Below σ.shownKids contextTreeRoot c

/-- The two metrics the report reads. -/
def reportWeight (σ : WitchLogic) (c : ℕ) : ℤ × ℤ :=
  (((σ.context c).metrics .redBytes).i, ((σ.context c).metrics .usedBytes).i)

/-- The two states have the same tree and differ in metrics at most. -/
structure SameTree (σ τ : WitchLogic) : Prop where
  kids : τ.kids = σ.kids
  frame : ∀ c, (τ.context c).frame = (σ.context c).frame
  parent : ∀ c, (τ.context c)._parent = (σ.context c)._parent

theorem SameTree.refl (σ : WitchLogic) : SameTree σ σ := ⟨rfl, fun _ => rfl, fun _ => rfl⟩

theorem SameTree.trans {σ τ υ : WitchLogic} (h : SameTree σ τ) (h' : SameTree τ υ) :
    SameTree σ υ :=
  ⟨h'.kids.trans h.kids, fun c => (h'.frame c).trans (h.frame c),
    fun c => (h'.parent c).trans (h.parent c)⟩

theorem sameTree_setMetric (σ : WitchLogic) (c : ℕ) (m : MetricType) (v : ℤ) :
    SameTree σ (σ.setMetric c m v) :=
  ⟨setMetric_kids c m v, fun x => setMetric_frame c x m v, fun x => setMetric_parent c x m v⟩

theorem SameTree.shownKids {σ τ : WitchLogic} (h : SameTree σ τ) :
    τ.shownKids = σ.shownKids := by
  funext c
  unfold WitchLogic.shownKids
  rw [h.kids]
  simp only [h.frame]

/-! ### The roll-up -/

section RollUp

variable {σ : WitchLogic}

/-- What the two increments at the end do to the weights. -/
theorem reportWeight_increments (σ : WitchLogic) (c : ℕ) (v : ℤ × ℤ) :
    reportWeight ((σ.increment c .redBytes v.1).increment c .usedBytes v.2)
      = Function.update (reportWeight σ) c (reportWeight σ c + v) := by
  funext x
  unfold reportWeight
  rw [Function.update_apply]
  simp only [increment_i]
  by_cases hx : x = c
  · subst hx
    simp only [true_and, reduceCtorEq, and_false, if_true, if_false, add_zero]
    rfl
  · simp [hx]

theorem SameTree.skipped {σ τ : WitchLogic} (h : SameTree σ τ) (c : ℕ) :
    τ.skipped c = σ.skipped c := by
  unfold WitchLogic.skipped
  rw [h.parent]
  simp only [h.frame]

theorem calculate_skipped {n c : ℕ} (h : σ.skipped c = true) :
    calculateForAllContext n σ c = (0, σ) := by
  cases n with
  | zero => rfl
  | succ n =>
    unfold calculateForAllContext
    rw [if_pos h]

/-- `_parent` points back along `children`. -/
def ParentsOk (σ : WitchLogic) : Prop := ∀ p c, c ∈ σ.kids p → (σ.context c)._parent = some p

/-- The roll-up of a context that is not skipped is the one over the shown children. -/
def CalculateSpec (n : ℕ) (σ : WitchLogic) (c : ℕ) : Prop :=
  let r := calculateForAllContext n σ c
  let r' := rollUp σ.shownKids n c (reportWeight σ)
  (r.1.i, r.1.r) = r'.1 ∧ SameTree σ r.2 ∧ reportWeight r.2 = r'.2

/-- The loop over the children, when the roll-up of each child is known. -/
theorem foldl_calculate {n : ℕ} (ih : ∀ τ d, ParentsOk τ → τ.skipped d = false →
      CalculateSpec n τ d) (hσ : ParentsOk σ) {c : ℕ} (l : List ℕ) (hl : l ⊆ σ.kids c)
    (acc : MetricVal) (τ : WitchLogic) (hτ : SameTree σ τ) :
    let r := l.foldl (fun acc d =>
      (acc.1 + (calculateForAllContext n acc.2 d).1, (calculateForAllContext n acc.2 d).2)) (acc, τ)
    let r' := (l.filter fun d =>
        (σ.context d).frame.binary_addr ≠ (σ.context c).frame.binary_addr).foldl
      (fun aw d => (aw.1 + (rollUp σ.shownKids n d aw.2).1, (rollUp σ.shownKids n d aw.2).2))
      ((acc.i, acc.r), reportWeight τ)
    (r.1.i, r.1.r) = r'.1 ∧ SameTree σ r.2 ∧ reportWeight r.2 = r'.2 := by
  -- over the children; each is skipped, or rolled up from the weights the last one left
  induction l generalizing acc τ with
  | nil => exact ⟨rfl, hτ, rfl⟩
  | cons d l ihl =>
    have hd : d ∈ σ.kids c := hl List.mem_cons_self
    have hl' : l ⊆ σ.kids c := fun x hx => hl (List.mem_cons_of_mem d hx)
    have hskip : τ.skipped d
        = decide ((σ.context d).frame.binary_addr = (σ.context c).frame.binary_addr) := by
      rw [hτ.skipped, skipped, hσ c d hd]
    by_cases haddr : (σ.context d).frame.binary_addr = (σ.context c).frame.binary_addr
    · -- the child is skipped and contributes nothing
      rw [decide_eq_true haddr] at hskip
      rw [List.filter_cons_of_neg (by simpa using haddr), List.foldl_cons]
      simp only [calculate_skipped hskip]
      have hacc : acc + (0 : MetricVal) = acc := by
        ext
        · exact add_zero acc.r
        · exact add_zero acc.i
      rw [hacc]
      exact ihl hl' acc τ hτ
    · rw [decide_eq_false haddr] at hskip
      have hparents : ParentsOk τ := by
        intro p x hx
        rw [hτ.parent]
        rw [hτ.kids] at hx
        exact hσ p x hx
      obtain ⟨h1, h2, h3⟩ := ih τ d hparents hskip
      rw [hτ.shownKids] at h1 h3
      rw [List.filter_cons_of_pos (by simpa using haddr), List.foldl_cons, List.foldl_cons,
        ← h1, ← h3]
      exact ihl hl' (acc + (calculateForAllContext n τ d).1) _ (hτ.trans h2)

/-- The end of a roll-up adds what the children gave to the context itself. -/
theorem increments_rollUp {below : MetricVal × WitchLogic} {r : (ℤ × ℤ) × (ℕ → ℤ × ℤ)}
    (h1 : (below.1.i, below.1.r) = r.1) (h2 : SameTree σ below.2)
    (h3 : reportWeight below.2 = r.2) (c : ℕ) :
    let τ := (below.2.increment c .redBytes below.1.i).increment c .usedBytes below.1.r
    reportWeight τ c = r.2 c + r.1 ∧ SameTree σ τ ∧
      reportWeight τ = Function.update r.2 c (r.2 c + r.1) := by
  intro τ
  have hweight : reportWeight τ
      = Function.update (reportWeight below.2) c
        (reportWeight below.2 c + (below.1.i, below.1.r)) :=
    reportWeight_increments below.2 c (below.1.i, below.1.r)
  rw [h1, h3] at hweight
  refine ⟨?_, ?_, hweight⟩
  · rw [hweight, Function.update_self]
  · exact (h2.trans (sameTree_setMetric below.2 c .redBytes _)).trans
      (sameTree_setMetric _ c .usedBytes _)

/-- **The roll-up of the report**, as a roll-up in the arena. -/
theorem calculate_spec (n : ℕ) (σ : WitchLogic) (c : ℕ) (hσ : ParentsOk σ)
    (hc : σ.skipped c = false) : CalculateSpec n σ c := by
  induction n generalizing σ c with
  | zero => exact ⟨rfl, .refl σ, rfl⟩
  | succ n ih =>
    obtain ⟨h1, h2, h3⟩ := foldl_calculate (fun τ d => ih τ d) hσ (σ.kids c)
      (fun _ hx => hx) 0 σ (.refl σ)
    unfold CalculateSpec calculateForAllContext rollUp
    rw [if_neg (by rw [hc]; exact Bool.false_ne_true)]
    exact increments_rollUp h1 h2 h3 c

/-- The shown children of a well-formed tree form a forest. -/
theorem TreeOk.shownForest (h : σ.TreeOk) : Forest σ.shownKids σ.nextContext :=
  h.forest.sublist fun _ => List.filter_sublist

/-- **The root ends up with the bytes of the contexts that are shown.** -/
theorem TreeOk.calculate_root (h : σ.TreeOk) :
    reportWeight (calculateForAllContext σ.nextContext σ contextTreeRoot).2 contextTreeRoot
      = belowSum σ.shownKids σ.nextContext contextTreeRoot (reportWeight σ) := by
  have hroot : σ.skipped contextTreeRoot = false := by
    unfold skipped
    rw [h.root.2]
  obtain ⟨-, -, hweight⟩ := calculate_spec σ.nextContext σ contextTreeRoot h.parent hroot
  rw [hweight, ← h.shownForest.rollUp_fst h.pos (Nat.le_add_left _ _)]
  obtain ⟨n, hn⟩ := Nat.exists_eq_succ_of_ne_zero h.pos.ne'
  rw [hn, rollUp_self]

end RollUp

/-! ### What is shown while the tree grows -/

/-- The bytes a context brings to the report. -/
def reportBytes (σ : WitchLogic) (c : ℕ) : ℤ :=
  ((σ.context c).metrics .redBytes).i + ((σ.context c).metrics .usedBytes).i

/-- The bytes of the contexts that are shown. -/
noncomputable def shownSum (σ : WitchLogic) : ℤ :=
  belowSum σ.shownKids σ.nextContext contextTreeRoot σ.reportBytes

/-- The figures of the root add up to the bytes that are shown. -/
theorem TreeOk.calculate_root_sum {σ : WitchLogic} (h : σ.TreeOk) :
    reportBytes (calculateForAllContext σ.nextContext σ contextTreeRoot).2 contextTreeRoot
      = shownSum σ := by
  have hroot := h.calculate_root
  have hfst := congrArg Prod.fst hroot
  have hsnd := congrArg Prod.snd hroot
  unfold shownSum reportBytes
  unfold reportWeight at hfst hsnd
  simp only at hfst hsnd
  rw [hfst, hsnd, belowSum, belowSum, Prod.fst_sum, Prod.snd_sum, ← Finset.sum_add_distrib]
  refine Finset.sum_congr rfl fun c _ => ?_
  split_ifs
  · rfl
  · rfl

/-- An address repeats along the frames that follow on the address `a`. -/
def repeats : ℤ → List ContextFrame → Bool
  | _, [] => false
  | a, frame :: frames => a = frame.binary_addr || repeats frame.binary_addr frames

/-- Old contexts are shown as before, and the bytes shown are the same. -/
structure Stable (σ σ' : WitchLogic) : Prop where
  next : σ.nextContext ≤ σ'.nextContext
  shown : ∀ c, c < σ.nextContext → (Shown σ' c ↔ Shown σ c)
  sum : shownSum σ' = shownSum σ

section Stable

variable {σ : WitchLogic}

theorem Stable.refl (σ : WitchLogic) : Stable σ σ := ⟨le_refl _, fun _ _ => Iff.rfl, rfl⟩

theorem Stable.trans {σ' σ'' : WitchLogic} (h : Stable σ σ') (h' : Stable σ' σ'') :
    Stable σ σ'' :=
  ⟨h.next.trans h'.next, fun c hc => (h'.shown c (hc.trans_le h.next)).trans (h.shown c hc),
    h'.sum.trans h.sum⟩

theorem SameTree.shown_iff {τ : WitchLogic} (h : SameTree σ τ) (c : ℕ) :
    Shown τ c ↔ Shown σ c := by
  unfold Shown
  rw [h.shownKids]

/-- Metrics that the report does not read may change. -/
theorem stable_setMetric (c : ℕ) {m : MetricType} (v : ℤ)
    (hm : m ≠ .redBytes ∧ m ≠ .usedBytes) : Stable σ (σ.setMetric c m v) where
  next := le_refl _
  shown := fun x _ => (sameTree_setMetric σ c m v).shown_iff x
  sum := by
    have hbytes : (σ.setMetric c m v).reportBytes = σ.reportBytes := by
      funext x
      unfold reportBytes
      rw [setMetric_i, setMetric_i, if_neg fun hx => hm.1 hx.2.symm,
        if_neg fun hx => hm.2 hx.2.symm]
    unfold shownSum
    rw [hbytes, (sameTree_setMetric σ c m v).shownKids]
    rfl

/-- A new child is shown if its address differs from its parent's. -/
theorem TreeOk.insertChild_shownKids (h : σ.TreeOk) {p : ℕ} (hp : p < σ.nextContext)
    (frame : ContextFrame) :
    (σ.insertChild p frame).shownKids =
      if frame.binary_addr ≠ (σ.context p).frame.binary_addr then
        hang σ.shownKids p σ.nextContext
      else σ.shownKids := by
  -- the old children are filtered as before
  have hold : ∀ x, (σ.kids x).filter (fun d => ((σ.insertChild p frame).context d).frame.binary_addr
      ≠ ((σ.insertChild p frame).context x).frame.binary_addr) = σ.shownKids x := by
    intro x
    unfold shownKids
    refine List.filter_congr fun d hd => ?_
    have hdlt := h.forest.lt_bound hd
    rw [insertChild_frame hp, insertChild_frame hp, if_neg hdlt.ne,
      if_neg ((h.forest.lt hd).trans hdlt).ne]
  funext x
  unfold shownKids
  rw [insertChild_kids hp (h.unborn _ le_rfl)]
  by_cases hx : x = p
  · subst hx
    have hnew : ((σ.insertChild x frame).context σ.nextContext).frame.binary_addr
        = frame.binary_addr := by
      rw [insertChild_frame hp, if_pos rfl]
    have hparent : ((σ.insertChild x frame).context x).frame.binary_addr
        = (σ.context x).frame.binary_addr := by
      rw [insertChild_frame hp, if_neg hp.ne]
    unfold hang
    rw [Function.update_self]
    split_ifs with haddr
    · rw [List.filter_cons_of_pos (by rw [hnew, hparent]; simpa using haddr), hold,
        Function.update_self]
      rfl
    · rw [List.filter_cons_of_neg (by rw [hnew, hparent]; simpa using haddr), hold]
      rfl
  · unfold hang
    rw [Function.update_of_ne hx, hold]
    split_ifs with haddr
    · rw [Function.update_of_ne hx]
      rfl
    · rfl

theorem TreeOk.stable_insertChild (h : σ.TreeOk) {p : ℕ} (hp : p < σ.nextContext)
    (frame : ContextFrame) : Stable σ (σ.insertChild p frame) where
  next := Nat.le_succ _
  shown := by
    intro c hc
    unfold Shown
    rw [h.insertChild_shownKids hp]
    split_ifs
    · -- the old contexts are below the root as before
      exact below_hang_iff h.shownForest hc
    · exact Iff.rfl
  sum := by
    have hbytes : (σ.insertChild p frame).reportBytes = σ.reportBytes := by
      funext x
      unfold reportBytes
      rw [insertChild_metrics hp (h.unborn _ le_rfl)]
    -- the new context has no bytes yet
    have hnew : σ.reportBytes σ.nextContext = 0 := by
      unfold reportBytes
      rw [h.unborn _ le_rfl]
      rfl
    have hnext : (σ.insertChild p frame).nextContext = σ.nextContext + 1 := rfl
    unfold shownSum
    rw [hbytes, h.insertChild_shownKids hp, hnext]
    split_ifs
    · exact belowSum_hang h.shownForest hnew
    · exact belowSum_succ hnew

/-- A child is shown if its parent is and the addresses differ. -/
theorem TreeOk.shown_child_iff (h : σ.TreeOk) {c d : ℕ} (hd : d ∈ σ.kids c) :
    Shown σ d ↔ Shown σ c ∧
      (σ.context d).frame.binary_addr ≠ (σ.context c).frame.binary_addr := by
  have hroot : contextTreeRoot ≠ d := (Nat.zero_le c |>.trans_lt (h.forest.lt hd)).ne
  have hsub : ∀ p, σ.shownKids p ⊆ σ.kids p := fun _ => List.filter_subset_self _
  have hmem : d ∈ σ.shownKids c ↔
      (σ.context d).frame.binary_addr ≠ (σ.context c).frame.binary_addr := by
    unfold shownKids
    rw [List.mem_filter, decide_eq_true_iff]
    exact and_iff_right hd
  unfold Shown
  rw [h.forest.below_child_iff hsub hd hroot, hmem]

/-- **The walk.** It keeps what is shown, and its end is shown when its start is and no
address repeats on the way. -/
theorem TreeOk.addFrames_shown (h : σ.TreeOk) (ctype : ContextType) {c : ℕ}
    (hc : c < σ.nextContext) (frames : List ContextFrame) :
    let added := WitchLogic.addFrames ctype frames σ c
    Stable σ added.1 ∧
      (Shown added.1 added.2 ↔
        Shown σ c ∧ repeats (σ.context c).frame.binary_addr frames = false) := by
  -- over the frames; each step finds a child or inserts one, and goes on there
  induction frames generalizing σ c with
  | nil => exact ⟨.refl σ, (and_iff_left rfl).symm⟩
  | cons frame frames ih =>
    -- the type of a context is not reported
    have hretype : ∀ (τ : WitchLogic) (d : ℕ), Stable τ (τ.setContextType d ctype) := by
      intro τ d
      rw [setContextType_eq]
      exact stable_setMetric d _ ⟨nofun, nofun⟩
    unfold WitchLogic.addFrames
    cases hfind : σ.findChild c frame with
    | some d =>
      obtain ⟨hd, hframe⟩ := findChild_eq_some hfind
      obtain ⟨hok, hlt, hg, -⟩ := h.found hfind ctype
      have hstable := hretype σ d
      obtain ⟨hrest, hend⟩ := ih hok hlt
      refine ⟨hstable.trans hrest, ?_⟩
      rw [hend, hg.frame d (h.forest.lt_bound hd), hframe, hstable.shown d (h.forest.lt_bound hd),
        h.shown_child_iff hd, hframe, repeats]
      simp only [Bool.or_eq_false_iff, decide_eq_false_iff_not, and_assoc, ne_comm, ne_eq]
    | none =>
      obtain ⟨hok, hlt, hg⟩ := h.inserted hc frame ctype
      have hstable := (h.stable_insertChild hc frame).trans (hretype _ σ.nextContext)
      have hchild : σ.nextContext ∈
          ((σ.insertChild c frame).setContextType σ.nextContext ctype).kids c := by
        rw [setContextType_eq, setMetric_kids, insertChild_kids hc (h.unborn _ le_rfl), mem_hang]
        exact Or.inl ⟨rfl, rfl⟩
      have hframe : (((σ.insertChild c frame).setContextType σ.nextContext ctype).context
          σ.nextContext).frame = frame := by
        rw [setContextType_eq, setMetric_frame, insertChild_frame hc, if_pos rfl]
      obtain ⟨hrest, hend⟩ := ih hok hlt
      refine ⟨hstable.trans hrest, ?_⟩
      rw [hend, hok.shown_child_iff hchild, hstable.shown c hc, hframe, hg.frame c hc, repeats]
      simp only [Bool.or_eq_false_iff, decide_eq_false_iff_not, and_assoc, ne_comm, ne_eq]

open Classical in
/-- What the report gains when a metric of a context grows. -/
noncomputable def gain (σ : WitchLogic) (c : ℕ) (m : MetricType) (v : ℤ) : ℤ :=
  if (m = .redBytes ∨ m = .usedBytes) ∧ Shown σ c then v else 0

/-- Bytes added to a context reach the report if it is shown. -/
theorem shownSum_increment {c : ℕ} (hc : c < σ.nextContext) (m : MetricType) (v : ℤ) :
    shownSum (σ.increment c m v) = shownSum σ + gain σ c m v := by
  classical
  by_cases hm : m = .redBytes ∨ m = .usedBytes
  · -- a reported metric: the weight of the context goes up, the tree stays
    have hbytes : (σ.increment c m v).reportBytes
        = Function.update σ.reportBytes c (σ.reportBytes c + v) := by
      funext x
      rw [Function.update_apply]
      unfold reportBytes
      rw [increment_i, increment_i]
      by_cases hx : x = c
      · subst hx
        rcases hm with rfl | rfl
        · simp [add_right_comm]
        · simp [add_assoc]
      · simp [hx]
    have hkids : (σ.increment c m v).shownKids = σ.shownKids :=
      (sameTree_setMetric σ c m _).shownKids
    have hnext : (σ.increment c m v).nextContext = σ.nextContext := rfl
    have hgain : gain σ c m v = if Below σ.shownKids contextTreeRoot c then v else 0 := by
      unfold gain Shown
      simp only [hm, true_and]
    unfold shownSum
    rw [hbytes, hkids, hnext, hgain]
    exact belowSum_update hc σ.reportBytes v
  · -- another metric is not reported
    have hgain : gain σ c m v = 0 := if_neg fun h => hm h.1
    rw [hgain, add_zero]
    exact (stable_setMetric c _ (not_or.mp hm)).sum

/-- Nothing is gained by adding no bytes. -/
theorem gain_zero (c : ℕ) (m : MetricType) : gain σ c m 0 = 0 := ite_self 0

theorem gain_of_shown {c : ℕ} {m : MetricType} (hm : m = .redBytes ∨ m = .usedBytes)
    (hc : Shown σ c) (v : ℤ) : gain σ c m v = v := if_pos ⟨hm, hc⟩

theorem gain_of_not_shown {c : ℕ} (hc : ¬ Shown σ c) (m : MetricType) (v : ℤ) :
    gain σ c m v = 0 := if_neg fun h => hc h.2

/-- Where the same contexts are shown, the same is gained. -/
theorem gain_congr {σ' : WitchLogic} {c : ℕ} (h : Shown σ' c ↔ Shown σ c) (m : MetricType)
    (v : ℤ) : gain σ' c m v = gain σ c m v := by
  have hiff : (m = .redBytes ∨ m = .usedBytes) ∧ Shown σ' c ↔
      (m = .redBytes ∨ m = .usedBytes) ∧ Shown σ c := and_congr_right fun _ => h
  unfold gain
  by_cases hc : (m = .redBytes ∨ m = .usedBytes) ∧ Shown σ c
  · rw [if_pos (hiff.mpr hc), if_pos hc]
  · rw [if_neg (mt hiff.mp hc), if_neg hc]

/-- The tables do not matter for the report. -/
theorem stable_of_context {σ' : WitchLogic} (hcontext : σ'.context = σ.context)
    (hnext : σ'.nextContext = σ.nextContext) : Stable σ σ' := by
  have hkids : σ'.shownKids = σ.shownKids := by
    unfold shownKids kids
    rw [hcontext]
  refine ⟨hnext.ge, fun c _ => ?_, ?_⟩
  · unfold Shown
    rw [hkids]
  · unfold shownSum reportBytes
    rw [hkids, hcontext, hnext]

end Stable

end WitchLogic

/-! ### One step -/

section Step

variable {σ : WitchLogic} {leafContext : ℕ}

theorem stable_inefficiency (τ : WitchLogic) (c : ℕ) (v : ℤ) :
    Stable τ (τ.setMetric c .inefficiency v) :=
  stable_setMetric c v ⟨nofun, nofun⟩

/-- Bytes that were used are reported with the sampled context. -/
theorem addUsed_shownSum (currEvent : Event) (F : FloatUnit) (bad : List MetricType)
    (updates shows : Bool) (h : σ.TreeOk) (hleaf : leafContext < σ.nextContext) (inc : ℕ) :
    shownSum (addUsed F bad updates shows currEvent leafContext inc σ)
      = shownSum σ + gain σ leafContext .usedBytes inc := by
  -- the total, the increment, `INEFFICIENCY`, and the frames
  have hshow : ∀ τ : WitchLogic, τ.TreeOk → leafContext < τ.nextContext →
      Stable τ (if shows then (τ.addFramesToContextTree currEvent.eventContext_agent leafContext
        false .usedContext).1 else τ) := by
    intro τ hτ hlt
    cases shows with
    | false => exact .refl τ
    | true => exact (hτ.addFrames_shown .usedContext hlt currEvent.eventContext_agent).1
  have h₀ : TreeOk { σ with
      total := Function.update σ.total .usedBytes (σ.total .usedBytes + inc) } :=
    h.congr rfl rfl
  have hstable : Stable σ { σ with
      total := Function.update σ.total .usedBytes (σ.total .usedBytes + inc) } :=
    stable_of_context rfl rfl
  have hinc := shownSum_increment (σ := { σ with
      total := Function.update σ.total .usedBytes (σ.total .usedBytes + inc) })
    hleaf .usedBytes inc
  rw [hstable.sum, gain_congr (hstable.shown leafContext hleaf)] at hinc
  rw [← hinc]
  cases updates with
  | false => exact (hshow _ (h₀.setMetric hleaf _ _) hleaf).sum
  | true =>
    exact ((stable_inefficiency _ leafContext _).trans
      (hshow _ ((h₀.setMetric hleaf _ _).setMetric hleaf _ _) hleaf)).sum

/-- Bytes that were wasted are reported with both contexts, as far as they are shown:
the watched one is not if an address repeats on the way to it. -/
theorem addWasted_shownSum (currEvent : Event) (F : FloatUnit) (bad : List MetricType)
    (m : MetricType) (ctype : ContextType) (h : σ.TreeOk) (hleaf : leafContext < σ.nextContext)
    (inc : ℕ) :
    ∃ watched : ℤ, shownSum (addWasted F bad m ctype currEvent leafContext inc σ)
        = shownSum σ + watched + gain σ leafContext m inc ∧
      (repeats (σ.context leafContext).frame.binary_addr currEvent.eventContext_agent = true →
        watched = 0) ∧
      (inc = 0 → watched = 0) := by
  obtain ⟨σ₀, hσ₀⟩ : ∃ σ₀ : WitchLogic,
      σ₀ = { σ with total := Function.update σ.total m (σ.total m + inc) } := ⟨_, rfl⟩
  have hcontext : σ₀.context = σ.context := by rw [hσ₀]
  have hnext : σ₀.nextContext = σ.nextContext := by rw [hσ₀]
  have h₀ : σ₀.TreeOk := h.congr hcontext hnext
  have hleaf₀ : leafContext < σ₀.nextContext := hleaf.trans_eq hnext.symm
  obtain ⟨htree, hnode, -, -⟩ := h₀.addFrames ctype hleaf₀ currEvent.eventContext_agent
  obtain ⟨hwalk, hend⟩ := h₀.addFrames_shown ctype hleaf₀ currEvent.eventContext_agent
  unfold addWasted addFramesToContextTree
  simp only [Bool.false_eq_true, if_false]
  rw [← hσ₀]
  obtain ⟨σ₁, node, hadded⟩ : ∃ σ₁ node,
      addFrames ctype currEvent.eventContext_agent σ₀ leafContext = (σ₁, node) := ⟨_, _, rfl⟩
  rw [hadded] at htree hnode hwalk hend ⊢
  have hstable : Stable σ σ₁ := (stable_of_context hcontext hnext).trans hwalk
  -- the two increments, the watched context first
  have hfirst := shownSum_increment hnode m inc
  have hsame : Shown (σ₁.increment node m inc) leafContext ↔ Shown σ leafContext :=
    ((sameTree_setMetric σ₁ node m _).shown_iff leafContext).trans (hstable.shown leafContext hleaf)
  have hsecond := shownSum_increment (σ := σ₁.increment node m inc)
    (hleaf.trans_le hstable.next) m inc
  rw [hfirst, hstable.sum, gain_congr hsame] at hsecond
  refine ⟨gain σ₁ node m inc, ?_, ?_, ?_⟩
  · rw [(stable_inefficiency _ leafContext _).sum, hsecond]
  · intro hrepeats
    refine gain_of_not_shown (fun hshown => ?_) m inc
    rw [hend, hcontext, hrepeats] at hshown
    exact Bool.noConfusion hshown.2
  · rintro rfl
    exact gain_zero node m

/-- What a logic reports for one finding. -/
theorem Logic.record_shownSum (currEvent : Event) (F : FloatUnit) (l : Logic) (found : Finding)
    (h : σ.TreeOk) (hleaf : leafContext < σ.nextContext) (inc : ℕ) :
    ∃ watched : ℤ, shownSum (l.record F found currEvent leafContext inc σ)
        = shownSum σ + watched + gain σ leafContext found.metric inc ∧
      (found.metric = .usedBytes ∨
        repeats (σ.context leafContext).frame.binary_addr currEvent.eventContext_agent = true →
        watched = 0) ∧
      (inc = 0 → watched = 0) := by
  rcases l.record_cases F found currEvent leafContext inc σ with
    ⟨hused, bad, updates, shows, heq⟩ | ⟨hwasted, bad, ctype, heq⟩
  · -- a use is shown with the sampled context only
    refine ⟨0, ?_, fun _ => rfl, fun _ => rfl⟩
    rw [heq, hused, add_zero]
    exact addUsed_shownSum currEvent F bad updates shows h hleaf inc
  · obtain ⟨watched, hsum, hrepeats, hzero⟩ :=
      addWasted_shownSum currEvent F bad found.metric ctype h hleaf inc
    rw [heq]
    exact ⟨watched, hsum, fun hor => hrepeats (hor.resolve_left hwasted), hzero⟩

end Step

/-! ### The balance along a run -/

/-- If the trigger attributes bytes, the report shows the sampled context and reads the
metric the bytes go to, a redundant value is not shown a second time with the watched
context, and the totals do not outgrow an `unsigned int`. -/
def Reported (F : FloatUnit) (b : BuildFlags) (t : WitchLogicType) (σ : WitchLogic) :
    LogicOp → Prop
  | .sample _ => True
  | .trigger currEvent sampleEvent wpt => ∀ leafContext,
      Attributes (Logic.ofType b t) currEvent sampleEvent wpt σ leafContext →
      let m := ((Logic.ofType b t).finding F currEvent sampleEvent wpt).metric
      Shown σ leafContext ∧
      (m = .usedBytes ∨ m = .redBytes ∧
        repeats (σ.context leafContext).frame.binary_addr currEvent.eventContext_agent = true) ∧
      totalSum t σ + pendingBytes σ currEvent sampleEvent leafContext < 2 ^ 32

/-- The bytes that are shown are all bytes. -/
structure Accounted (t : WitchLogicType) (σ : WitchLogic) : Prop where
  balance : shownSum σ = totalSum t σ
  bound : totalSum t σ < 2 ^ 32

section Balance

variable {F : FloatUnit} {b : BuildFlags} {t : WitchLogicType} {σ σ' : WitchLogic}

/-- A fresh logic has neither contexts with bytes nor totals. -/
theorem accounted_new (t : WitchLogicType) : Accounted t .new := by
  have hsum : totalSum t .new = 0 := by cases t <;> rfl
  have hshown : shownSum .new = 0 := by
    unfold shownSum belowSum
    exact Finset.sum_eq_zero fun _ _ => ite_self 0
  refine ⟨?_, ?_⟩
  · rw [hshown, hsum, Nat.cast_zero]
  · rw [hsum]
    exact Nat.two_pow_pos 32

theorem Accounted.stable (h : Accounted t σ) (hstable : Stable σ σ')
    (htotal : σ'.total = σ.total) : Accounted t σ' := by
  have hsum : totalSum t σ' = totalSum t σ := by
    rw [totalSum, htotal, totalSum]
  refine ⟨?_, ?_⟩
  · rw [hstable.sum, hsum]
    exact h.balance
  · rw [hsum]
    exact h.bound

/-- Bytes that are shown once keep the balance. -/
theorem Accounted.record (h : Accounted t σ) (htree : σ.TreeOk) (currEvent sampleEvent : Event)
    (wpt : WPTriggerInfo) {leafContext : ℕ} (hleaf : leafContext < σ.nextContext) (inc : ℕ)
    (hinc : inc ≠ 0 →
      let m := ((Logic.ofType b t).finding F currEvent sampleEvent wpt).metric
      Shown σ leafContext ∧
      (m = .usedBytes ∨ m = .redBytes ∧
        repeats (σ.context leafContext).frame.binary_addr currEvent.eventContext_agent = true) ∧
      totalSum t σ + inc < 2 ^ 32) :
    Accounted t ((Logic.ofType b t).record F
      ((Logic.ofType b t).finding F currEvent sampleEvent wpt) currEvent leafContext inc σ) := by
  obtain ⟨extra, hrec, -⟩ := (Logic.ofType b t).record_recorded currEvent F
    ((Logic.ofType b t).finding F currEvent sampleEvent wpt) htree hleaf inc
  have hsum := totalSum_update (finding_metric_mem F b t currEvent sampleEvent wpt) hrec.total
  obtain ⟨watched, hshown, hwatched, hnothing⟩ := (Logic.ofType b t).record_shownSum currEvent F
    ((Logic.ofType b t).finding F currEvent sampleEvent wpt) htree hleaf inc
  by_cases hzero : inc = 0
  · -- nothing to attribute
    subst hzero
    rw [hnothing rfl, Nat.cast_zero, gain_zero, add_zero, add_zero] at hshown
    rw [add_zero] at hsum
    refine ⟨?_, ?_⟩
    · rw [hshown, hsum]
      exact h.balance
    · rw [hsum]
      exact h.bound
  · -- the sampled context is shown and the watched one brings nothing
    obtain ⟨hleafShown, hmetric, hbound⟩ := hinc hzero
    have hread : ((Logic.ofType b t).finding F currEvent sampleEvent wpt).metric = .redBytes ∨
        ((Logic.ofType b t).finding F currEvent sampleEvent wpt).metric = .usedBytes :=
      hmetric.symm.imp_left And.left
    have hone : watched = 0 := hwatched (hmetric.imp_right And.right)
    rw [hone, add_zero, gain_of_shown hread hleafShown] at hshown
    refine ⟨?_, ?_⟩
    · rw [hshown, hsum, h.balance, Nat.cast_add]
    · rw [hsum]
      exact hbound

/-- **A trigger.** -/
theorem Accounted.called {currEvent sampleEvent : Event} {wpt : WPTriggerInfo}
    {a : WPTriggerAction} (hwf : WellFormed σ) (h : Accounted t σ)
    (hreported : Reported F b t σ (.trigger currEvent sampleEvent wpt))
    (hc : Called F (Logic.ofType b t) currEvent sampleEvent wpt σ a σ') : Accounted t σ' := by
  cases hc with
  | ignored => exact h
  | mismatched => exact h
  | rejected | forgotten | refused => exact h.stable (stable_of_context rfl rfl) rfl
  | lost leafContext | empty leafContext =>
    -- the sample is taken, but no bytes are given to anybody
    obtain ⟨table, heq, -⟩ := takePending_fields currEvent sampleEvent σ leafContext
    rw [heq]
    exact h.stable (stable_of_context rfl rfl) rfl
  | recorded leafContext hp hleaf hyes hinc =>
    obtain ⟨table, heq, -⟩ := takePending_fields currEvent sampleEvent σ leafContext
    -- taking the sample leaves the tree, and recording the bytes comes after it
    have hstable : Stable σ { σ with propAttrTable := table } := stable_of_context rfl rfl
    have htaken : Accounted t { σ with propAttrTable := table } := h.stable hstable rfl
    have hlt := hwf.leaf_lt hleaf
    rw [heq]
    refine (htaken.record (hwf.tree.congr rfl rfl) currEvent sampleEvent wpt hlt
      (pendingBytes σ currEvent sampleEvent leafContext) ?_).stable (stable_of_context rfl rfl) rfl
    intro hpending
    obtain ⟨hshown, hmetric, hbound⟩ := hreported leafContext ⟨hp, hleaf, hyes, hpending⟩
    exact ⟨(hstable.shown leafContext hlt).mpr hshown, hmetric, hbound⟩

/-- **A sample.** The tree grows by contexts without bytes. -/
theorem Accounted.sampled {event : Event} {ok : Bool} (hwf : WellFormed σ) (h : Accounted t σ)
    (hs : Sampled σ event ok σ') : Accounted t σ' := by
  cases hs with
  | failed => exact h
  | counted σ₁ leafContext n hne hadded hpos hn =>
    have hwalk := (hwf.tree.addFrames_shown .sampledContext hwf.tree.pos
      event.eventContext_agent.reverse).1
    rw [hadded] at hwalk
    exact h.stable (hwalk.trans (stable_of_context rfl rfl)) (hwf.walked hadded).2.2.total

end Balance

/-- **The report accounts for every byte, along every run** whose triggers are reported. -/
theorem report_accounts_of_run (F : FloatUnit) (b : BuildFlags) (t : WitchLogicType)
    (ops : List LogicOp) (hinst : b.inst t = true)
    (hops : Along (logicStep F (Logic.ofType b t)) (Reported F b t) .new ops) :
    let σ := runLogic F (Logic.ofType b t) .new ops
    reportBytes (calculate b t σ) contextTreeRoot = totalBytes t σ := by
  intro σ
  have hinv : WellFormed σ ∧ Accounted t σ :=
    wellFormed_invariant (C := Reported F b t)
      (fun _ _ _ _ hwf h _ hs => h.sampled hwf hs)
      (fun _ _ _ _ _ _ hwf h hreported hc => h.called hwf hreported hc)
      wellFormed_new (accounted_new t) hops
  obtain ⟨hwf, hbalance, hbound⟩ := hinv
  unfold calculate totalBytes
  rw [if_pos hinst, hwf.tree.calculate_root_sum, hbalance, Nat.mod_eq_of_lt hbound]

/-! ### Two runs -/

theorem report_accounts_of_storeTwice :
    let σ := runLogic .bytewise (Logic.ofType .instOnly .redSpy) .new (storeTwice [0x40])
    reportBytes (calculate .instOnly .redSpy σ) contextTreeRoot = totalBytes .redSpy σ := by
  refine report_accounts_of_run .bytewise .instOnly .redSpy (storeTwice [0x40]) rfl
    (.cons trivial rfl (.cons ?_ rfl trivial))
  intro leafContext hatt
  have hleaf : (WitchLogic.new.witchOnSampleCallback sampledStore).2.eventToContextLeafMap.lookup 1
      = some 1 := by decide +kernel
  obtain rfl := Option.some.inj (hleaf.symm.trans hatt.leaf)
  refine ⟨?_, Or.inr ?_, ?_⟩
  · -- the sampled context is a child of the root
    have hkid : 1 ∈ (WitchLogic.new.witchOnSampleCallback sampledStore).2.shownKids 0 := by
      decide +kernel
    exact .single hkid
  · decide +kernel
  · decide +kernel

/-- **DeadStore reports nothing of a dead store.** -/
theorem deadStore_reports_nothing :
    let σ := runLogic .bytewise (Logic.ofType .instOnly .deadSpy) .new (storeTwice [0x50])
    BuildFlags.instOnly.inst .deadSpy = true ∧
      reportBytes (calculate .instOnly .deadSpy σ) contextTreeRoot ≠ totalBytes .deadSpy σ := by
  decide +kernel

end Kognizance
