import Mathlib.Algebra.Order.Monoid.Prod
import Kognizance.Witch.Denominator
import Kognizance.Witch.Quotient
import Kognizance.Witch.Reset

/-!
# Printing the report twice

`calculateForAllContext` adds the bytes of the children to the metrics of their parent, in
place. RedSpy, LoadSpy and DeadStore clean the tree up after the report. DupSpy keeps it, with
the sums in the place of the bytes, so a second report sums up the sums.

* `calculate_weight`: what a context that is shown has after the roll-up.
* `reprint_iff`: the second report is the first one exactly if no context below the root that
  is shown has bytes.
* `dupSpy_reports_more`: one sample and its trigger.
-/

namespace Kognizance

open Process WitchLogic Arena

namespace WitchLogic

section Twice

variable {b : BuildFlags} {t : WitchLogicType} {σ τ : WitchLogic}

/-- The root is never skipped. -/
theorem TreeOk.root_shown (h : σ.TreeOk) (hsame : SameTree σ τ) :
    τ.skipped contextTreeRoot = false := by
  unfold skipped
  rw [hsame.parent, h.root.2]

/-- **The roll-up of the report**: every context that is shown gets the bytes of the contexts
shown below it, and no other context changes. -/
theorem calculate_weight (h : σ.TreeOk) (hsame : SameTree σ τ)
    (hnext : τ.nextContext = σ.nextContext) (hinst : b.inst t = true) :
    reportWeight (calculate b t τ)
      = (rollUp σ.shownKids σ.nextContext contextTreeRoot (reportWeight τ)).2 := by
  have hparents : ParentsOk τ := by
    intro p c hc
    rw [hsame.kids] at hc
    rw [hsame.parent]
    exact h.parent p c hc
  obtain ⟨-, -, hweight⟩ := calculate_spec τ.nextContext τ contextTreeRoot hparents
    (h.root_shown hsame)
  unfold calculate
  rw [if_pos hinst, hweight, hsame.shownKids, hnext]

theorem calculate_tables (b : BuildFlags) (t : WitchLogicType) (σ : WitchLogic) :
    (calculate b t σ).propAttrTable = σ.propAttrTable ∧ (calculate b t σ).total = σ.total := by
  unfold calculate
  split_ifs
  · exact calculateForAllContext_invariant
      (I := fun τ => τ.propAttrTable = σ.propAttrTable ∧ τ.total = σ.total)
      (fun _ _ _ _ hτ => hτ) σ.nextContext ⟨rfl, rfl⟩ contextTreeRoot
  · exact ⟨rfl, rfl⟩

/-- The lines depend on the tree, the bytes and the attribution table. -/
theorem printAllContext_congr (hsame : SameTree σ τ) (hweight : reportWeight τ = reportWeight σ)
    (hattr : τ.propAttrTable = σ.propAttrTable) (n root i totalBytes : ℕ) :
    τ.printAllContext n root i totalBytes = σ.printAllContext n root i totalBytes := by
  -- the line of a context is made of its bytes and its frame
  have hred : ∀ c, ((τ.context c).metrics .redBytes).i = ((σ.context c).metrics .redBytes).i :=
    fun c => congrArg Prod.fst (congrFun hweight c)
  have hused : ∀ c, ((τ.context c).metrics .usedBytes).i
      = ((σ.context c).metrics .usedBytes).i :=
    fun c => congrArg Prod.snd (congrFun hweight c)
  have hline : ∀ c i, τ.reportLine c i totalBytes = σ.reportLine c i totalBytes := by
    intro c i
    unfold reportLine
    rw [hsame.frame, hred, hused, hattr]
  -- over the depth
  induction n generalizing root i with
  | zero => rfl
  | succ n ih =>
    have hkids : (τ.context root).children = (σ.context root).children := congrFun hsame.kids root
    unfold printAllContext
    rw [hsame.skipped, hred, hused, hline, hkids]
    simp only [ih]

/-- The line of the root comes first, if there is one. -/
theorem head_printAllContext (hroot : τ.skipped contextTreeRoot = false) {n i totalBytes : ℕ}
    (hpos : 0 < n) (hne : reportWeight τ contextTreeRoot ≠ 0) :
    (τ.printAllContext n contextTreeRoot i totalBytes).head?
      = some (τ.reportLine contextTreeRoot i totalBytes) := by
  obtain ⟨n, rfl⟩ := Nat.exists_eq_succ_of_ne_zero hpos.ne'
  unfold printAllContext
  rw [if_neg (by rw [hroot]; exact Bool.false_ne_true),
    if_neg ((reportWeight_ne_zero_iff _).mp hne)]
  rfl

/-- The roll-up takes no bytes away. -/
theorem le_calculate_weight (h : σ.TreeOk) (hnonneg : ∀ c, 0 ≤ reportWeight σ c)
    (hinst : b.inst t = true) (c : ℕ) : reportWeight σ c ≤ reportWeight (calculate b t σ) c := by
  rw [calculate_weight h (.refl σ) rfl hinst]
  by_cases hc : Shown σ c
  · rw [h.shownForest.rollUp_snd h.pos (Nat.le_add_left _ _) hc]
    exact le_belowSum hnonneg .refl (h.shownForest.below_lt_bound hc h.pos)
  · rw [(h.shownForest.rollUp_spec _ _ _).2 c fun hmem => hc (below_of_mem_traverse hmem)]

/-- The root gets what a context below it has. -/
theorem le_root_weight (h : σ.TreeOk) (hnonneg : ∀ c, 0 ≤ reportWeight σ c)
    (hinst : b.inst t = true) {c : ℕ} (hc : Shown σ c) :
    reportWeight σ c ≤ reportWeight (calculate b t σ) contextTreeRoot := by
  rw [calculate_weight h (.refl σ) rfl hinst,
    h.shownForest.rollUp_snd h.pos (Nat.le_add_left _ _) .refl]
  exact le_belowSum hnonneg hc (h.shownForest.below_lt_bound hc h.pos)

/-- In a second report the root gets the bytes of a context once more. -/
theorem root_gains (h : σ.TreeOk) (hnonneg : ∀ c, 0 ≤ reportWeight (calculate b t σ) c)
    (hinst : b.inst t = true) {c : ℕ} (hc : Shown σ c) (hroot : c ≠ contextTreeRoot) :
    reportWeight (calculate b t σ) contextTreeRoot + reportWeight (calculate b t σ) c
      ≤ reportWeight (calculate b t (calculate b t σ)) contextTreeRoot := by
  obtain ⟨hsame, hnext, -⟩ := calculate_fields b t σ
  rw [calculate_weight h hsame hnext hinst,
    h.shownForest.rollUp_snd h.pos (Nat.le_add_left _ _) .refl]
  exact add_le_belowSum hnonneg .refl hc hroot.symm h.pos
    (h.shownForest.below_lt_bound hc h.pos)

/-- **A report after a report** is the same exactly if only the root has bytes, among the
contexts that are shown. -/
theorem reportLines_calculate_iff (h : σ.TreeOk) (hnonneg : ∀ c, 0 ≤ reportWeight σ c)
    (hinst : b.inst t = true) :
    reportLines b t (calculate b t σ) = reportLines b t σ ↔
      ∀ c, Shown σ c → c ≠ contextTreeRoot → reportWeight σ c = 0 := by
  obtain ⟨hsame, hnext, -⟩ := calculate_fields b t σ
  obtain ⟨hsame', hnext', -⟩ := calculate_fields b t (calculate b t σ)
  obtain ⟨hattr', -⟩ := calculate_tables b t (calculate b t σ)
  have hfirst := calculate_weight h (.refl σ) rfl hinst
  have hsecond := calculate_weight h hsame hnext hinst
  have hbytes : totalBytes t (calculate b t σ) = totalBytes t σ := by
    unfold totalBytes totalSum
    rw [(calculate_tables b t σ).2]
  unfold reportLines
  rw [if_pos hinst, if_pos hinst, hnext, hbytes]
  constructor
  · intro hlines c hc hroot
    by_contra hne
    have hle := le_calculate_weight h hnonneg hinst
    have hnonneg' : ∀ x, 0 ≤ reportWeight (calculate b t σ) x :=
      fun x => (hnonneg x).trans (hle x)
    -- the root gets the bytes of `c` in the first report, and gets them again in the second
    have hsum := root_gains h hnonneg' hinst hc hroot
    have hone := le_root_weight h hnonneg hinst hc
    have hne₁ : reportWeight (calculate b t σ) contextTreeRoot ≠ 0 :=
      fun h0 => hne (le_antisymm (h0 ▸ hone) (hnonneg c))
    have hne₂ : reportWeight (calculate b t (calculate b t σ)) contextTreeRoot ≠ 0 :=
      fun h0 => hne₁ (le_antisymm
        ((le_add_of_nonneg_right (hnonneg' c)).trans (hsum.trans h0.le)) (hnonneg' _))
    have hheads := congrArg List.head? hlines
    rw [head_printAllContext (h.root_shown (hsame.trans hsame')) h.pos hne₂,
      head_printAllContext (h.root_shown hsame) h.pos hne₁] at hheads
    have hline := Option.some.inj hheads
    have hsum₀ : reportWeight (calculate b t (calculate b t σ)) contextTreeRoot
        = reportWeight (calculate b t σ) contextTreeRoot :=
      Prod.ext (congrArg ReportLine.redBytes hline) (congrArg ReportLine.usedBytes hline)
    rw [hsum₀] at hsum
    have hc₀ : reportWeight (calculate b t σ) c ≤ 0 := by
      simpa using hsum
    exact hne (le_antisymm ((hle c).trans hc₀) (hnonneg c))
  · intro hzero
    -- nothing moves up, neither the first time nor the second
    have hself := h.shownForest.rollUp_eq_self h.pos (Nat.le_add_left σ.nextContext 0) hzero
    have hw : reportWeight (calculate b t σ) = reportWeight σ := hfirst.trans hself
    rw [hw, hself] at hsecond
    exact printAllContext_congr hsame' (hsecond.trans hw.symm) hattr' _ _ _ _

end Twice

end WitchLogic

/-- **Reporting twice.** After every run of DupSpy, a second report repeats the first one
exactly if the report shows no context below the root that has bytes. -/
theorem reprint_iff (F : FloatUnit) (b : BuildFlags) (ops : List LogicOp) :
    let σ := runLogic F (Logic.ofType b .dupSpy) .new ops
    reportLines b .dupSpy (printContextTree b .dupSpy σ) = reportLines b .dupSpy σ ↔
      ∀ c, Shown σ c → c ≠ contextTreeRoot → reportWeight σ c = 0 := by
  intro σ
  have hwf : WellFormed σ := wellFormed_of_run F (Logic.ofType b .dupSpy) ops
  have hcounted : CountedNonneg (Logic.ofType b .dupSpy) σ := countedNonneg_of_run F _ ops
  have hred : MetricType.redBytes ∈ (Logic.ofType b .dupSpy).counted :=
    show _ ∈ MetricType.usedBytes :: spyBad by decide
  exact reportLines_calculate_iff hwf.tree
    (fun c => ⟨hcounted c _ hred, hcounted c _ List.mem_cons_self⟩) rfl

/-! ### A run of DupSpy -/

/-- A build of DupSpy that looks for values that are stored twice in one place. -/
def BuildFlags.dupOverlap : BuildFlags :=
  { BuildFlags.instOnly with dupSpyOverlap := true }

/-- **DupSpy's second report counts the bytes of its contexts again.** -/
theorem dupSpy_reports_more :
    let b := BuildFlags.dupOverlap
    let σ := runLogic .bytewise (Logic.ofType b .dupSpy) .new (storeTwice [0x50])
    reportLines b .dupSpy (printContextTree b .dupSpy σ) ≠ reportLines b .dupSpy σ := by
  decide +kernel

end Kognizance
