import Kognizance.Witch.Report

/-!
# The denominator of the report

`printAllContext` prints a line for every context with `REDBYTES` or `USEDBYTES` and
divides its bytes by `totalBytes`. This is the sum of the logic's `uint64_t` totals, put
into an `unsigned int` on the way. A build without the logic's `_INST` option has no such
`totalBytes`: its report is another one, and divides by the sum itself.

* `Charged`: only a logic with a total has contexts with bytes, along every run.
* `mem_printAllContext`: a printed line belongs to a context with bytes.
* `denominatorExact_iff`: the report of a build with the option divides by the real total
  iff that is below `2 ^ 32`.
-/

namespace Kognizance

open Process WitchLogic Arena

/-- What `printAllContext` prints about one context. -/
structure ReportLine where
  depth : ℕ
  frame : ContextFrame
  redBytes : ℤ
  usedBytes : ℤ
  avgDst : ℚ
  /-- A quotient by 0 is no number. -/
  inEff : Option ℚ
  deriving DecidableEq

namespace WitchLogic

/-- The line for one context. -/
def reportLine (σ : WitchLogic) (root i totalBytes : ℕ) : ReportLine where
  depth := i
  frame := (σ.context root).frame
  redBytes := ((σ.context root).metrics .redBytes).i
  usedBytes := ((σ.context root).metrics .usedBytes).i
  avgDst := match σ.propAttrTable.lookup root with
    | some n => n.avgDistance
    | none => 1000000
  inEff := if totalBytes = 0 then none
    else some (100 * ((σ.context root).metrics .redBytes).i / totalBytes)

/-- `printAllContext`, with a fuel for the depth of the tree. -/
def printAllContext (σ : WitchLogic) : ℕ → ℕ → ℕ → ℕ → List ReportLine
  | 0, _, _, _ => []
  | n + 1, root, i, totalBytes =>
    if σ.skipped root then []
    else
      (if ((σ.context root).metrics .usedBytes).i = 0 ∧
          ((σ.context root).metrics .redBytes).i = 0 then []
        else [σ.reportLine root i totalBytes]) ++
      (σ.context root).children.flatMap fun c => printAllContext σ n c (i + 1) totalBytes

end WitchLogic

/-- The lines of the tree. A build without the roll-up prints another report. -/
def reportLines (b : BuildFlags) (t : WitchLogicType) (σ : WitchLogic) : List ReportLine :=
  if b.inst t then
    (calculate b t σ).printAllContext σ.nextContext contextTreeRoot 0 (totalBytes t σ)
  else []

/-- In a build with the logic's `_INST` option the report divides by the sum of the totals, and
this is positive when there is something to print. -/
structure DenominatorExact (b : BuildFlags) (t : WitchLogicType) (σ : WitchLogic) : Prop where
  exact : b.inst t = true → totalBytes t σ = totalSum t σ
  /-- before the roll-up or after it -/
  positive : b.inst t = true → (∃ c, σ.reportWeight c ≠ 0 ∨ (calculate b t σ).reportWeight c ≠ 0) →
    0 < totalBytes t σ
  divided : ∀ line ∈ reportLines b t σ,
    0 < totalSum t σ ∧ line.inEff = some (100 * (line.redBytes : ℚ) / (totalSum t σ : ℚ))

/-! ### The lines -/

section Lines

variable {σ : WitchLogic}

theorem reportWeight_ne_zero_iff (c : ℕ) :
    σ.reportWeight c ≠ 0 ↔ ¬ (((σ.context c).metrics .usedBytes).i = 0 ∧
      ((σ.context c).metrics .redBytes).i = 0) := by
  unfold reportWeight
  rw [Ne, Prod.mk_eq_zero, and_comm]

/-- **A printed line belongs to a context with bytes.** -/
theorem mem_printAllContext {line : ReportLine} {n root i totalBytes : ℕ}
    (h : line ∈ σ.printAllContext n root i totalBytes) :
    ∃ c depth, σ.reportWeight c ≠ 0 ∧ line = σ.reportLine c depth totalBytes := by
  -- over the depth: a line is the context's own, or comes from one of its children
  induction n generalizing root i with
  | zero => exact absurd h List.not_mem_nil
  | succ n ih =>
    unfold printAllContext at h
    by_cases hskip : σ.skipped root = true
    · rw [if_pos hskip] at h
      exact absurd h List.not_mem_nil
    rw [if_neg hskip, List.mem_append, List.mem_flatMap] at h
    rcases h with hown | ⟨c, -, hchild⟩
    · split_ifs at hown with hzero
      · exact absurd hown List.not_mem_nil
      · exact ⟨root, i, (reportWeight_ne_zero_iff root).mpr hzero, List.mem_singleton.mp hown⟩
    · exact ih hchild

/-- Rolling up a tree without bytes leaves it without bytes. -/
theorem rollUp_zero (kids : ℕ → List ℕ) (n c : ℕ) :
    rollUp kids n c (0 : ℕ → ℤ × ℤ) = (0, 0) := by
  induction n generalizing c with
  | zero => rfl
  | succ n ih =>
    -- the children are rolled up one after the other, over weights that stay 0
    have hkids : ∀ l : List ℕ, l.foldl (fun aw d =>
        (aw.1 + (rollUp kids n d aw.2).1, (rollUp kids n d aw.2).2))
        ((0 : ℤ × ℤ), (0 : ℕ → ℤ × ℤ)) = (0, 0) := by
      intro l
      induction l with
      | nil => rfl
      | cons d l ihl =>
        rw [List.foldl_cons, ih d, add_zero]
        exact ihl
    unfold rollUp
    simp only [hkids, add_zero, Pi.zero_apply]
    rw [Function.update_eq_self_iff.mpr (Pi.zero_apply c).symm]

theorem calculate_weight_zero {b : BuildFlags} {t : WitchLogicType} (h : σ.TreeOk)
    (hzero : ∀ c, σ.reportWeight c = 0) (c : ℕ) : (calculate b t σ).reportWeight c = 0 := by
  unfold calculate
  split_ifs with hinst
  · -- the roll-up starts at the root, which is never skipped
    have hroot : σ.skipped contextTreeRoot = false := by
      unfold skipped
      rw [h.root.2]
    obtain ⟨-, -, hweight⟩ := calculate_spec σ.nextContext σ contextTreeRoot h.parent hroot
    have hw : σ.reportWeight = 0 := funext hzero
    rw [hweight, hw, rollUp_zero]
    rfl
  · exact hzero c

end Lines

/-! ### Bytes have a total -/

/-- Without a total there are no bytes. -/
def Charged (t : WitchLogicType) (σ : WitchLogic) : Prop :=
  totalSum t σ = 0 → ∀ c m, m ≠ .inefficiency → m ≠ .contextType →
    ((σ.context c).metrics m).i = 0

section Charged

variable {F : FloatUnit} {b : BuildFlags} {t : WitchLogicType} {σ σ' : WitchLogic}

theorem Charged.weight (h : Charged t σ) (hzero : totalSum t σ = 0) (c : ℕ) :
    σ.reportWeight c = 0 :=
  Prod.ext (h hzero c .redBytes nofun nofun) (h hzero c .usedBytes nofun nofun)

/-- A step that attributes nothing. -/
theorem Charged.congr (h : Charged t σ) (htotal : σ'.total = σ.total)
    (hmetric : ∀ c m, m ≠ .contextType →
      ((σ'.context c).metrics m).i = ((σ.context c).metrics m).i) : Charged t σ' := by
  intro hzero c m hm hm'
  have hsum : totalSum t σ = 0 := by
    rw [← hzero, totalSum, totalSum, htotal]
  rw [hmetric c m hm']
  exact h hsum c m hm hm'

/-- What is attributed is part of the total. -/
theorem Charged.recorded (h : Charged t σ) {leafContext inc : ℕ} {m : MetricType}
    {extra : Option ℕ} (hm : m ∈ t.totals) (hrec : Recorded σ σ' leafContext inc m extra) :
    Charged t σ' := by
  have hsum := totalSum_update hm hrec.total
  intro hzero c m' hne hne'
  -- a total of 0 after the step means that no bytes were added in it
  rw [hsum, Nat.add_eq_zero_iff] at hzero
  rw [hrec.metric c m' hne hne', h hzero.1 c m' hne hne', hzero.2]
  simp only [Nat.cast_zero, ite_self, add_zero]

theorem Charged.sampled {event : Event} {ok : Bool} (hwf : WellFormed σ) (h : Charged t σ)
    (hs : Sampled σ event ok σ') : Charged t σ' := by
  cases hs with
  | failed => exact h
  | counted σ₁ leafContext n hne hadded hpos hn =>
    have hg := (hwf.walked hadded).2.2
    exact h.congr hg.total fun c m hm => hg.metric c m hm

theorem Charged.called {currEvent sampleEvent : Event} {wpt : WPTriggerInfo}
    {a : WPTriggerAction} (hwf : WellFormed σ) (h : Charged t σ)
    (hc : Called F (Logic.ofType b t) currEvent sampleEvent wpt σ a σ') : Charged t σ' := by
  -- taking a sample charges nobody
  have htaken : ∀ leafContext,
      Charged t (takePending currEvent sampleEvent leafContext σ).2 := by
    intro leafContext
    obtain ⟨table, heq, -⟩ := takePending_fields currEvent sampleEvent σ leafContext
    rw [heq]
    exact h.congr rfl fun _ _ _ => rfl
  cases hc with
  | ignored => exact h
  | mismatched => exact h
  | rejected | forgotten | refused => exact h.congr rfl fun _ _ _ => rfl
  | lost leafContext | empty leafContext =>
    exact (htaken leafContext).congr rfl fun _ _ _ => rfl
  -- what is found has a total of its own, which grows by the bytes
  | recorded leafContext hp hleaf =>
    obtain ⟨extra, hrec, -⟩ := hwf.record_taken hleaf F (Logic.ofType b t)
      ((Logic.ofType b t).finding F currEvent sampleEvent wpt)
      (pendingBytes σ currEvent sampleEvent leafContext)
    have hm := finding_metric_mem F b t currEvent sampleEvent wpt
    exact ((htaken leafContext).recorded hm hrec).congr rfl fun _ _ _ => rfl

/-- **In every run, bytes have a total.** -/
theorem charged_of_run (F : FloatUnit) (b : BuildFlags) (t : WitchLogicType)
    (ops : List LogicOp) : Charged t (runLogic F (Logic.ofType b t) .new ops) := by
  have hrun : Along (logicStep F (Logic.ofType b t)) (fun _ _ => True) .new ops :=
    along_of_forall fun _ _ => trivial
  have hinv := wellFormed_invariant (I := Charged t) (C := fun _ _ => True)
    (fun _ _ _ _ hwf h _ hs => h.sampled hwf hs)
    (fun _ _ _ _ _ _ hwf h _ hc => h.called (F := F) (b := b) hwf hc)
    wellFormed_new (fun _ _ _ _ _ => rfl) hrun
  exact hinv.2

end Charged

/-! ### The denominator -/

section Denominator

variable {b : BuildFlags} {t : WitchLogicType} {σ : WitchLogic}

/-- A total that fits is divided by as it is. -/
theorem totalBytes_eq_of_lt (hlt : totalSum t σ < 2 ^ 32) : totalBytes t σ = totalSum t σ :=
  Nat.mod_eq_of_lt hlt

/-- Without a total no context has bytes, rolled up or not. -/
theorem totalSum_pos (htree : σ.TreeOk) (hcharged : Charged t σ)
    (h : ∃ c, σ.reportWeight c ≠ 0 ∨ (calculate b t σ).reportWeight c ≠ 0) :
    0 < totalSum t σ := by
  obtain ⟨c, hc⟩ := h
  refine Nat.pos_of_ne_zero fun hzero => ?_
  have hbefore := hcharged.weight hzero
  rcases hc with hc | hc
  · exact hc (hbefore c)
  · exact hc (calculate_weight_zero htree hbefore c)

theorem denominatorExact_of_lt (htree : σ.TreeOk) (hcharged : Charged t σ)
    (hlt : b.inst t = true → totalSum t σ < 2 ^ 32) : DenominatorExact b t σ where
  exact := fun hinst => totalBytes_eq_of_lt (hlt hinst)
  positive := by
    intro hinst hc
    rw [totalBytes_eq_of_lt (hlt hinst)]
    exact totalSum_pos htree hcharged hc
  divided := by
    intro line hline
    unfold reportLines at hline
    split_ifs at hline with hinst
    -- a build without the roll-up prints none of these lines
    swap
    · exact absurd hline List.not_mem_nil
    obtain ⟨c, depth, hc, rfl⟩ := mem_printAllContext hline
    have hpos : 0 < totalSum t σ := totalSum_pos htree hcharged ⟨c, Or.inr hc⟩
    refine ⟨hpos, ?_⟩
    unfold reportLine
    rw [totalBytes_eq_of_lt (hlt hinst), if_neg hpos.ne']

/-- A total that does not fit is cut off. -/
theorem not_denominatorExact_of_le (hinst : b.inst t = true) (hle : 2 ^ 32 ≤ totalSum t σ) :
    ¬ DenominatorExact b t σ := by
  intro h
  have hcut : totalBytes t σ < 2 ^ 32 := Nat.mod_lt _ (Nat.two_pow_pos 32)
  rw [h.exact hinst] at hcut
  exact absurd hcut (not_lt.mpr hle)

end Denominator

/-- **The denominator of the report.** After any run it is the real total iff, in a build with
the logic's `_INST` option, that fits into an `unsigned int`. -/
theorem denominatorExact_iff (F : FloatUnit) (b : BuildFlags) (t : WitchLogicType)
    (ops : List LogicOp) :
    let σ := runLogic F (Logic.ofType b t) .new ops
    DenominatorExact b t σ ↔ (b.inst t = true → totalSum t σ < 2 ^ 32) := by
  intro σ
  have hwf : WellFormed σ := wellFormed_of_run F (Logic.ofType b t) ops
  constructor
  · intro h hinst
    by_contra hle
    exact not_denominatorExact_of_le hinst (not_lt.mp hle) h
  · exact denominatorExact_of_lt hwf.tree (charged_of_run F b t ops)

/-! ### A run of RedSpy -/

/-- A store of 512 bytes. -/
def wideStore (self : ℕ) : Event :=
  { (Event.storeAt self 0x1000).withStack [0x40] with accessLength := 512 }

/-- 84 samples of the store, and a trigger of the last one. -/
def manyWideStores : List LogicOp :=
  (List.range 84).map (fun i => .sample (wideStore i)) ++
    [.trigger (wideStore 84) (wideStore 83) ⟨0x1000, 8⟩]

/-- **84 samples of 512 bytes outgrow the denominator.** -/
theorem manyWideStores_denominator :
    BuildFlags.instOnly.inst .redSpy = true ∧
      ¬ DenominatorExact .instOnly .redSpy
        (runLogic .bytewise (Logic.ofType .instOnly .redSpy) .new manyWideStores) :=
  ⟨rfl, not_denominatorExact_of_le rfl (by decide +kernel)⟩

end Kognizance
