import Mathlib.Algebra.Order.Floor.Ring
import Mathlib.Data.Rat.Floor
import Kognizance.Witch.Inefficiency

/-!
# The quotient behind the inefficiency

`INEFFICIENCY` is a quotient of two sums of metrics. A spy leaves before it when it has no
bytes to attribute. DeadStore and FalseSharing go on, so a context that has no bytes yet may
be divided by zero: its samples may have been taken by a trigger that attributed nothing.

* `Evaluates`: the calls that compute the quotient.
* `witchOnWPCallback_congr`: no other call computes it.
* `quotientSafe_along_iff`: along a run, every denominator is positive and every stored value
  in 0..100 exactly when every trigger has bytes to weigh (`HasWeight`).
* `deadStore_dividesByZero`: two samples of one context, of which the first trigger takes
  both.
-/

namespace Kognizance

open Process WitchLogic

/-! ### The arithmetic of the quotient -/

/-- Each operation of `((float)bad / all) * 100` is rounded, and the result truncated. The
rounding is monotone, and 0, 1 and 100 are floats. -/
def FloatUnit.RoundsPercent (F : FloatUnit) : Prop :=
  ∃ rnd : ℚ → ℚ, Monotone rnd ∧ rnd 0 = 0 ∧ rnd 1 = 1 ∧ rnd 100 = 100 ∧
    ∀ bad all : ℤ, 0 ≤ bad → bad ≤ all → 0 < all →
      -- no operand is negative, so truncation is the floor
      F.percent bad all = ⌊rnd (rnd (rnd bad / rnd all) * 100)⌋

/-- A share is a percentage. -/
theorem FloatUnit.RoundsPercent.mem {F : FloatUnit} (hF : F.RoundsPercent) {bad all : ℤ}
    (hbad : 0 ≤ bad) (hle : bad ≤ all) (hall : 0 < all) :
    0 ≤ F.percent bad all ∧ F.percent bad all ≤ 100 := by
  obtain ⟨rnd, hmono, hzero, hone, hhundred, heq⟩ := hF
  have hnonneg : ∀ q, 0 ≤ q → 0 ≤ rnd q := fun q hq => hzero ▸ hmono hq
  have hden : 0 < rnd all := by
    have h1 : (1 : ℚ) ≤ all := by exact_mod_cast hall
    exact (hone ▸ one_pos).trans_le (hmono h1)
  -- rounding moves neither bound of the quotient
  have hnum : rnd bad ≤ rnd all := hmono (by exact_mod_cast hle)
  have hnum₀ : 0 ≤ rnd bad := hnonneg _ (by exact_mod_cast hbad)
  have hquot : rnd (rnd bad / rnd all) ≤ 1 := hone ▸ hmono ((div_le_one hden).mpr hnum)
  have hquot₀ : 0 ≤ rnd (rnd bad / rnd all) := hnonneg _ (div_nonneg hnum₀ hden.le)
  have hprod : rnd (rnd (rnd bad / rnd all) * 100) ≤ 100 := by
    calc rnd (rnd (rnd bad / rnd all) * 100) ≤ rnd 100 := hmono (by linarith)
      _ = 100 := hhundred
  rw [heq bad all hbad hle hall]
  constructor
  · exact Int.floor_nonneg.mpr (hnonneg _ (mul_nonneg hquot₀ (by norm_num)))
  · have hfloor := Int.floor_mono hprod
    rwa [show ⌊(100 : ℚ)⌋ = 100 from Int.floor_intCast 100] at hfloor

/-! ### When the quotient is computed -/

/-- The call computes the quotient for `leafContext`: it passes all tests, and what it finds
is one of the findings that store the share. -/
structure Evaluates (F : FloatUnit) (l : Logic) (currEvent sampleEvent : Event)
    (wpt : WPTriggerInfo) (σ : WitchLogic) (leafContext : ℕ) : Prop where
  proceeds : l.Proceeds currEvent sampleEvent
  leaf : σ.eventToContextLeafMap.lookup sampleEvent.eventId = some leafContext
  accepts : l.accepts currEvent sampleEvent wpt = true
  -- the guard of the spies
  pending : l.takesFirst = false → pendingBytes σ currEvent sampleEvent leafContext ≠ 0
  refreshes : l.Refreshes (l.finding F currEvent sampleEvent wpt)

/-- Every denominator of the step is positive, and what is stored is a percentage. -/
def QuotientSafe (F : FloatUnit) (l : Logic) (σ : WitchLogic) : LogicOp → Prop
  | .sample _ => True
  | .trigger currEvent sampleEvent wpt => ∀ leafContext,
      Evaluates F l currEvent sampleEvent wpt σ leafContext →
      let σ' := (l.witchOnWPCallback F currEvent sampleEvent wpt σ).2
      0 < allBytes l σ' leafContext ∧
        0 ≤ ((σ'.context leafContext).metrics .inefficiency).i ∧
        ((σ'.context leafContext).metrics .inefficiency).i ≤ 100

/-- A trigger of DeadStore or FalseSharing that passes the tests finds a sample pending whose
access has a length, or a context that has bytes already. -/
def HasWeight (l : Logic) (σ : WitchLogic) : LogicOp → Prop
  | .sample _ => True
  | .trigger currEvent sampleEvent wpt => l.takesFirst = true →
      l.Proceeds currEvent sampleEvent → l.accepts currEvent sampleEvent wpt = true →
      ∀ leafContext, σ.eventToContextLeafMap.lookup sampleEvent.eventId = some leafContext →
      (∃ n, σ.propAttrTable.lookup leafContext = some n ∧ n.catchup_num < n.cur_num ∧
        sampleEvent.accessLength.toNat ≠ 0) ∨
      ∃ m ∈ l.counted, ((σ.context leafContext).metrics m).i ≠ 0

section Step

variable {F : FloatUnit} {l : Logic} {σ σ' : WitchLogic} {currEvent sampleEvent : Event}
  {wpt : WPTriggerInfo} {leafContext : ℕ}

/-- The counted metrics of every context are sums of weights. -/
def CountedNonneg (l : Logic) (σ : WitchLogic) : Prop :=
  ∀ c, ∀ m ∈ l.counted, 0 ≤ ((σ.context c).metrics m).i

theorem CountedNonneg.wastedBytes_le (h : CountedNonneg l σ) (c : ℕ) :
    0 ≤ wastedBytes l σ c ∧ wastedBytes l σ c ≤ allBytes l σ c := by
  have hused := h c .usedBytes List.mem_cons_self
  refine ⟨wastedBytes_nonneg (h c), ?_⟩
  unfold allBytes
  omega

/-- There are bytes as soon as one of the metrics is not 0. -/
theorem CountedNonneg.allBytes_pos_iff (h : CountedNonneg l σ) (c : ℕ) :
    0 < allBytes l σ c ↔ ∃ m ∈ l.counted, ((σ.context c).metrics m).i ≠ 0 := by
  constructor
  · intro hpos
    by_contra! hzero
    have hwasted : wastedBytes l σ c = 0 :=
      List.sum_eq_zero fun v hv => by
        obtain ⟨m, hm, rfl⟩ := List.mem_map.mp hv
        exact hzero m (List.mem_cons_of_mem _ hm)
    unfold allBytes at hpos
    rw [hwasted, hzero .usedBytes List.mem_cons_self] at hpos
    exact absurd hpos (lt_irrefl 0)
  · rintro ⟨m, hm, hne⟩
    have hle := metric_le_allBytes (h c) hm
    have hm₀ := h c m hm
    omega

theorem CountedNonneg.congr (h : CountedNonneg l σ) (hcontext : σ'.context = σ.context) :
    CountedNonneg l σ' := by
  unfold CountedNonneg
  rw [hcontext]
  exact h

theorem CountedNonneg.called {a : WPTriggerAction} (hwf : WellFormed σ)
    (h : CountedNonneg l σ) (hc : Called F l currEvent sampleEvent wpt σ a σ') :
    CountedNonneg l σ' := by
  cases hc with
  | ignored | mismatched => exact h
  | rejected | forgotten | refused => exact h.congr rfl
  | lost leafContext | empty leafContext =>
    obtain ⟨table, heq, -⟩ := takePending_fields currEvent sampleEvent σ leafContext
    rw [heq]
    exact h.congr rfl
  | recorded leafContext hp hleaf =>
    obtain ⟨table, heq, -⟩ := takePending_fields currEvent sampleEvent σ leafContext
    obtain ⟨extra, hrec, -⟩ := hwf.record_taken hleaf F l (l.finding F currEvent sampleEvent wpt)
      (pendingBytes σ currEvent sampleEvent leafContext)
    have htaken : CountedNonneg l (takePending currEvent sampleEvent leafContext σ).2 := by
      rw [heq]
      exact h.congr rfl
    exact fun x m hm => (htaken x m hm).trans (KeptUpToDate.counted_le_recorded hrec x hm)

theorem CountedNonneg.sampled {event : Event} {ok : Bool} (hwf : WellFormed σ)
    (h : CountedNonneg l σ) (hs : Sampled σ event ok σ') : CountedNonneg l σ' := by
  cases hs with
  | failed => exact h
  | counted σ₁ leafContext n hne hadded hpos hn =>
    have hg := (hwf.walked hadded).2.2
    intro x m hm
    change 0 ≤ ((σ₁.context x).metrics m).i
    rw [hg.metric x m (Logic.counted_ne hm).2]
    exact h x m hm

theorem countedNonneg_of_run (F : FloatUnit) (l : Logic) (ops : List LogicOp) :
    CountedNonneg l (runLogic F l .new ops) := by
  have hrun : Along (logicStep F l) (fun _ _ => True) .new ops := along_of_forall fun _ _ => trivial
  exact (wellFormed_invariant (I := CountedNonneg l) (C := fun _ _ => True)
    (fun _ _ _ _ hwf h _ hs => h.sampled hwf hs)
    (fun _ _ _ _ _ _ hwf h _ hc => h.called hwf hc)
    wellFormed_new (fun _ _ _ => le_rfl) hrun).2

/-- A call that computes the quotient attributes the pending weight. -/
theorem Evaluates.callback (he : Evaluates F l currEvent sampleEvent wpt σ leafContext) :
    (l.witchOnWPCallback F currEvent sampleEvent wpt σ).2 = finish sampleEvent
      (l.record F (l.finding F currEvent sampleEvent wpt) currEvent leafContext
        (pendingBytes σ currEvent sampleEvent leafContext)
        (takePending currEvent sampleEvent leafContext σ).2) := by
  have hc := witchOnWPCallback_called F l currEvent sampleEvent wpt σ
  generalize (l.witchOnWPCallback F currEvent sampleEvent wpt σ).2 = σ' at hc ⊢
  generalize (l.witchOnWPCallback F currEvent sampleEvent wpt σ).1 = a at hc
  -- each earlier return is ruled out by the test that leads to it
  cases hc with
  | ignored h => exact absurd h he.proceeds.watched
  | mismatched _ h => exact absurd h he.proceeds.sameIP
  | rejected h => exact absurd h he.proceeds.known
  | forgotten _ h => exact nomatch h.symm.trans he.leaf
  | refused _ _ _ hno => exact nomatch hno.symm.trans he.accepts
  | lost _ _ _ hno => exact nomatch hno.symm.trans he.accepts
  | empty c _ hleaf _ hl hinc =>
    obtain rfl := Option.some.inj (hleaf.symm.trans he.leaf)
    exact absurd hinc (he.pending hl)
  | recorded c _ hleaf =>
    obtain rfl := Option.some.inj (hleaf.symm.trans he.leaf)
    rfl

/-- **What a call that computes the quotient stores**: the share of the bytes as they are
afterwards. -/
theorem Evaluates.stored (hwf : WellFormed σ)
    (he : Evaluates F l currEvent sampleEvent wpt σ leafContext) :
    let σ' := (l.witchOnWPCallback F currEvent sampleEvent wpt σ).2
    ((σ'.context leafContext).metrics .inefficiency).i
      = F.percent (wastedBytes l σ' leafContext) (allBytes l σ' leafContext) := by
  intro σ'
  obtain ⟨table, heq, -⟩ := takePending_fields currEvent sampleEvent σ leafContext
  -- the leaf was there before, so recording goes to it
  have hlt : leafContext < (takePending currEvent sampleEvent leafContext σ).2.nextContext := by
    rw [heq]
    exact hwf.leaf_lt he.leaf
  have hst := l.record_inefficiency F (l.finding F currEvent sampleEvent wpt) currEvent
    (hwf.takePending currEvent sampleEvent leafContext).tree hlt
    (pendingBytes σ currEvent sampleEvent leafContext)
  -- removing the entry of the event changes no context
  have hcontext : σ'.context = (l.record F (l.finding F currEvent sampleEvent wpt) currEvent
      leafContext (pendingBytes σ currEvent sampleEvent leafContext)
      (takePending currEvent sampleEvent leafContext σ).2).context := by
    change ((l.witchOnWPCallback F currEvent sampleEvent wpt σ).2).context = _
    rw [he.callback]
    rfl
  unfold allBytes wastedBytes
  rw [hcontext]
  exact (hst leafContext).2 ⟨rfl, he.refreshes⟩

/-- What is found does not depend on the quotient. -/
theorem Logic.finding_congr {F' : FloatUnit} (hne : F'.ne = F.ne) (hfar : F'.farOff = F.farOff) :
    l.finding F' currEvent sampleEvent wpt = l.finding F currEvent sampleEvent wpt := by
  cases l with
  | spy s =>
    unfold Logic.finding Spy.finding Spy.compareFloats
    rw [hne, hfar]
  | waste w => rfl

/-- **Nothing else computes the quotient**: any other call does the same whatever the
quotient is. -/
theorem witchOnWPCallback_congr {F' : FloatUnit} (hne : F'.ne = F.ne)
    (hfar : F'.farOff = F.farOff)
    (h : ∀ leafContext, ¬ Evaluates F l currEvent sampleEvent wpt σ leafContext) :
    l.witchOnWPCallback F' currEvent sampleEvent wpt σ
      = l.witchOnWPCallback F currEvent sampleEvent wpt σ := by
  have hfound : l.finding F' currEvent sampleEvent wpt = l.finding F currEvent sampleEvent wpt :=
    Logic.finding_congr hne hfar
  cases l with
  | spy s =>
    change s.witchOnWPCallback F' currEvent sampleEvent wpt σ
      = s.witchOnWPCallback F currEvent sampleEvent wpt σ
    unfold Spy.witchOnWPCallback
    cases hleaf : σ.eventToContextLeafMap.lookup sampleEvent.eventId with
    | none => simp only
    | some leafContext =>
      simp only
      split_ifs with hignored hmismatch hno hinc
      · rfl
      · rfl
      · rfl
      · rfl
      · -- only a float that was used is attributed without a quotient
        have hkeeps : ¬ (Logic.spy s).Refreshes (s.finding F currEvent sampleEvent wpt) :=
          fun hrefreshes => h leafContext
            ⟨⟨hignored, id, hmismatch⟩, hleaf, Bool.eq_true_of_not_eq_false hno, fun _ => hinc,
              hrefreshes⟩
        change s.finding F' currEvent sampleEvent wpt
          = s.finding F currEvent sampleEvent wpt at hfound
        rw [hfound]
        cases hf : s.finding F currEvent sampleEvent wpt with
        | floatUsed =>
          rw [hf] at hkeeps
          unfold Spy.record addUsed
          simp only [Bool.eq_false_iff.mpr hkeeps, if_neg Bool.false_ne_true]
        | used | red | approxRed | dead =>
          rw [hf] at hkeeps
          exact absurd trivial hkeeps
  | waste w =>
    change w.witchOnWPCallback F' currEvent sampleEvent wpt σ
      = w.witchOnWPCallback F currEvent sampleEvent wpt σ
    unfold Waste.witchOnWPCallback
    cases hleaf : σ.eventToContextLeafMap.lookup sampleEvent.eventId with
    | none => simp only
    | some leafContext =>
      simp only
      split_ifs with hrejected hmismatch hno
      · rfl
      · rfl
      · rfl
      all_goals exact absurd ⟨⟨id, hrejected, hmismatch⟩, hleaf,
        decide_eq_true (not_le.mp hno), nofun, trivial⟩ (h leafContext)

/-- Attributing weight leaves the context with bytes exactly when there is weight, or there
were bytes. -/
theorem CountedNonneg.recorded_pos_iff (h : CountedNonneg l σ) {inc : ℕ} {m : MetricType}
    {extra : Option ℕ} (hrec : Recorded σ σ' leafContext inc m extra) (hm : m ∈ l.counted) :
    0 < allBytes l σ' leafContext ↔
      inc ≠ 0 ∨ ∃ m ∈ l.counted, ((σ.context leafContext).metrics m).i ≠ 0 := by
  have hafter : CountedNonneg l σ' :=
    fun x m' hm' => (h x m' hm').trans (KeptUpToDate.counted_le_recorded hrec x hm')
  have hadd := fun m' (hm' : m' ∈ l.counted) =>
    KeptUpToDate.counted_recorded hrec leafContext hm'
  rw [hafter.allBytes_pos_iff]
  constructor
  · rintro ⟨m', hm', hne⟩
    by_cases hinc : inc = 0
    · -- nothing is added, so the bytes were there before
      rw [hadd m' hm', hinc, Nat.cast_zero, ite_self, ite_self, add_zero, add_zero] at hne
      exact Or.inr ⟨m', hm', hne⟩
    · exact Or.inl hinc
  · rintro (hinc | ⟨m', hm', hne⟩)
    · have hold := h leafContext m hm
      have hnew := hadd m hm
      rw [if_pos ⟨rfl, rfl⟩] at hnew
      refine ⟨m, hm, ?_⟩
      split_ifs at hnew <;> omega
    · have hold := h leafContext m' hm'
      have hle := KeptUpToDate.counted_le_recorded hrec leafContext hm'
      exact ⟨m', hm', by omega⟩

/-- **Which denominators are positive**: those of calls that have weight to attribute, or
whose context has bytes already. -/
theorem Evaluates.allBytes_pos_iff (hwf : WellFormed σ) (h : CountedNonneg l σ)
    (he : Evaluates F l currEvent sampleEvent wpt σ leafContext) :
    0 < allBytes l (l.witchOnWPCallback F currEvent sampleEvent wpt σ).2 leafContext ↔
      pendingBytes σ currEvent sampleEvent leafContext ≠ 0 ∨
        ∃ m ∈ l.counted, ((σ.context leafContext).metrics m).i ≠ 0 := by
  obtain ⟨table, heq, -⟩ := takePending_fields currEvent sampleEvent σ leafContext
  have hcontext : (takePending currEvent sampleEvent leafContext σ).2.context = σ.context := by
    rw [heq]
  obtain ⟨extra, hrec, -⟩ := hwf.record_taken he.leaf F l (l.finding F currEvent sampleEvent wpt)
    (pendingBytes σ currEvent sampleEvent leafContext)
  have hiff := (h.congr hcontext).recorded_pos_iff hrec
    (l.finding_metric_counted F currEvent sampleEvent wpt)
  rw [hcontext] at hiff
  rw [he.callback]
  exact hiff

/-- **One step**: its denominators are positive exactly when it has weight. -/
theorem quotientSafe_iff (hF : F.RoundsPercent) (hwf : WellFormed σ) (h : CountedNonneg l σ)
    (op : LogicOp) : QuotientSafe F l σ op ↔ HasWeight l σ op := by
  cases op with
  | sample event => exact Iff.rfl
  | trigger currEvent sampleEvent wpt =>
    constructor
    · intro hsafe hfirst hp hyes leafContext hleaf
      -- the quotient is computed whatever the finding is
      have he : Evaluates F l currEvent sampleEvent wpt σ leafContext :=
        { proceeds := hp
          leaf := hleaf
          accepts := hyes
          pending := fun hspy => nomatch hfirst.symm.trans hspy
          refreshes := by
            by_contra hno
            exact nomatch hfirst.symm.trans (Logic.of_not_refreshes hno).2 }
      refine ((he.allBytes_pos_iff hwf h).mp (hsafe leafContext he).1).imp_left fun hinc => ?_
      obtain ⟨n, hn⟩ := Option.isSome_iff_exists.mp (AList.lookup_isSome.mpr (hwf.leaf _ _ hleaf))
      rw [Ne, pendingBytes_eq_zero_iff currEvent sampleEvent hn, not_not] at hinc
      exact ⟨n, hn, hinc⟩
    · intro hweight leafContext he
      have hpos : 0 < allBytes l (l.witchOnWPCallback F currEvent sampleEvent wpt σ).2
          leafContext := by
        refine (he.allBytes_pos_iff hwf h).mpr ?_
        cases hfirst : l.takesFirst with
        | false => exact Or.inl (he.pending hfirst)
        | true =>
          refine (hweight hfirst he.proceeds he.accepts leafContext he.leaf).imp_left ?_
          rintro ⟨n, hn, hlt⟩ hinc
          exact (pendingBytes_eq_zero_iff currEvent sampleEvent hn).mp hinc hlt
      have hcalled := h.called hwf (witchOnWPCallback_called F l currEvent sampleEvent wpt σ)
      obtain ⟨hwasted, hle⟩ := hcalled.wastedBytes_le leafContext
      refine ⟨hpos, ?_⟩
      rw [he.stored hwf]
      exact hF.mem hwasted hle hpos

end Step

/-- **No zero denominator, along every run in which each trigger has weight, and in no
other.** -/
theorem quotientSafe_along_iff {F : FloatUnit} (hF : F.RoundsPercent) (b : BuildFlags)
    (t : WitchLogicType) (ops : List LogicOp) :
    Along (logicStep F (Logic.ofType b t)) (QuotientSafe F (Logic.ofType b t)) .new ops ↔
      Along (logicStep F (Logic.ofType b t)) (HasWeight (Logic.ofType b t)) .new ops := by
  -- every step keeps the counts non-negative, whatever the condition on the steps
  have hkeep : ∀ {C : WitchLogic → LogicOp → Prop} σ op a σ',
      (WellFormed σ ∧ CountedNonneg (Logic.ofType b t) σ) → C σ op →
      logicStep F (Logic.ofType b t) σ op = .running a σ' →
      WellFormed σ' ∧ CountedNonneg (Logic.ofType b t) σ' := by
    rintro C σ (event | ⟨currEvent, sampleEvent, wpt⟩) a σ' ⟨hwf, h⟩ - hs
    · obtain ⟨-, rfl⟩ := Outcome.running.inj hs
      have hsampled := witchOnSampleCallback_sampled hwf.tree event
      exact ⟨hwf.sampled hsampled, h.sampled hwf hsampled⟩
    · obtain ⟨-, rfl⟩ := Outcome.running.inj hs
      have hc := witchOnWPCallback_called F (Logic.ofType b t) currEvent sampleEvent wpt σ
      exact ⟨hwf.called hc, h.called hwf hc⟩
  have hnew : WellFormed .new ∧ CountedNonneg (Logic.ofType b t) .new :=
    ⟨wellFormed_new, fun _ _ _ => le_rfl⟩
  -- step by step a trigger is safe iff it has weight
  constructor
  · exact Along.of_invariant hkeep (fun σ op h => (quotientSafe_iff hF h.1 h.2 op).mp) hnew
  · exact Along.of_invariant hkeep (fun σ op h => (quotientSafe_iff hF h.1 h.2 op).mpr) hnew

/-! ### Runs of DeadStore -/

theorem roundsPercent_bytewise : FloatUnit.bytewise.RoundsPercent := by
  refine ⟨id, monotone_id, rfl, rfl, rfl, fun bad all _ _ hall => ?_⟩
  obtain ⟨d, rfl⟩ := Int.eq_ofNat_of_zero_le hall.le
  -- the exact quotient, truncated
  calc 100 * bad / (d : ℤ) = ⌊((100 * bad : ℤ) : ℚ) / d⌋ :=
        (Rat.floor_intCast_div_natCast _ d).symm
    _ = ⌊id (id (id (bad : ℚ) / id ((d : ℤ) : ℚ)) * 100)⌋ := by
        congr 1
        push_cast [id]
        ring

/-- A store sampled in the context `0x40`. -/
def firstStore : Event := (Event.storeAt 1 0x1000).withStack [0x40]

/-- A second one. -/
def secondStore : Event := (Event.storeAt 2 0x1000).withStack [0x40]

/-- A store to the sampled address. -/
def storeAgain : Event := Event.storeAt 3 0x1000

/-- The only sample of its context is triggered. -/
def oneArmed : List LogicOp :=
  [.sample firstStore, .trigger storeAgain firstStore ⟨0x1000, 8⟩]

/-- Two samples of one context are triggered. The decoder tells no length for the first
trigger, which then overlaps nothing. -/
def bothArmed : List LogicOp :=
  [.sample firstStore, .sample secondStore,
    .trigger { storeAgain with accessLength := 0 } firstStore ⟨0x1000, 8⟩,
    .trigger storeAgain secondStore ⟨0x1000, 8⟩]

theorem quotientSafe_along_oneArmed :
    let l := Logic.ofType .instOnly .deadSpy
    Along (logicStep .bytewise l) (QuotientSafe .bytewise l) .new oneArmed := by
  intro l
  refine (quotientSafe_along_iff roundsPercent_bytewise .instOnly .deadSpy oneArmed).mpr
    (.cons trivial rfl (.cons ?_ rfl trivial))
  intro _ _ _ leafContext hleaf
  -- the sample has not been taken yet
  have hlook : (WitchLogic.new.witchOnSampleCallback firstStore).2.eventToContextLeafMap.lookup 1
      = some 1 := by decide +kernel
  obtain rfl := Option.some.inj (hlook.symm.trans hleaf)
  exact Or.inl ⟨⟨0, 1, 0⟩, rfl, by decide, by decide⟩

/-- **DeadStore divides by zero.** The first trigger has taken both samples and attributed
nothing. -/
theorem deadStore_dividesByZero :
    let l := Logic.ofType .instOnly .deadSpy
    ¬ Along (logicStep .bytewise l) (QuotientSafe .bytewise l) .new bothArmed := by
  intro l h
  have hlast := (((h.2 () _ rfl).2 () _ rfl).2 () _ rfl).1
  have he : Evaluates .bytewise l storeAgain secondStore ⟨0x1000, 8⟩
      (runLogic .bytewise l .new (bothArmed.take 3)) 1 :=
    { proceeds := ⟨nofun, nofun, fun hip => absurd rfl hip.2⟩
      leaf := by decide +kernel
      accepts := by decide +kernel
      pending := nofun
      refreshes := trivial }
  have hpos := (hlast 1 he).1
  revert hpos
  decide +kernel

end Kognizance
