import Mathlib.Tactic.Ring
import Kognizance.Witch.Steps

/-!
# Attribution of the pending samples

A trigger takes the samples that are pending for the sampled context and should
attribute exactly their weight. In a spy nothing lies between the two that could stop
it. DeadStore and FalseSharing take the samples first and give up afterwards when the
accesses do not overlap, so the weight is gone.

* `conserved_iff`: in every reachable state, a call keeps the balance exactly when it
  does not lose pending samples (`Loses`).
* `deadStore_loses`: a run in which DeadStore loses the weight of one sample.
-/

namespace Kognizance

open Process WitchLogic

/-- `catchup_num` of a context. -/
def catchupOf (σ : WitchLogic) (c : ℕ) : ℕ :=
  match σ.propAttrTable.lookup c with
  | none => 0
  | some n => n.catchup_num

/-- What the call added to the global totals is the weight of the samples it took from
the sampled context. -/
def Conserved (t : WitchLogicType) (sampleEvent : Event) (σ σ' : WitchLogic) : Prop :=
  (totalSum t σ' : ℤ) - totalSum t σ =
    match σ.eventToContextLeafMap.lookup sampleEvent.eventId with
    | none => 0
    | some leafContext => ((catchupOf σ' leafContext : ℤ) - catchupOf σ leafContext) * 100003
        * sampleEvent.accessLength.toNat

instance (t : WitchLogicType) (sampleEvent : Event) (σ σ' : WitchLogic) :
    Decidable (Conserved t sampleEvent σ σ') :=
  inferInstanceAs (Decidable (_ = _))

/-- The call is one of DeadStore or FalseSharing, it gets past the tests at the top, the
sample is known and samples are pending, but the accesses do not overlap. -/
structure Loses (l : Logic) (currEvent sampleEvent : Event) (wpt : WPTriggerInfo)
    (σ : WitchLogic) : Prop where
  takesFirst : l.takesFirst = true
  proceeds : l.Proceeds currEvent sampleEvent
  noOverlap : l.accepts currEvent sampleEvent wpt = false
  pending : ∃ leafContext n,
    σ.eventToContextLeafMap.lookup sampleEvent.eventId = some leafContext ∧
      σ.propAttrTable.lookup leafContext = some n ∧ n.catchup_num < n.cur_num
  length : sampleEvent.accessLength.toNat ≠ 0

/-! ### What a logic finds is one of its own metrics -/

theorem Spy.finding_ne_dead (F : FloatUnit) (spy : Spy) (currEvent sampleEvent : Event)
    (wpt : WPTriggerInfo) : spy.finding F currEvent sampleEvent wpt ≠ .dead := by
  have hint : ∀ overlap offset,
      spy.treatLikeInteger currEvent sampleEvent overlap offset ≠ .dead := by
    intro overlap offset
    unfold treatLikeInteger
    split_ifs <;> exact nofun
  have hfloat : ∀ size offset,
      spy.compareFloats F size currEvent sampleEvent offset ≠ .dead := by
    intro size offset
    unfold compareFloats
    simp only
    split_ifs <;> exact nofun
  -- a spy compares values, so it finds use or redundancy only
  unfold finding
  cases currEvent.floatType with
  | elemTypeSingle | elemTypeDouble =>
    simp only
    split_ifs
    · exact hint _ _
    · exact hfloat _ _
  | elemTypeFloat16 | elemTypeLongDouble | elemTypeLongBCD | elemTypeUnknown => exact hint _ _

theorem finding_metric_mem (F : FloatUnit) (b : BuildFlags) (t : WitchLogicType)
    (currEvent sampleEvent : Event) (wpt : WPTriggerInfo) :
    ((Logic.ofType b t).finding F currEvent sampleEvent wpt).metric ∈ t.totals := by
  have hspy : ∀ s : Spy,
      (s.finding F currEvent sampleEvent wpt).metric ∈
        [MetricType.usedBytes, .redBytes, .approxRedBytes] := by
    intro s
    have hne := s.finding_ne_dead F currEvent sampleEvent wpt
    cases hfound : s.finding F currEvent sampleEvent wpt with
    | used | floatUsed | red | approxRed => simp [Finding.metric]
    | dead => exact absurd hfound hne
  have hwaste : ∀ w : Waste,
      ((Logic.waste w).finding F currEvent sampleEvent wpt).metric ∈
        [MetricType.usedBytes, .deadBytes] := by
    intro w
    unfold Logic.finding
    simp only
    split_ifs <;> simp [Finding.metric]
  -- each logic has a total for everything that it can find
  cases t with
  | redSpy | loadSpy | dupSpy => exact hspy _
  | deadSpy | falseShare => exact hwaste _

/-- Adding to one of the logic's totals adds to their sum. -/
theorem totalSum_update {t : WitchLogicType} {σ σ' : WitchLogic} {m : MetricType} {inc : ℕ}
    (hm : m ∈ t.totals) (h : σ'.total = Function.update σ.total m (σ.total m + inc)) :
    totalSum t σ' = totalSum t σ + inc := by
  have hupdate : ∀ m', σ'.total m' = σ.total m' + if m' = m then inc else 0 := by
    intro m'
    rw [h]
    by_cases hm' : m' = m
    · subst hm'
      rw [Function.update_self, if_pos rfl]
    · rw [Function.update_of_ne hm', if_neg hm', add_zero]
  have hnodup : t.totals.Nodup := by cases t <;> decide
  have hone : (t.totals.map fun m' => if m' = m then inc else 0).sum = inc := by
    rw [← List.sum_toFinset _ hnodup, Finset.sum_ite_eq' t.totals.toFinset m,
      if_pos (List.mem_toFinset.mpr hm)]
  unfold totalSum
  rw [List.map_congr_left fun m' _ => hupdate m', List.sum_map_add, hone]

/-! ### The balance of one call -/

section Balance

variable {σ : WitchLogic} {leafContext : ℕ} (currEvent sampleEvent : Event)

/-- The weight taken, in terms of `catchup_num`. -/
theorem pendingBytes_eq (h : WellFormed σ) (hkey : leafContext ∈ σ.propAttrTable) :
    (pendingBytes σ currEvent sampleEvent leafContext : ℤ)
      = ((catchupOf (takePending currEvent sampleEvent leafContext σ).2 leafContext : ℤ)
          - catchupOf σ leafContext) * 100003 * sampleEvent.accessLength.toNat := by
  obtain ⟨n, hn⟩ := Option.isSome_iff_exists.mp (AList.lookup_isSome.mpr hkey)
  obtain ⟨hweight, avg, hstate⟩ := takePending_of_lookup currEvent sampleEvent hn
  have hafter : catchupOf (takePending currEvent sampleEvent leafContext σ).2 leafContext
      = n.cur_num := by
    rw [hstate, catchupOf, AList.lookup_insert]
  have hbefore : catchupOf σ leafContext = n.catchup_num := by
    rw [catchupOf, hn]
  rw [pendingBytes, hweight, hafter, hbefore]
  push_cast [Nat.cast_sub (h.behind leafContext n hn)]
  ring

/-- There is weight to take when samples are pending and the access has a length. -/
theorem pendingBytes_eq_zero_iff {n : SampleNum}
    (hn : σ.propAttrTable.lookup leafContext = some n) :
    pendingBytes σ currEvent sampleEvent leafContext = 0 ↔
      ¬ (n.catchup_num < n.cur_num ∧ sampleEvent.accessLength.toNat ≠ 0) := by
  rw [pendingBytes, (takePending_of_lookup currEvent sampleEvent hn).1, Nat.mul_eq_zero,
    Nat.mul_eq_zero, Nat.sub_eq_zero_iff_le]
  omega

/-- A call that takes nothing and attributes nothing keeps the balance. -/
theorem conserved_of_idle {t : WitchLogicType} {σ' : WitchLogic}
    (hattr : σ'.propAttrTable = σ.propAttrTable) (htotal : σ'.total = σ.total) :
    Conserved t sampleEvent σ σ' := by
  have hsum : totalSum t σ' = totalSum t σ := by
    rw [totalSum, htotal, totalSum]
  have hcatchup : ∀ c, catchupOf σ' c = catchupOf σ c := by
    intro c
    rw [catchupOf, hattr, catchupOf]
  unfold Conserved
  rw [hsum, sub_self]
  cases σ.eventToContextLeafMap.lookup sampleEvent.eventId with
  | none => rfl
  | some c =>
    simp only
    rw [hcatchup, sub_self, zero_mul, zero_mul]

/-- A call that takes the pending samples keeps the balance when it attributes them. -/
theorem conserved_iff_of_taken {t : WitchLogicType} {σ' : WitchLogic} {added : ℕ}
    (h : WellFormed σ)
    (hleaf : σ.eventToContextLeafMap.lookup sampleEvent.eventId = some leafContext)
    (hattr : σ'.propAttrTable
      = (takePending currEvent sampleEvent leafContext σ).2.propAttrTable)
    (hsum : totalSum t σ' = totalSum t σ + added) :
    Conserved t sampleEvent σ σ' ↔
      added = pendingBytes σ currEvent sampleEvent leafContext := by
  have hcatchup : catchupOf σ' leafContext
      = catchupOf (takePending currEvent sampleEvent leafContext σ).2 leafContext := by
    rw [catchupOf, hattr, catchupOf]
  have hpending := pendingBytes_eq currEvent sampleEvent h (h.leaf _ _ hleaf)
  unfold Conserved
  rw [hleaf]
  simp only
  rw [hcatchup, ← hpending, hsum]
  push_cast
  rw [add_sub_cancel_left, Nat.cast_inj]

/-- A call that takes the pending samples and attributes none of them keeps the balance
when there was no weight to take. -/
theorem conserved_iff_of_dropped {t : WitchLogicType} (h : WellFormed σ)
    (hleaf : σ.eventToContextLeafMap.lookup sampleEvent.eventId = some leafContext) :
    Conserved t sampleEvent σ ((takePending currEvent sampleEvent leafContext σ).2
        |>.removeEventContextMapEntry sampleEvent) ↔
      pendingBytes σ currEvent sampleEvent leafContext = 0 := by
  obtain ⟨table, heq, -⟩ := takePending_fields currEvent sampleEvent σ leafContext
  have hattr : ((takePending currEvent sampleEvent leafContext σ).2
      |>.removeEventContextMapEntry sampleEvent).propAttrTable
      = (takePending currEvent sampleEvent leafContext σ).2.propAttrTable := rfl
  have hsum : totalSum t ((takePending currEvent sampleEvent leafContext σ).2
      |>.removeEventContextMapEntry sampleEvent) = totalSum t σ + 0 := by
    rw [heq]
    rfl
  rw [conserved_iff_of_taken currEvent sampleEvent h hleaf hattr hsum, eq_comm]

/-- A call that records what it found attributes all it took. -/
theorem conserved_of_recorded (h : WellFormed σ) (F : FloatUnit) (b : BuildFlags)
    (t : WitchLogicType) (wpt : WPTriggerInfo)
    (hleaf : σ.eventToContextLeafMap.lookup sampleEvent.eventId = some leafContext) :
    Conserved t sampleEvent σ (finish sampleEvent
      ((Logic.ofType b t).record F
        ((Logic.ofType b t).finding F currEvent sampleEvent wpt) currEvent leafContext
        (pendingBytes σ currEvent sampleEvent leafContext)
        (takePending currEvent sampleEvent leafContext σ).2)) := by
  obtain ⟨table, heq, -⟩ := takePending_fields currEvent sampleEvent σ leafContext
  obtain ⟨extra, hrec, -⟩ := h.record_taken hleaf F (Logic.ofType b t)
    ((Logic.ofType b t).finding F currEvent sampleEvent wpt)
    (pendingBytes σ currEvent sampleEvent leafContext)
  have hsum := totalSum_update (finding_metric_mem F b t currEvent sampleEvent wpt) hrec.total
  -- taking the samples touched no total
  rw [heq] at hsum
  refine (conserved_iff_of_taken currEvent sampleEvent h hleaf hrec.attr ?_).mpr rfl
  rw [heq]
  exact hsum

end Balance

/-- One call, in a well-formed state. -/
theorem Called.balance_iff {F : FloatUnit} {b : BuildFlags} {t : WitchLogicType}
    {currEvent sampleEvent : Event} {wpt : WPTriggerInfo} {σ σ' : WitchLogic}
    {a : WPTriggerAction} (h : WellFormed σ)
    (hc : Called F (Logic.ofType b t) currEvent sampleEvent wpt σ a σ') :
    Conserved t sampleEvent σ σ' ↔ ¬ Loses (Logic.ofType b t) currEvent sampleEvent wpt σ := by
  cases hc with
  | ignored hig =>
    exact ⟨fun _ hl => hl.proceeds.watched hig, fun _ => conserved_of_idle sampleEvent rfl rfl⟩
  | mismatched _ hip =>
    exact ⟨fun _ hl => hl.proceeds.sameIP hip, fun _ => conserved_of_idle sampleEvent rfl rfl⟩
  | rejected hrej =>
    exact ⟨fun _ hl => hl.proceeds.known hrej, fun _ => conserved_of_idle sampleEvent rfl rfl⟩
  | forgotten _ hnone =>
    refine ⟨fun _ hl => ?_, fun _ => conserved_of_idle sampleEvent rfl rfl⟩
    obtain ⟨leafContext, n, hleaf, -⟩ := hl.pending
    rw [hnone] at hleaf
    cases hleaf
  | refused leafContext _ _ _ hspy =>
    refine ⟨fun _ hl => ?_, fun _ => conserved_of_idle sampleEvent rfl rfl⟩
    -- a spy tests the overlap before it takes anything
    rw [hl.takesFirst] at hspy
    cases hspy
  | lost leafContext hp hleaf hno hwaste =>
    -- DeadStore and FalseSharing have taken the samples when the overlap fails
    obtain ⟨n, hn⟩ := Option.isSome_iff_exists.mp (AList.lookup_isSome.mpr (h.leaf _ _ hleaf))
    rw [conserved_iff_of_dropped currEvent sampleEvent h hleaf,
      pendingBytes_eq_zero_iff currEvent sampleEvent hn, not_iff_not]
    constructor
    · rintro ⟨hlt, hlen⟩
      exact ⟨hwaste, hp, hno, ⟨leafContext, n, hleaf, hn, hlt⟩, hlen⟩
    · intro hl
      obtain ⟨leafContext', n', hleaf', hn', hlt⟩ := hl.pending
      obtain rfl := Option.some.inj (hleaf.symm.trans hleaf')
      obtain rfl := Option.some.inj (hn.symm.trans hn')
      exact ⟨hlt, hl.length⟩
  | empty leafContext hp hleaf hyes hspy hinc =>
    refine ⟨fun _ hl => ?_,
      fun _ => (conserved_iff_of_dropped currEvent sampleEvent h hleaf).mpr hinc⟩
    rw [hl.takesFirst] at hspy
    cases hspy
  | recorded leafContext hp hleaf hyes hinc =>
    refine ⟨fun _ hl => ?_, fun _ => conserved_of_recorded currEvent sampleEvent h F b t wpt hleaf⟩
    rw [hl.noOverlap] at hyes
    cases hyes

/-- **In every reachable state a call keeps the balance exactly when it does not lose
pending samples.** -/
theorem conserved_iff (F : FloatUnit) (b : BuildFlags) (t : WitchLogicType) (ops : List LogicOp)
    (currEvent sampleEvent : Event) (wpt : WPTriggerInfo) :
    let σ := runLogic F (Logic.ofType b t) .new ops
    Conserved t sampleEvent σ
        ((Logic.ofType b t).witchOnWPCallback F currEvent sampleEvent wpt σ).2 ↔
      ¬ Loses (Logic.ofType b t) currEvent sampleEvent wpt σ :=
  Called.balance_iff (wellFormed_of_run F _ ops) (witchOnWPCallback_called F _ _ _ _ _)

/-- **DeadStore loses the weight of a sample.** The second access is a store to the
sampled address whose length is not known. -/
theorem deadStore_loses :
    let l := Logic.ofType .instOnly .deadSpy
    let sampleEvent := (Event.storeAt 1 0x1000).withStack [0x40]
    let σ := runLogic .bytewise l .new [.sample sampleEvent]
    let currEvent := { Event.storeAt 2 0x1000 with accessLength := 0 }
    ¬ Conserved .deadSpy sampleEvent σ
      (l.witchOnWPCallback .bytewise currEvent sampleEvent ⟨0x1000, 8⟩ σ).2 := by
  decide +kernel

end Kognizance
