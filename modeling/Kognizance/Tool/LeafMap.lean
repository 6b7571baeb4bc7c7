import Mathlib.Data.Finset.Card
import Kognizance.Watchpoint.EventLife
import Kognizance.Tool.Handler

/-!
# The contexts of the armed samples

`eventToContextLeafMap` remembers the context of every sample from
`Witch_OnSample_Callback` on, before it is known whether the sample will be armed.
Nothing takes the entry back when the subscription is refused or fails, nothing when an
active slot is given up for another sample, and a callback that finds two different
instructions, or is not even asked, disables the slot and leaves the entry.

* `leafMap_tracked_of_run`: in every run whose steps avoid these (`Tracks`), every entry
  belongs to an active slot, and a callback that disables a slot has removed its entry.
* `mismatch_leaves_entry`: the entry of a sample whose slot was disabled.
-/

namespace Kognizance

open Process WitchLogic

/-- An active slot holds a sample with the id. -/
def ArmedId (S : Setup) (w : World WitchLogic) (id : ℤ) : Prop :=
  ∃ t i e, ActiveHolds S.tool w t i e ∧ e.eventId = id

/-- The map holds armed samples only, so it has at most as many entries as there are
slots. -/
structure LeafMapTracked (S : Setup) (w : World WitchLogic) : Prop where
  armed : ∀ id ∈ w.logic.eventToContextLeafMap, ArmedId S w id
  bound : ∀ threads : Finset ℕ, (∀ t, w.tData t ≠ none → t ∈ threads) →
    w.logic.eventToContextLeafMap.keys.length ≤ threads.card * S.cfg.maxWP

/-- After a callback returned `WP_DISABLE` for a sample, the sample's entry is gone. -/
def Forgets (S : Setup) (w : World WitchLogic) : ToolOp → Prop
  | .trigger tid fd event ans => ∀ td i e w' ret, w.tData tid = some td →
      (findFired S.tool tid td.watchPointArray fd event (List.range S.cfg.maxWP) []).2
        = .ok (some (i, e)) →
      (decideAction S.tool w.logic (td.watchPointArray i) e event ans.fixIP).1 = .disable →
      (decideAction S.tool w.logic (td.watchPointArray i) e event ans.fixIP).2.2 = true →
      onWatchPoint S.tool w tid fd event ans = .running ret w' →
      e.eventId ∉ w'.logic.eventToContextLeafMap
  | _ => True

/-! ### The condition -/

/-- No active slot of the thread holds a sample of the map. -/
def HoldsNone (S : Setup) (w : World WitchLogic) (tid : ℕ) : Prop :=
  ∀ i e, ActiveHolds S.tool w tid i e → e.eventId ∉ w.logic.eventToContextLeafMap

/-- The calls made to arm the slot succeed. -/
def ArmsWell (cfg : WPConfig) (wpi : WPRegisterInfo) (p : Platform) (ans : ArmAnswers) : Prop :=
  if cfg.isWPModifyEnabled = true ∧ wpi.fileHandle ≠ -1 then
    p.getDevice wpi.threadId wpi.fileHandle ≠ none ∧
      (ans.update.agentOk || ans.update.ioctlOk) = true
  else ans.register.perfEventOpen ≠ -1 ∧ ans.register.mmapOk = true ∧
    ans.register.sigactionOk = true ∧ ans.register.setOwnOk = true

/-- The sample's request is valid and overlaps no active slot, a slot is found for it that
holds no other sample of the map, and it can be armed. -/
structure FindsSlot (S : Setup) (w : World WitchLogic) (tid : ℕ) (event : Event)
    (ans : SubscribeAnswers) (td : WPThreadData) (i : ℕ) : Prop where
  table : w.tData tid = some td
  valid : (S.request event).watchType ≠ .inst →
    validateWPData (S.request event).va (S.request event).watchLength = true
  free : isOveralpped S.cfg.maxWP (some td) (S.request event).va (S.request event).watchLength
    = false
  available : (victimOf S.tool td ans).kind ≠ .noneAvailable
  victim : (victimOf S.tool td ans).location = some i
  other : ∀ e, ActiveHolds S.tool w tid i e → e.eventId ∈ w.logic.eventToContextLeafMap →
    e.eventId = event.eventId
  arms : ArmsWell S.cfg (td.watchPointArray i) w.platform ans.arm

/-- The logic is asked about the trigger, and keeps the watchpoint or finds that its build
accepts the two instructions. -/
structure AsksLogic (S : Setup) (event sample : Event) (ans : TriggerAnswers) : Prop where
  nonzero : event.h_ip_addr ≠ 0
  fixed : (tryFixIP ans.fixIP event).1 = true
  sameIP : S.logic.Ignores (tryFixIP ans.fixIP event).2 ∨
    ¬ S.logic.Mismatched (tryFixIP ans.fixIP event).2 sample

/-- A thread whose table is replaced or freed holds no sample of the map, a sample that
the logic takes finds a slot, and the logic is asked about the trigger of a sample of the
map. -/
def Tracks (S : Setup) (w : World WitchLogic) : ToolOp → Prop
  | .threadInit tid _ => HoldsNone S w tid
  | .sample tid event ans => ∀ event', PassedOn S event ans event' →
      event'.eventContext_agent ≠ [] → ∃ td i, FindsSlot S w tid event' ans.subscribe td i
  | .trigger tid fd event ans => ∀ td i e, w.tData tid = some td →
      (findFired S.tool tid td.watchPointArray fd event (List.range S.cfg.maxWP) []).2
        = .ok (some (i, e)) →
      e.eventId ∈ w.logic.eventToContextLeafMap → AsksLogic S event e ans
  | .threadTerminate tid _ => HoldsNone S w tid
  | .devices _ => True

/-! ### No more entries than slots -/

section

variable {S : Setup} {w w' : World WitchLogic} {tid : ℕ}

/-- A slot holds one event. -/
theorem ActiveHolds.unique {t i : ℕ} {e e' : Event} (h : ActiveHolds S.tool w t i e)
    (h' : ActiveHolds S.tool w t i e') : e = e' := by
  obtain ⟨td, htd, -, -, he⟩ := h
  obtain ⟨td', htd', -, -, he'⟩ := h'
  obtain rfl := Option.some.inj (htd.symm.trans htd')
  exact Option.some.inj (he.symm.trans he')

/-- Entries of armed samples are no more than the slots. -/
theorem length_le_of_armed (h : ∀ id ∈ w.logic.eventToContextLeafMap, ArmedId S w id)
    {threads : Finset ℕ} (hthreads : ∀ t, w.tData t ≠ none → t ∈ threads) :
    w.logic.eventToContextLeafMap.keys.length ≤ threads.card * S.cfg.maxWP := by
  -- every entry is sent to the slot that holds its sample
  choose! t i e hholds hid using h
  have hslots : (threads ×ˢ Finset.range S.cfg.maxWP).card = threads.card * S.cfg.maxWP := by
    rw [Finset.card_product, Finset.card_range]
  rw [← List.toFinset_card_of_nodup w.logic.eventToContextLeafMap.keys_nodup, ← hslots]
  refine Finset.card_le_card_of_injOn (fun id => (t id, i id)) ?_ ?_
  · -- the slot of an entry belongs to a thread with a table
    intro id hmem
    obtain ⟨td, htd, hi, -⟩ := hholds id (List.mem_toFinset.mp hmem)
    refine Finset.mem_product.mpr ⟨hthreads _ ?_, Finset.mem_range.mpr hi⟩
    rw [htd]
    exact Option.some_ne_none td
  · -- and it is the slot of no other entry
    intro id hmem id' hmem' hslot
    obtain ⟨ht, hi⟩ := Prod.mk.inj hslot
    have hheld := hholds id (List.mem_toFinset.mp hmem)
    have hheld' := hholds id' (List.mem_toFinset.mp hmem')
    rw [← ht, ← hi] at hheld'
    rw [← hid id (List.mem_toFinset.mp hmem), ← hid id' (List.mem_toFinset.mp hmem'),
      hheld.unique hheld']

/-! ### Slots that a call leaves alone -/

/-- A call on behalf of another thread leaves a slot alone. -/
theorem ActiveHolds.of_ne {t i : ℕ} {e : Event} (h : ActiveHolds S.tool w t i e)
    {o : Option WPThreadData} (htData : w'.tData = Function.update w.tData tid o) (ht : t ≠ tid) :
    ActiveHolds S.tool w' t i e := by
  obtain ⟨td, htd, hi, hact, he⟩ := h
  refine ⟨td, ?_, hi, hact, he⟩
  rw [htData, Function.update_of_ne ht]
  exact htd

/-- So does a call on behalf of its thread that does not touch it. -/
theorem ActiveHolds.of_eq {i : ℕ} {e : Event} {td td' : WPThreadData}
    (h : ActiveHolds S.tool w tid i e) (htd : w.tData tid = some td)
    (htData : w'.tData = Function.update w.tData tid (some td'))
    (hsame : (td.watchPointArray i).Alike (td'.watchPointArray i)) :
    ActiveHolds S.tool w' tid i e := by
  obtain ⟨td₀, htd₀, hi, hact, he⟩ := h
  obtain rfl := Option.some.inj (htd₀.symm.trans htd)
  refine ⟨td', ?_, hi, ?_, ?_⟩
  · rw [htData, Function.update_self]
  · rw [hsame.isActive_eq]
    exact hact
  · rw [(WPRegisterInfo.Kept.of_alike hsame).1]
    exact he

/-- The switch over the action touches the slot that fired only. -/
theorem applyAction_other {cfg : WPConfig} {a : WPTriggerAction} {i j : ℕ}
    {td td' : WPThreadData} {p p' : Platform} {ans : ℕ → RemoveAnswers}
    (hact : (td.watchPointArray i).isActive = true) (ha : a ≠ .disableAll)
    (hj : a = .disable → j ≠ i) (h : applyAction cfg tid a i td p ans = .ok (td', p')) :
    td'.watchPointArray j = td.watchPointArray j := by
  unfold applyAction at h
  cases a with
  | disable =>
    simp only at h
    -- `DisArm` changes the slot that fired
    split at h
    · cases h
    obtain ⟨rfl, -⟩ := Prod.mk.inj (Except.ok.inj h)
    exact Function.update_of_ne (hj rfl) _ _
  | disableAll => exact absurd rfl ha
  | alreadyDisabled =>
    -- the slot is active, so the assertion of `WP_ALREADY_DISABLED` fails
    simp only [hact, if_true] at h
    cases h
  | retain =>
    simp only [hact, if_true] at h
    obtain ⟨rfl, -⟩ := Prod.mk.inj (Except.ok.inj h)
    rfl

/-! ### What a trigger does to the map -/

/-- A callback keeps the watchpoint and the map, finds two different instructions and
keeps the map, or removes the entry of the sample. -/
theorem Called.leafMap {F : FloatUnit} {l : Logic} {currEvent sampleEvent : Event}
    {wpt : WPTriggerInfo} {σ σ' : WitchLogic} {a : WPTriggerAction} (hwf : WellFormed σ)
    (hc : Called F l currEvent sampleEvent wpt σ a σ') :
    (a = .retain ∧ σ'.eventToContextLeafMap = σ.eventToContextLeafMap) ∨
    (a = .disable ∧ σ'.eventToContextLeafMap = σ.eventToContextLeafMap ∧
      ¬ l.Ignores currEvent ∧ l.Mismatched currEvent sampleEvent) ∨
    (a = .disable ∧
      σ'.eventToContextLeafMap = σ.eventToContextLeafMap.erase sampleEvent.eventId) := by
  cases hc with
  | ignored => exact Or.inl ⟨rfl, rfl⟩
  | mismatched hwatched hmis => exact Or.inr (Or.inl ⟨rfl, rfl, hwatched, hmis⟩)
  | rejected | forgotten | refused => exact Or.inr (Or.inr ⟨rfl, rfl⟩)
  | lost leafContext | empty leafContext =>
    obtain ⟨table, heq, -⟩ := takePending_fields currEvent sampleEvent σ leafContext
    rw [heq]
    exact Or.inr (Or.inr ⟨rfl, rfl⟩)
  | recorded leafContext hp hleaf =>
    -- the tree grows before the entry goes, and leaves the map alone
    obtain ⟨table, heq, -⟩ := takePending_fields currEvent sampleEvent σ leafContext
    obtain ⟨extra, hrec, -⟩ := hwf.record_taken hleaf F l (l.finding F currEvent sampleEvent wpt)
      (pendingBytes σ currEvent sampleEvent leafContext)
    have hmap := hrec.leafMap
    rw [heq] at hmap ⊢
    refine Or.inr (Or.inr ⟨rfl, ?_⟩)
    unfold finish removeEventContextMapEntry
    rw [hmap]

/-- What becomes of the map when the slot of `sample` has fired, if the logic is asked
about samples of the map. -/
theorem decideAction_leafMap {wpi : WPRegisterInfo} {sample event : Event} {ans : TriggerAnswers}
    {d : WPTriggerAction × WitchLogic × Bool} (hwf : WellFormed w.logic)
    (hasks : sample.eventId ∈ w.logic.eventToContextLeafMap → AsksLogic S event sample ans)
    (hd : decideAction S.tool w.logic wpi sample event ans.fixIP = d) :
    (d.1 = .retain ∧ d.2.1.eventToContextLeafMap = w.logic.eventToContextLeafMap) ∨
    (d.1 = .disable ∧ sample.eventId ∉ d.2.1.eventToContextLeafMap ∧
      ∀ id ∈ d.2.1.eventToContextLeafMap, id ∈ w.logic.eventToContextLeafMap) := by
  rcases decideAction_cases S.tool w.logic wpi sample event ans.fixIP with
    ⟨hunasked, hcase⟩ | ⟨-, -, hcase⟩
  · -- nobody is asked, so the sample has no entry
    obtain rfl := hd.symm.trans hcase
    have hno : sample.eventId ∉ w.logic.eventToContextLeafMap :=
      fun hmem => hunasked ⟨(hasks hmem).nonzero, (hasks hmem).fixed⟩
    exact Or.inr ⟨rfl, hno, fun _ hid => hid⟩
  · obtain rfl := hd.symm.trans hcase
    have hc := witchOnWPCallback_called S.float S.logic (tryFixIP ans.fixIP event).2 sample
      ⟨wpi.va, wpi.wpLength⟩ w.logic
    rcases hc.leafMap hwf with ⟨ha, hmap⟩ | ⟨ha, hmap, hwatched, hmis⟩ | ⟨ha, hmap⟩
    · exact Or.inl ⟨ha, hmap⟩
    · -- a mismatch keeps the map, so a sample with an entry must not come to it
      have hno : sample.eventId ∉ w.logic.eventToContextLeafMap :=
        fun hmem => absurd hmis ((hasks hmem).sameIP.resolve_left hwatched)
      refine Or.inr ⟨ha, ?_, fun id hid => ?_⟩
      · rw [← hmap] at hno
        exact hno
      · rw [← hmap]
        exact hid
    · refine Or.inr ⟨ha, fun hmem => ?_, fun id hid => ?_⟩
      · have hmem' : sample.eventId ∈ w.logic.eventToContextLeafMap.erase sample.eventId := by
          rw [← hmap]
          exact hmem
        exact (AList.mem_erase.mp hmem').1 rfl
      · have hid' : id ∈ w.logic.eventToContextLeafMap.erase sample.eventId := by
          rw [← hmap]
          exact hid
        exact (AList.mem_erase.mp hid').2

/-! ### What a sample does -/

/-- A slot that can be armed is. -/
theorem Armed.reachedEnd_of_armsWell {cfg : WPConfig} {wpi : WPRegisterInfo} {r : Request}
    {p : Platform} {ans : ArmAnswers} {ok : Bool} {c : Created} (harms : ArmsWell cfg wpi p ans)
    (h : Armed cfg tid wpi r p ans ok c) : c.reachedEnd = true := by
  unfold ArmsWell at harms
  cases h with
  | moved => rfl
  | missing hmod hfd hdev =>
    rw [if_pos ⟨hmod, hfd⟩] at harms
    exact absurd hdev harms.1
  | notMoved dev hmod hfd hdev hupd =>
    rw [if_pos ⟨hmod, hfd⟩, hupd] at harms
    exact absurd harms.2 Bool.false_ne_true
  | opened => rfl
  | notOpened wpi' p' p'' dev hmod hfree hreg =>
    -- `registerDevice` fails only where one of the calls did
    rw [if_neg hmod] at harms
    obtain ⟨hfd, hmmap, hsigaction, hsetOwn⟩ := harms
    unfold Platform.registerDevice Platform.openDevice at hreg
    simp only [hfd, hmmap, hsigaction, hsetOwn, if_false, Bool.not_true, Bool.false_eq_true] at hreg
    split_ifs at hreg
    have hret := (Prod.mk.inj (Except.ok.inj hreg)).1
    cases hret

/-- The logic's state is well formed, and the entries of the map are armed. -/
structure LeafInv (S : Setup) (w : World WitchLogic) : Prop where
  logic : WellFormed w.logic
  armed : ∀ id ∈ w.logic.eventToContextLeafMap, ArmedId S w id

/-- A table that holds no sample of the map may go. -/
theorem LeafInv.replaceTable (h : LeafInv S w) (hnone : HoldsNone S w tid)
    (hlogic : w'.logic = w.logic) {o : Option WPThreadData}
    (htData : w'.tData = Function.update w.tData tid o) : LeafInv S w' where
  logic := by
    rw [hlogic]
    exact h.logic
  armed := by
    rw [hlogic]
    intro id hid
    obtain ⟨t, i, e, hholds, rfl⟩ := h.armed id hid
    have ht : t ≠ tid := by
      rintro rfl
      exact hnone i e hholds hid
    exact ⟨t, i, e, hholds.of_ne htData ht, rfl⟩

/-- The slot a sample finds holds it afterwards, and no other slot changes what it holds. -/
theorem FindsSlot.held {event : Event} {ans : SubscribeAnswers} {td : WPThreadData} {i : ℕ}
    {σ : WitchLogic} {ret : ℤ} (h : FindsSlot S w tid event ans td i)
    (hsub : wpSubscribe S.tool { w with logic := σ } tid (S.request event) ans
      = .running ret w') :
    w'.logic = σ ∧ ActiveHolds S.tool w' tid i event ∧
      ∃ td', w'.tData = Function.update w.tData tid (some td') ∧
        ∀ j, j ≠ i → (td.watchPointArray j).Alike (td'.watchPointArray j) := by
  obtain ⟨ok, c, harm, hlogic, htData⟩ := wpSubscribe_of_victim (T := S.tool)
    (w := { w with logic := σ }) h.table h.valid h.free h.available h.victim hsub
  have halike := victimOf_alike S.tool td ans
  have harms : ArmsWell S.cfg ((victimOf S.tool td ans).slots i) w.platform ans.arm := by
    rw [halike i]
    exact h.arms
  -- the slot is armed for this sample
  have hend := harm.reachedEnd_of_armsWell harms
  obtain ⟨hactive, hevent⟩ : c.wpi.isActive = true ∧ c.wpi.sampledEvent = some event := by
    rcases harm.slot with ⟨-, hactive, -, -, -, -, hevent⟩ | ⟨hno, -⟩
    · exact ⟨hactive, hevent event (S.request_sampleEvent event)⟩
    · rw [hend] at hno
      cases hno
  refine ⟨hlogic, ?_, _, htData, fun j hj => ?_⟩
  · have htable := congrFun htData tid
    rw [Function.update_self] at htable
    refine ⟨_, htable, getVictim_lt h.victim, ?_, ?_⟩
    · simp only [Function.update_self]
      exact hactive
    · simp only [Function.update_self]
      exact hevent
  · simp only [Function.update_of_ne hj]
    exact halike j

/-- **A sample** that finds a slot is armed, and takes no slot from another entry. -/
theorem LeafInv.sample {event : Event} {ans : SampleAnswers} (h : LeafInv S w)
    (htracks : Tracks S w (.sample tid event ans)) (hs : SampleHandled S w tid event ans w') :
    LeafInv S w' := by
  cases hs with
  | dropped _ htData hlogic =>
    refine ⟨?_, ?_⟩
    · rw [hlogic]
      exact h.logic
    · rw [hlogic]
      intro id hid
      obtain ⟨t, i, e, ⟨td, htd, hrest⟩, hide⟩ := h.armed id hid
      exact ⟨t, i, e, ⟨td, by rw [htData]; exact htd, hrest⟩, hide⟩
  | taken event' σ ret _ hpassed hsampled hsub =>
    have hwf := h.logic.sampled hsampled
    obtain ⟨hne, leafContext, hmap⟩ : event'.eventContext_agent ≠ [] ∧ ∃ leafContext,
        σ.eventToContextLeafMap
          = w.logic.eventToContextLeafMap.insert event'.eventId leafContext := by
      cases hsampled with
      | counted σ₁ leafContext n hne => exact ⟨hne, leafContext, rfl⟩
    -- the entry the logic has made gets the slot that the library finds
    obtain ⟨td, i, hfind⟩ := htracks event' hpassed hne
    obtain ⟨hlogic, hnew, td', htData, hothers⟩ := hfind.held hsub
    refine ⟨hlogic ▸ hwf, ?_⟩
    rw [hlogic, hmap]
    intro id hid
    rw [AList.mem_insert] at hid
    rcases hid with rfl | hid
    · exact ⟨tid, i, event', hnew, rfl⟩
    · obtain ⟨t, j, e, hholds, rfl⟩ := h.armed id hid
      by_cases ht : t = tid
      · subst ht
        by_cases hj : j = i
        · -- an entry of the victim is the one the sample has just replaced
          subst hj
          exact ⟨t, j, event', hnew, (hfind.other e hholds hid).symm⟩
        · exact ⟨t, j, e, hholds.of_eq hfind.table htData (hothers j hj), rfl⟩
      · exact ⟨t, j, e, hholds.of_ne htData ht, rfl⟩

/-! ### What a trigger does -/

/-- Deciding about a trigger keeps the logic well formed. -/
theorem decideAction_wellFormed (h : WellFormed w.logic) (wpi : WPRegisterInfo)
    (sample event : Event) (ans : TriggerAnswers) :
    WellFormed (decideAction S.tool w.logic wpi sample event ans.fixIP).2.1 := by
  rcases decideAction_cases S.tool w.logic wpi sample event ans.fixIP with
    ⟨-, hcase⟩ | ⟨-, -, hcase⟩
  · rw [hcase]
    exact h
  · rw [hcase]
    exact h.called (witchOnWPCallback_called S.float S.logic _ sample _ w.logic)

/-- **A trigger** that the logic is asked about. -/
theorem LeafInv.trigger {fd : ℤ} {event : Event} {ans : TriggerAnswers} (h : LeafInv S w)
    (htracks : Tracks S w (.trigger tid fd event ans))
    (hh : Handled S.tool w tid fd event ans w') : LeafInv S w' := by
  cases hh with
  | noTable => exact ⟨h.logic, h.armed⟩
  | fired td td' i e p' seen htd hfire hseen hact =>
    have hfired : ActiveHolds S.tool w tid i e := ⟨td, htd, hfire.lt, hfire.active, hfire.holds⟩
    have hasks := htracks td i e htd (congrArg Prod.snd hseen)
    have hmap := decideAction_leafMap h.logic hasks
      (rfl : decideAction S.tool w.logic (td.watchPointArray i) e event ans.fixIP = _)
    -- so the other slots keep what they hold
    have hall : (decideAction S.tool w.logic (td.watchPointArray i) e event ans.fixIP).1
        ≠ .disableAll := by
      rcases hmap with ⟨ha, -⟩ | ⟨ha, -⟩
      · rw [ha]
        exact nofun
      · rw [ha]
        exact nofun
    refine ⟨decideAction_wellFormed h.logic _ e event ans, fun id hid => ?_⟩
    -- the entry is an old one, and its slot is another one unless the slot that fired is kept
    obtain ⟨hold, hkept⟩ : id ∈ w.logic.eventToContextLeafMap ∧
        ((decideAction S.tool w.logic (td.watchPointArray i) e event ans.fixIP).1 = .disable →
          id ≠ e.eventId) := by
      rcases hmap with ⟨ha, hsame⟩ | ⟨ha, hgone, hsub⟩
      · refine ⟨?_, fun hdis => ?_⟩
        · rw [← hsame]
          exact hid
        · rw [ha] at hdis
          cases hdis
      · refine ⟨hsub id hid, fun _ => ?_⟩
        rintro rfl
        exact hgone hid
    obtain ⟨t, j, e', hholds, rfl⟩ := h.armed id hold
    by_cases ht : t = tid
    · subst ht
      have hj : (decideAction S.tool w.logic (td.watchPointArray i) e event ans.fixIP).1
          = .disable → j ≠ i := by
        rintro hdis rfl
        exact hkept hdis (congrArg Event.eventId (hholds.unique hfired))
      refine ⟨t, j, e', hholds.of_eq htd rfl ?_, rfl⟩
      rw [applyAction_other hfire.active hall hj hact]
      exact .refl _
    · exact ⟨t, j, e', hholds.of_ne rfl ht, rfl⟩

/-- A trigger whose callback returns `WP_DISABLE` leaves no entry of its sample. -/
theorem LeafInv.forgets {op : ToolOp} (h : LeafInv S w) (htracks : Tracks S w op) :
    Forgets S w op := by
  cases op with
  | threadInit => trivial
  | sample => trivial
  | threadTerminate => trivial
  | devices => trivial
  | trigger tid fd event ans =>
    intro td i e w' ret htd hfound hdisable hasked hstep
    have hh := onWatchPoint_cases hstep
    cases hh with
    | noTable hnone =>
      rw [hnone] at htd
      cases htd
    | fired td₁ td' i₁ e₁ p' seen htd₁ hfire hseen hact =>
      obtain rfl := Option.some.inj (htd.symm.trans htd₁)
      -- the walk finds one slot, the one named in the statement
      have hsame := (congrArg Prod.snd hseen).symm.trans hfound
      obtain ⟨rfl, rfl⟩ := Prod.mk.inj (Option.some.inj (Except.ok.inj hsame))
      have hasks := htracks td i₁ e₁ htd (congrArg Prod.snd hseen)
      rcases decideAction_leafMap h.logic hasks rfl with ⟨ha, -⟩ | ⟨-, hgone, -⟩
      · rw [hdisable] at ha
        cases ha
      · exact hgone

end

/-! ### Every run -/

/-- **One call keeps the entries armed.** -/
theorem LeafInv.step {S : Setup} {w w' : World WitchLogic} {op : ToolOp} {ret : ℤ}
    (h : LeafInv S w) (htracks : Tracks S w op) (hs : toolStep S w op = .running ret w') :
    LeafInv S w' := by
  cases op with
  | threadInit tid ans =>
    rcases wpThreadInit_cases hs with rfl | rfl
    · exact h
    · exact h.replaceTable htracks rfl rfl
  | sample tid event ans => exact h.sample htracks (toolPEBSEventHandler_cases h.logic.tree hs)
  | trigger tid fd event ans => exact h.trigger htracks (onWatchPoint_cases hs)
  | threadTerminate tid ans =>
    obtain ⟨td, slots, p, -, -, rfl⟩ := wpThreadTerminate_cases hs
    exact h.replaceTable htracks rfl rfl
  | devices p =>
    obtain ⟨-, rfl⟩ := Outcome.running.inj hs
    exact ⟨h.logic, h.armed⟩

/-- **The map holds the armed samples, along every run** whose samples find a slot and
whose triggers reach the logic: in the state it ends in, and a callback that returns
`WP_DISABLE` has removed its sample. -/
theorem leafMap_tracked_of_run (S : Setup) (p : Platform) (ops : List ToolOp)
    (w : World WitchLogic) (hops : Along (toolStep S) (Tracks S) (World.fresh p .new) ops)
    (hrun : exec (toolStep S) (World.fresh p .new) ops = .running () w) :
    LeafMapTracked S w ∧ Along (toolStep S) (Forgets S) (World.fresh p .new) ops := by
  have hfresh : LeafInv S (World.fresh p .new) :=
    ⟨wellFormed_new, fun id hid => absurd hid (AList.notMem_empty id)⟩
  have hstep : ∀ w op ret w', LeafInv S w → Tracks S w op →
      toolStep S w op = .running ret w' → LeafInv S w' :=
    fun _ _ _ _ h htracks hs => h.step htracks hs
  refine ⟨?_, hops.of_invariant hstep (fun _ _ h htracks => h.forgets htracks) hfresh⟩
  have hinv : LeafInv S w := exec_invariant hstep hfresh hops hrun
  exact ⟨hinv.armed, fun _ hthreads => length_le_of_armed hinv.armed hthreads⟩

/-! ### Two runs -/

/-- A tool with one slot. -/
def Setup.oneSlot (logicType : WitchLogicType) : Setup where
  flags := .instOnly
  avoid := ⟨false, false, false⟩
  logicType := logicType
  cfg := ⟨true, .auto, 1⟩
  float := .bytewise

/-- A store to `0x1000` by the kernel, in the context `0x40`, at the given instruction. -/
def kernelStore (self : ℕ) (fixedIP : UInt64) : Event :=
  { (Event.storeAt self 0x1000).withStack [0x40] with
    h_ip_addr := 0xffffffff81200000
    fixedIP := fixedIP }

/-- Nothing goes wrong while a sample is handled. -/
def SampleAnswers.success : SampleAnswers where
  fixIP := fun event => (true, event)
  subscribe := .success 3

/-- A sample, and a trigger by the given instruction. -/
def sampleAndTrigger (fixedIP : UInt64) : List ToolOp :=
  [.threadInit 1 (.success none), .sample 1 (kernelStore 1 0x40) .success,
    .trigger 1 3 (kernelStore 2 fixedIP) .success]

/-- The state the run ends in. -/
def triggeredEnd (logicType : WitchLogicType) (fixedIP : UInt64) : World WitchLogic :=
  (exec (toolStep (.oneSlot logicType)) (World.fresh .idle .new) (sampleAndTrigger fixedIP)).state

theorem leafMap_tracked_of_sampleAndTrigger :
    LeafMapTracked (.oneSlot .redSpy) (triggeredEnd .redSpy 0x40) := by
  refine (leafMap_tracked_of_run (.oneSlot .redSpy) .idle (sampleAndTrigger 0x40)
    (triggeredEnd .redSpy 0x40) (.cons ?_ rfl (.cons ?_ rfl (.cons ?_ rfl trivial))) rfl).1
  · -- there is no table yet
    rintro i e ⟨td, htd, -⟩
    cases htd
  · intro event' hpassed _
    obtain rfl := (Prod.mk.inj hpassed.fixed).2
    refine ⟨_, 0, rfl, fun _ => rfl, rfl, nofun, rfl, ?_, ?_⟩
    · rintro e - hmem
      exact absurd hmem (AList.notMem_empty e.eventId)
    · exact ⟨nofun, rfl, rfl, rfl⟩
  · intro td i e htd hfound _
    obtain rfl := Option.some.inj htd
    obtain ⟨-, rfl⟩ := Prod.mk.inj (Option.some.inj (Except.ok.inj hfound))
    exact ⟨nofun, rfl, Or.inr fun hmis => hmis.2 rfl⟩

/-- **A trigger by another instruction leaves the entry.** The slot is disabled, and
neither is the entry's sample armed nor is the entry gone. -/
theorem mismatch_leaves_entry :
    ¬ LeafMapTracked (.oneSlot .redSpy) (triggeredEnd .redSpy 0x50) := by
  intro h
  have hentry : (1 : ℤ) ∈ (triggeredEnd .redSpy 0x50).logic.eventToContextLeafMap := by
    decide +kernel
  obtain ⟨t, i, e, ⟨td, htd, hi, hact, -⟩, -⟩ := h.armed 1 hentry
  by_cases ht : t = 1
  · subst ht
    obtain rfl : i = 0 := Nat.lt_one_iff.mp hi
    obtain rfl := Option.some.inj htd
    cases hact
  · -- the run has made no table for another thread
    obtain ⟨a, b, c, d, htables⟩ : ∃ a b c d, (triggeredEnd .redSpy 0x50).tData
        = Function.update (Function.update (Function.update (Function.update (fun _ => none)
          1 a) 1 b) 1 c) 1 d := ⟨_, _, _, _, rfl⟩
    rw [htables, Function.update_of_ne ht, Function.update_of_ne ht, Function.update_of_ne ht,
      Function.update_of_ne ht] at htd
    cases htd

end Kognizance
