import Kognizance.Watchpoint.Steps

/-!
# The slot table

In every state a run of the library reaches, the active slots of a thread watch
disjoint ranges, and each of them is what its last subscription asked for
(`slotTable_of_run`). The run may create threads, subscribe, deliver triggers and
end threads in any order, under either way of arming, with any answers of the
system and any decisions of the logic.

The invariant is `SlotInv`. A call either lowers slots (`SlotInv.lowered`) or
claims for one slot a range that the overlap test has found free
(`SlotInv.arm`); the test runs before the victim is chosen, and neither giving
up the victim nor a failure on the way gives any slot a new range.
-/

namespace Kognizance

open Process

/-! ### The last subscription of a slot -/

/-- The request slot `i` of a thread was last armed for. -/
def lastArm (tid i : ℕ) : List Effect → Option Request
  | [] => none
  | .arm t j r :: es => if t = tid ∧ j = i then some r else lastArm tid i es
  | .threadInit t :: es => if t = tid then none else lastArm tid i es
  | .deref _ _ _ :: es => lastArm tid i es
  | .delete _ :: es => lastArm tid i es

/-- Effects that arm no slot and create no table. -/
def Effect.Silent : Effect → Prop
  | .threadInit _ => False
  | .arm _ _ _ => False
  | .deref _ _ _ => True
  | .delete _ => True

theorem lastArm_append_silent {tid i : ℕ} {es effects : List Effect}
    (h : ∀ x ∈ es, x.Silent) : lastArm tid i (es ++ effects) = lastArm tid i effects := by
  induction es with
  | nil => rfl
  | cons x es ih =>
    have hrest := ih fun y hy => h y (List.mem_cons_of_mem x hy)
    cases x with
    | threadInit t => exact absurd (h _ List.mem_cons_self) id
    | arm t j r => exact absurd (h _ List.mem_cons_self) id
    | deref t j e => exact hrest
    | delete e => exact hrest

/-- All that a handled trigger enters into the record is silent. -/
theorem silent_of_handled {L : Type} {T : Tool L} {w : World L} {tid i : ℕ} {td : WPThreadData}
    {fd : ℤ} {e event : Event} {ans : TriggerAnswers} {seen : List Effect}
    {res : Except Halt (Option (ℕ × Event))}
    (h : findFired T tid td.watchPointArray fd event (List.range T.cfg.maxWP) [] = (seen, res)) :
    ∀ x ∈ firedEffects T w tid td i e event ans ++
      (seen ++ [.deref tid 0 (td.watchPointArray 0).sampledEvent]), x.Silent := by
  intro x hx
  -- the trigger's own effects, then what the search saw, then the slot 0 it reads
  rw [firedEffects] at hx
  rcases List.mem_append.mp hx with hx | hx
  · rcases List.mem_append.mp hx with hx | hx
    · split_ifs at hx
      · cases hx
      · rcases List.mem_cons.mp hx with rfl | hx
        · trivial
        · obtain rfl := List.mem_singleton.mp hx
          trivial
    · split_ifs at hx
      · obtain rfl := List.mem_singleton.mp hx
        trivial
      · cases hx
  · rcases List.mem_append.mp hx with hx | hx
    · rcases (findFired_spec h).2.2 x hx with hx | ⟨j, -, -, rfl⟩
      · cases hx
      · trivial
    · obtain rfl := List.mem_singleton.mp hx
      trivial

/-- So a handled trigger leaves the record of arming alone. -/
theorem lastArm_of_handled {L : Type} {T : Tool L} {w : World L} {tid i : ℕ}
    {td : WPThreadData} {fd : ℤ} {e event : Event} {ans : TriggerAnswers} {seen : List Effect}
    {res : Except Halt (Option (ℕ × Event))}
    (h : findFired T tid td.watchPointArray fd event (List.range T.cfg.maxWP) [] = (seen, res))
    (t j : ℕ) :
    lastArm t j (firedEffects T w tid td i e event ans ++
      (seen ++ (.deref tid 0 (td.watchPointArray 0).sampledEvent :: w.effects)))
      = lastArm t j w.effects := by
  have hsilent : lastArm t j ((firedEffects T w tid td i e event ans ++
      (seen ++ [.deref tid 0 (td.watchPointArray 0).sampledEvent])) ++ w.effects)
      = lastArm t j w.effects :=
    lastArm_append_silent (silent_of_handled h)
  simpa only [List.append_assoc, List.singleton_append] using hsilent

/-! ### The invariant -/

/-- The range a slot claims. -/
def slotClaim (maxWP : ℕ) (slots : Slots) (i : ℕ) : Option (Set ℕ) :=
  if i < maxWP ∧ (slots i).isActive = true then
    some (byteRange (slots i).va (slots i).wpLength)
  else none

theorem slotClaim_eq_some {maxWP : ℕ} {slots : Slots} {i : ℕ} {s : Set ℕ}
    (h : slotClaim maxWP slots i = some s) :
    i < maxWP ∧ (slots i).isActive = true ∧
      s = byteRange (slots i).va (slots i).wpLength := by
  unfold slotClaim at h
  split_ifs at h with hi
  exact ⟨hi.1, hi.2, (Option.some.inj h).symm⟩

/-- An active slot is what its last subscription asked for. -/
structure SlotOk (tid i : ℕ) (wpi : WPRegisterInfo) (effects : List Effect) : Prop where
  length : SupportedLength wpi.wpLength
  handle : wpi.fileHandle ≠ -1
  below : wpi.va.toNat + wpi.wpLength.toNat < 2 ^ 64
  armed : ∃ r e, lastArm tid i effects = some r ∧ r.sampleEvent = some e ∧
    wpi.sampledEvent = some e ∧ (r.watchType ≠ .inst → wpi.wpLength.toNat ∣ wpi.va.toNat)

/-- The invariant of one thread's table. -/
structure SlotInv (maxWP tid : ℕ) (slots : Slots) (effects : List Effect) : Prop where
  exclusive : Exclusive (slotClaim maxWP slots)
  slot : ∀ i, i < maxWP → (slots i).isActive = true → SlotOk tid i (slots i) effects

/-- The fields `SlotOk` speaks about are those `Alike` keeps. -/
theorem SlotOk.alike {tid i : ℕ} {a b : WPRegisterInfo} {effects effects' : List Effect}
    (h : SlotOk tid i a effects) (hab : a.Alike b)
    (hlast : lastArm tid i effects' = lastArm tid i effects) : SlotOk tid i b effects' := by
  rw [hab]
  refine ⟨h.length, h.handle, h.below, ?_⟩
  rw [hlast]
  exact h.armed

namespace SlotInv

variable {maxWP tid : ℕ} {slots slots' : Slots} {effects effects' : List Effect}

/-- A fresh table has no active slot. -/
theorem init (memory : Slots) : SlotInv maxWP tid (initSlots maxWP tid memory) effects := by
  have hoff : ∀ i, i < maxWP → (initSlots maxWP tid memory i).isActive = false := by
    intro i hi
    simp only [initSlots, if_pos hi]
  constructor
  · intro i j s t _ hi
    obtain ⟨hlt, hact, -⟩ := slotClaim_eq_some hi
    rw [hoff i hlt] at hact
    cases hact
  · intro i hlt hact
    rw [hoff i hlt] at hact
    cases hact

/-- Lowering slots keeps the invariant. -/
theorem lowered (h : SlotInv maxWP tid slots effects)
    (hlow : ∀ i, i < maxWP → (slots i).Lowered (slots' i))
    (hlast : ∀ i, lastArm tid i effects' = lastArm tid i effects) :
    SlotInv maxWP tid slots' effects' := by
  have hact : ∀ i, i < maxWP → (slots' i).isActive = true → (slots i).isActive = true := by
    intro i hi ha
    have hal := hlow i hi ha
    rw [hal] at ha
    exact ha
  constructor
  · refine h.exclusive.release fun i s hs => ?_
    obtain ⟨hi, ha, rfl⟩ := slotClaim_eq_some hs
    rw [slotClaim, if_pos ⟨hi, hact i hi ha⟩, hlow i hi ha]
  · intro i hi ha
    exact (h.slot i hi (hact i hi ha)).alike (hlow i hi ha) (hlast i)

/-- A slot may claim a range that no active slot overlaps. -/
theorem arm (h : SlotInv maxWP tid slots effects) {i : ℕ} (hi : i < maxWP)
    {wpi : WPRegisterInfo} (hact : wpi.isActive = true) (hok : SlotOk tid i wpi effects')
    (hfree : ∀ j, j < maxWP → (slots j).isActive = true →
      addressesOverlap (slots j).va (slots j).wpLength wpi.va wpi.wpLength = false)
    (hlast : ∀ j, j ≠ i → lastArm tid j effects' = lastArm tid j effects) :
    SlotInv maxWP tid (Function.update slots i wpi) effects' := by
  have hpos : ∀ {n : ℤ}, SupportedLength n → 0 ≤ n := by
    intro n hn
    unfold SupportedLength at hn
    omega
  have hself : slotClaim maxWP (Function.update slots i wpi) i
      = some (byteRange wpi.va wpi.wpLength) := by
    rw [slotClaim, Function.update_self, if_pos ⟨hi, hact⟩]
  have hother : ∀ j, j ≠ i →
      slotClaim maxWP (Function.update slots i wpi) j = slotClaim maxWP slots j := by
    intro j hj
    rw [slotClaim, slotClaim, Function.update_of_ne hj]
  constructor
  · -- the overlap test has found the range free
    refine h.exclusive.claim hself (fun j hj t ht => hother j hj ▸ ht) fun j hj t ht => ?_
    rw [hother j hj] at ht
    obtain ⟨hjlt, hja, rfl⟩ := slotClaim_eq_some ht
    have hjok := h.slot j hjlt hja
    exact (disjoint_of_not_addressesOverlap (hpos hjok.length) (hpos hok.length) hjok.below
      hok.below (hfree j hjlt hja)).symm
  · intro j hj ha
    by_cases hji : j = i
    · subst hji
      rw [Function.update_self]
      exact hok
    · rw [Function.update_of_ne hji] at ha ⊢
      exact (h.slot j hj ha).alike (.refl _) (hlast j hji)

end SlotInv

/-! ### One call -/

/-- A request for an event, with a range that ends below `2 ^ 64`. -/
def Request.WellFormed (r : Request) : Prop :=
  r.sampleEvent ≠ none ∧ r.va.toNat + r.watchLength.toNat < 2 ^ 64

/-- The subscriptions of a run carry well-formed requests. -/
def Op.WellFormed : Op → Prop
  | .subscribe _ r _ => r.WellFormed
  | _ => True

/-- What `ArmWatchPoint` makes of a slot: it is armed for the request, or it is
lowered. -/
theorem Armed.slot {cfg : WPConfig} {tid : ℕ} {wpi : WPRegisterInfo} {r : Request}
    {p : Platform} {ans : ArmAnswers} {ok : Bool} {c : Created}
    (h : Armed cfg tid wpi r p ans ok c) :
    (c.reachedEnd = true ∧ c.wpi.isActive = true ∧ c.wpi.va = r.va ∧
      c.wpi.wpLength = r.watchLength ∧ c.wpi.fileHandle ≠ -1 ∧
      SupportedLength r.watchLength ∧
      ∀ e, r.sampleEvent = some e → c.wpi.sampledEvent = some e) ∨
    (c.reachedEnd = false ∧ wpi.Lowered c.wpi) := by
  -- a null event leaves the slot's old one in place
  have hev : ∀ (a : WPRegisterInfo) e, r.sampleEvent = some e →
      (a.arm r.va r.watchLength r.sampleEvent ans.rdtsc).sampledEvent = some e := by
    intro a e he
    rw [he]
    rfl
  cases h with
  | moved dev hmod hfd hlen hdev hupd =>
    exact Or.inl ⟨rfl, rfl, rfl, rfl, hfd, hlen, hev _⟩
  | missing => exact Or.inr ⟨rfl, (WPRegisterInfo.Alike.refl _).lowered⟩
  | notMoved => exact Or.inr ⟨rfl, WPRegisterInfo.lowered_of_inactive rfl⟩
  | opened wpi' p' p'' hmod hlen hfree hreg =>
    exact Or.inl ⟨rfl, rfl, rfl, rfl, hreg.fd_ne, hlen, hev _⟩
  | notOpened wpi' p' p'' dev hmod hfree hreg hmap hfds =>
    -- the slot was freed for a device that could not be had
    refine Or.inr ⟨rfl, WPRegisterInfo.lowered_of_inactive ?_⟩
    exact hfree.off

theorem validateWPData_eq_true {va : UInt64} {len : ℤ} (h : validateWPData va len = true) :
    SupportedLength len ∧ len.toNat ∣ va.toNat := by
  unfold validateWPData at h
  split_ifs at h with h0 hlen
  exact ⟨hlen, (isAligned_iff hlen).mp h⟩

theorem not_overlap_of_isOveralpped {maxWP : ℕ} {td : WPThreadData} {va : UInt64} {len : ℤ}
    (h : isOveralpped maxWP (some td) va len = false) {j : ℕ} (hj : j < maxWP)
    (hact : (td.watchPointArray j).isActive = true) :
    addressesOverlap (td.watchPointArray j).va (td.watchPointArray j).wpLength va len = false := by
  have hnone := List.any_eq_false.mp h j (List.mem_range.mpr hj)
  rw [hact, Bool.true_and, Bool.not_eq_true] at hnone
  exact hnone

section Step

variable {L : Type} {T : Tool L}

/-- The invariant of all tables. -/
def TablesInv (T : Tool L) (w : World L) : Prop :=
  ∀ t td, w.tData t = some td → SlotInv T.cfg.maxWP t td.watchPointArray w.effects

theorem TablesInv.fresh (p : Platform) (logic : L) : TablesInv T (World.fresh p logic) := by
  intro t td h
  cases h

/-- A call on behalf of thread `tid` keeps the other threads' tables, when what it
enters into the record is about `tid`. -/
theorem TablesInv.update {w w' : World L} {tid : ℕ} {o : Option WPThreadData}
    (h : TablesInv T w) (htd : w'.tData = Function.update w.tData tid o)
    (hother : ∀ t i, t ≠ tid → lastArm t i w'.effects = lastArm t i w.effects)
    (hself : ∀ td, o = some td → SlotInv T.cfg.maxWP tid td.watchPointArray w'.effects) :
    TablesInv T w' := by
  intro t td ht
  by_cases htt : t = tid
  · subst htt
    rw [htd, Function.update_self] at ht
    exact hself td ht
  · rw [htd, Function.update_of_ne htt] at ht
    exact (h t td ht).lowered (fun i _ => (WPRegisterInfo.Alike.refl _).lowered)
      fun i => hother t i htt

/-- `WP_Subscribe` keeps the tables. -/
theorem TablesInv.subscribe {w w' : World L} {tid : ℕ} {r : Request} {ans : SubscribeAnswers}
    {ret : ℤ} (h : TablesInv T w) (hr : r.WellFormed)
    (hs : Subscribed T w tid r ans ret w') : TablesInv T w' := by
  cases hs with
  | refused => exact h
  | noVictim td htd =>
    refine h.update rfl (fun _ _ _ => rfl) fun td' htd' => ?_
    obtain rfl := Option.some.inj htd'
    exact (h tid td htd).lowered (fun i _ => (victimOf_alike T td ans i).lowered) fun _ => rfl
  | tried td i ok c htd hvalid hover hloc harm =>
    have halike := victimOf_alike T td ans
    have hinv : SlotInv T.cfg.maxWP tid (victimOf T td ans).slots w.effects :=
      (h tid td htd).lowered (fun j _ => (halike j).lowered) fun _ => rfl
    have hi : i < T.cfg.maxWP := getVictim_lt hloc
    rcases harm.slot with ⟨hend, hact, hva, hlen, hfd, hsup, hev⟩ | ⟨hend, hlow⟩
    · -- the slot is armed for a range the overlap test found free
      rw [hend]
      refine h.update rfl (fun t j ht => ?_) fun td' htd' => ?_
      · exact if_neg fun hc => ht hc.1.symm
      · obtain rfl := Option.some.inj htd'
        obtain ⟨e, he⟩ := Option.ne_none_iff_exists'.mp hr.1
        refine hinv.arm hi hact ⟨hlen ▸ hsup, hfd, ?_, r, e, ?_, he, hev e he, fun ht => ?_⟩
          (fun j hj hja => ?_) fun j hj => ?_
        · rw [hva, hlen]
          exact hr.2
        · exact if_pos ⟨rfl, rfl⟩
        · rw [hva, hlen]
          exact (validateWPData_eq_true (hvalid ht)).2
        · rw [halike j] at hja ⊢
          rw [hva, hlen]
          exact not_overlap_of_isOveralpped hover hj hja
        · exact if_neg fun hc => hj hc.2.symm
    · -- the arming failed: the slot is as it was, or off
      rw [hend]
      refine h.update rfl (fun _ _ _ => rfl) fun td' htd' => ?_
      obtain rfl := Option.some.inj htd'
      refine hinv.lowered (fun j _ => ?_) fun _ => rfl
      by_cases hji : j = i
      · subst hji
        simp only [Function.update_self]
        exact hlow
      · simp only [Function.update_of_ne hji]
        exact (WPRegisterInfo.Alike.refl _).lowered

/-- `OnWatchPoint` keeps the tables. -/
theorem TablesInv.handled {w w' : World L} {tid : ℕ} {fd : ℤ} {event : Event}
    {ans : TriggerAnswers} (h : TablesInv T w) (hh : Handled T w tid fd event ans w') :
    TablesInv T w' := by
  cases hh with
  | noTable htd =>
    refine h.update (Function.update_eq_self tid w.tData).symm (fun t i _ => ?_) fun td htd' => ?_
    · rfl
    · rw [htd] at htd'
      cases htd'
  | fired td td' i e p' seen htd hfire hseen hact =>
    refine h.update rfl (fun t j _ => lastArm_of_handled hseen t j) fun td'' htd'' => ?_
    obtain rfl := Option.some.inj htd''
    exact (h tid td htd).lowered (fun j _ => applyAction_lowered hfire.active hfire.lt hact j)
      fun j => lastArm_of_handled hseen tid j

/-- **One call keeps the tables.** -/
theorem TablesInv.step {w w' : World L} {op : Op} {ret : ℤ} (h : TablesInv T w)
    (hop : op.WellFormed) (hs : step T w op = .running ret w') : TablesInv T w' := by
  cases op with
  | threadInit tid ans =>
    rcases wpThreadInit_cases hs with rfl | rfl
    · exact h
    · -- a fresh table has no active slot
      refine h.update rfl (fun t i ht => if_neg fun hc => ht hc.symm) fun td htd => ?_
      obtain rfl := Option.some.inj htd
      exact .init ans.memory
  | subscribe tid r ans => exact h.subscribe hop (wpSubscribe_cases hs)
  | onWatchPoint tid fd event ans => exact h.handled (onWatchPoint_cases hs)
  | threadTerminate tid ans =>
    obtain ⟨td, slots, p, -, -, rfl⟩ := wpThreadTerminate_cases hs
    -- a thread that ends leaves no table
    exact h.update rfl (fun _ _ _ => rfl) fun _ htd => nomatch htd
  | pause =>
    obtain ⟨rfl, rfl⟩ := Outcome.running.inj hs
    exact h
  | resume =>
    obtain ⟨rfl, rfl⟩ := Outcome.running.inj hs
    exact h
  | devices p =>
    obtain ⟨rfl, rfl⟩ := Outcome.running.inj hs
    exact h

end Step

/-! ### Every run -/

/-- What the table of a thread guarantees. -/
structure SlotTable (maxWP tid : ℕ) (slots : Slots) (effects : List Effect) : Prop where
  /-- Distinct active slots watch no byte twice. -/
  disjoint : ∀ i j, i < maxWP → j < maxWP → i ≠ j → (slots i).isActive = true →
    (slots j).isActive = true →
    Disjoint (byteRange (slots i).va (slots i).wpLength)
      (byteRange (slots j).va (slots j).wpLength)
  /-- An active slot has a supported length, a device, and the event of the
  subscription that armed it. -/
  armed : ∀ i, i < maxWP → (slots i).isActive = true →
    SupportedLength (slots i).wpLength ∧ (slots i).fileHandle ≠ -1 ∧
      ∃ r e, lastArm tid i effects = some r ∧ r.sampleEvent = some e ∧
        (slots i).sampledEvent = some e
  /-- An active data watchpoint is aligned. -/
  aligned : ∀ i r, i < maxWP → (slots i).isActive = true → lastArm tid i effects = some r →
    r.watchType ≠ .inst → (slots i).wpLength.toNat ∣ (slots i).va.toNat

theorem SlotInv.slotTable {maxWP tid : ℕ} {slots : Slots} {effects : List Effect}
    (h : SlotInv maxWP tid slots effects) : SlotTable maxWP tid slots effects where
  disjoint := by
    intro i j hi hj hij hia hja
    refine h.exclusive i j _ _ hij ?_ ?_
    · rw [slotClaim, if_pos ⟨hi, hia⟩]
    · rw [slotClaim, if_pos ⟨hj, hja⟩]
  armed := by
    intro i hi hact
    have hok := h.slot i hi hact
    obtain ⟨r, e, hr, he, hs, -⟩ := hok.armed
    exact ⟨hok.length, hok.handle, r, e, hr, he, hs⟩
  aligned := by
    intro i r hi hact hr ht
    obtain ⟨r', e, hr', -, -, hdvd⟩ := (h.slot i hi hact).armed
    obtain rfl := Option.some.inj (hr.symm.trans hr')
    exact hdvd ht

/-- **The slot table, along every run.** In every state reached, the table of
every thread has disjoint active ranges, and each active slot is aligned, open
and filled by the subscription that last armed it. -/
theorem slotTable_of_run {L : Type} (T : Tool L) (p : Platform) (logic : L) (ops : List Op)
    (w : World L) (hops : ∀ op ∈ ops, op.WellFormed)
    (hrun : exec (step T) (World.fresh p logic) ops = .running () w) :
    ∀ t td, w.tData t = some td →
      SlotTable T.cfg.maxWP t td.watchPointArray w.effects := by
  have hinv : TablesInv T w :=
    exec_invariant (C := fun _ op => op.WellFormed) (I := TablesInv T)
      (fun _ _ _ _ h hop hs => h.step hop hs) (.fresh p logic) (along_of_forall hops) hrun
  exact fun t td htd => (hinv t td htd).slotTable

/-- Two subscriptions, and a trigger of the first slot. -/
def twoSlotRun : List Op :=
  [.threadInit 1 (.success none), .subscribe 1 (.storeAt 1 0x1000) (.success 3),
    .subscribe 1 (.storeAt 2 0x1008) (.success 4),
    .onWatchPoint 1 3 (.storeAt 5 0x1000) .success]

/-- The state `twoSlotRun` ends in, when the logic disables the slot. -/
def twoSlotEnd : World Unit :=
  (exec (step (Tool.always true 2 .disable)) (World.fresh .idle ()) twoSlotRun).state

theorem slotTable_of_twoSlotRun :
    (twoSlotEnd.tData 1).isSome ∧ ∀ t td, twoSlotEnd.tData t = some td →
      SlotTable 2 t td.watchPointArray twoSlotEnd.effects := by
  refine ⟨rfl, slotTable_of_run (Tool.always true 2 .disable) .idle () twoSlotRun twoSlotEnd
    (fun op hop => ?_) rfl⟩
  simp only [twoSlotRun, List.mem_cons, List.not_mem_nil, or_false] at hop
  rcases hop with rfl | rfl | rfl | rfl
  · trivial
  · exact ⟨nofun, by decide⟩
  · exact ⟨nofun, by decide⟩
  · trivial

end Kognizance
