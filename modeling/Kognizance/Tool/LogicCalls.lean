import Kognizance.Tool.WitchSessions

/-!
# The calls of the logic

What the witch tool gives to its logic. Of a sample the handler passes on, the logic hears at
once; of a trigger it hears with the sample that the slot was armed for, and with the range the
slot watches. In between, the slot can be lowered, chosen as a victim and armed anew, and the
other threads go on.

* `Made`: what a signal may tell the logic.
* `Accounts` connects the state of the tool with the calls made so far; `Accounts.step` is one
  step of it.
* `calls_of_run`: every run of the tool is, to the logic, a run of samples and triggers, so what
  holds along the runs of a logic holds in the tool.
-/

namespace Kognizance

open Process

/-- The state of the logic after the calls, each with the thread it was made on. -/
def Setup.replay (S : Setup) (calls : List (ℕ × LogicOp)) : WitchLogic :=
  runLogic S.float S.logic .new (calls.map Prod.snd)

/-- The slot watches for the sample what its request asks for. -/
structure ArmedFor (S : Setup) (wpi : WPRegisterInfo) (e : Event) : Prop where
  holds : wpi.sampledEvent = some e
  va : wpi.va = (S.request e).va
  length : wpi.wpLength = (S.request e).watchLength

/-- A signal tells the logic of the sample that its handler has fixed, or of a trigger with a
sample of the same address. -/
inductive Made (S : Setup) : WitchOp → ℕ × LogicOp → Prop
  | sample {t : ℕ} {fd : ℤ} {event event' : Event} {ans : SampleAnswers} {trigger : TriggerAnswers}
      (h : PassedOn S event ans event') :
      Made S (.signal t fd event ans trigger) (t, .sample event')
  | trigger {t : ℕ} {fd : ℤ} {event currEvent e : Event} {sample : SampleAnswers}
      {ans : TriggerAnswers} {wpt : WPTriggerInfo} (hip : event.h_ip_addr ≠ 0)
      (hfixed : tryFixIP ans.fixIP event = (true, currEvent))
      (haddr : S.tool.addrOf e = S.tool.addrOf event) :
      Made S (.signal t fd event sample ans) (t, .trigger currEvent e wpt)

/-- Active slots were armed for samples that the logic has been told of on their thread. -/
def SlotsTold (S : Setup) (w : World WitchLogic) (calls : List (ℕ × LogicOp)) : Prop :=
  ∀ t td i, w.tData t = some td → i < S.cfg.maxWP → (td.watchPointArray i).isActive = true →
    ∃ e, (t, .sample e) ∈ calls ∧ ArmedFor S (td.watchPointArray i) e

/-- A trigger comes after the sample that its slot was armed for, with the range of its request. -/
def Told (S : Setup) (before : List (ℕ × LogicOp)) : ℕ × LogicOp → Prop
  | (t, .trigger _ e wpt) =>
    (t, .sample e) ∈ before ∧ wpt = ⟨(S.request e).va, (S.request e).watchLength⟩
  | (_, .sample _) => True

/-- The calls account for the state that the inputs have led to. -/
structure Accounts (S : Setup) (inputs : List WitchOp) (w : World WitchLogic)
    (calls : List (ℕ × LogicOp)) : Prop where
  logic : w.logic = S.replay calls
  made : ∃ signals : List WitchOp, signals.Sublist inputs ∧ List.Forall₂ (Made S) signals calls
  slots : SlotsTold S w calls
  told : ∀ pre call post, calls = pre ++ call :: post → Told S pre call

/-! ### The tables -/

section Tables

variable {S : Setup} {w w' : World WitchLogic} {calls : List (ℕ × LogicOp)} {tid : ℕ}
  {o : Option WPThreadData}

theorem ArmedFor.alike {a b : WPRegisterInfo} {e : Event} (h : ArmedFor S a e) (hab : a.Alike b) :
    ArmedFor S b e := by
  rw [hab]
  exact ⟨h.holds, h.va, h.length⟩

theorem SlotsTold.mono {calls' : List (ℕ × LogicOp)} (h : SlotsTold S w calls)
    (hsub : calls ⊆ calls') : SlotsTold S w calls' := by
  intro t td i htd hi hact
  obtain ⟨e, he, hwatch⟩ := h t td i htd hi hact
  exact ⟨e, hsub he, hwatch⟩

/-- A thread gets another table. -/
theorem SlotsTold.update (h : SlotsTold S w calls)
    (htd : w'.tData = Function.update w.tData tid o)
    (hself : ∀ td i, o = some td → i < S.cfg.maxWP → (td.watchPointArray i).isActive = true →
      ∃ e, (tid, .sample e) ∈ calls ∧ ArmedFor S (td.watchPointArray i) e) :
    SlotsTold S w' calls := by
  intro t td i ht hi hact
  by_cases htt : t = tid
  · subst htt
    rw [htd, Function.update_self] at ht
    exact hself td i ht hi hact
  · rw [htd, Function.update_of_ne htt] at ht
    exact h t td i ht hi hact

theorem SlotsTold.lowered (h : SlotsTold S w calls) {td : WPThreadData}
    (htd : w.tData tid = some td) {i : ℕ} (hi : i < S.cfg.maxWP) {wpi : WPRegisterInfo}
    (hlow : (td.watchPointArray i).Lowered wpi) (hact : wpi.isActive = true) :
    ∃ e, (tid, .sample e) ∈ calls ∧ ArmedFor S wpi e := by
  have halike := hlow hact
  obtain ⟨e, he, hwatch⟩ := h tid td i htd hi (halike.isActive_eq ▸ hact)
  exact ⟨e, he, hwatch.alike halike⟩

/-- **`WP_Subscribe`** arms a slot for the sample, or lowers slots. -/
theorem SlotsTold.subscribed (h : SlotsTold S w calls) {e : Event}
    (htold : (tid, .sample e) ∈ calls) {ans : SubscribeAnswers} {ret : ℤ}
    (hs : Subscribed S.tool w tid (S.request e) ans ret w') : SlotsTold S w' calls := by
  cases hs with
  | refused => exact h
  | noVictim td htd =>
    -- no slot is armed, and only survival counters have changed
    refine h.update rfl fun td' i htd' hi hact => ?_
    obtain rfl := Option.some.inj htd'
    exact h.lowered htd hi (victimOf_alike S.tool td ans i).lowered hact
  | tried td i ok c htd hvalid hover hloc harm =>
    refine h.update rfl fun td' j htd' hj hact => ?_
    obtain rfl := Option.some.inj htd'
    have halike := victimOf_alike S.tool td ans j
    dsimp only at hact ⊢
    by_cases hji : j = i
    · subst hji
      rw [Function.update_self] at hact ⊢
      rcases harm.slot with ⟨-, -, hva, hlen, -, -, hev⟩ | ⟨-, hlow⟩
      · -- the slot is armed for the request, which is made of the sample
        exact ⟨e, htold, hev e (S.request_sampleEvent e), hva, hlen⟩
      · exact h.lowered htd hj (halike.lowered.trans hlow) hact
    · -- the other slots are at most lowered
      rw [Function.update_of_ne hji] at hact ⊢
      exact h.lowered htd hj halike.lowered hact

end Tables

/-! ### The calls -/

section Calls

variable {S : Setup} {inputs : List WitchOp} {w w' : World WitchLogic}
  {calls : List (ℕ × LogicOp)} {op : WitchOp}

/-- The logic always returns. -/
theorem exec_logicStep (F : FloatUnit) (l : Logic) (σ : WitchLogic) (ops : List LogicOp) :
    exec (logicStep F l) σ ops = .running () (runLogic F l σ ops) := by
  induction ops generalizing σ with
  | nil => rfl
  | cons op ops ih =>
    cases op with
    | sample event => exact ih _
    | trigger currEvent sampleEvent wpt => exact ih _

/-- One more call. -/
theorem replay_append (S : Setup) (calls : List (ℕ × LogicOp)) (t : ℕ) (call : LogicOp) :
    S.replay (calls ++ [(t, call)]) = runLogic S.float S.logic (S.replay calls) [call] := by
  have hrun := exec_logicStep S.float S.logic .new (calls.map Prod.snd)
  unfold Setup.replay
  rw [List.map_append, runLogic, exec_append hrun]
  rfl

/-- The inputs lead to no call. -/
theorem Accounts.quiet (h : Accounts S inputs w calls) (op : WitchOp)
    (hlogic : w'.logic = w.logic) (hslots : SlotsTold S w' calls) :
    Accounts S (inputs ++ [op]) w' calls where
  logic := hlogic.trans h.logic
  made := by
    obtain ⟨signals, hsub, hmade⟩ := h.made
    exact ⟨signals, hsub.trans (List.sublist_append_left _ _), hmade⟩
  slots := hslots
  told := h.told

/-- One more call of the logic. -/
theorem Accounts.call (h : Accounts S inputs w calls) {t : ℕ} {call : LogicOp}
    (hmade : Made S op (t, call))
    (hlogic : w'.logic = runLogic S.float S.logic w.logic [call])
    (hslots : SlotsTold S w' (calls ++ [(t, call)])) (htold : Told S calls (t, call)) :
    Accounts S (inputs ++ [op]) w' (calls ++ [(t, call)]) where
  logic := by rw [hlogic, h.logic, replay_append]
  made := by
    obtain ⟨signals, hsub, hall⟩ := h.made
    exact ⟨signals ++ [op], hsub.append (List.Sublist.refl _),
      List.rel_append hall (.cons hmade .nil)⟩
  slots := hslots
  told := forall_split_concat h.told htold

/-! ### The handlers -/

/-- The library leaves the logic alone. -/
theorem Subscribed.logic_eq {L : Type} {T : Tool L} {w w' : World L} {tid : ℕ} {r : Request}
    {ans : SubscribeAnswers} {ret : ℤ} (h : Subscribed T w tid r ans ret w') :
    w'.logic = w.logic := by
  cases h with
  | refused => rfl
  | noVictim => rfl
  | tried => rfl

/-- Every way the handler of a sample can call the logic. -/
theorem toolPEBSEventHandler_calls {t : ℕ} {event : Event} {ans : SampleAnswers} {ret : ℤ}
    (h : toolPEBSEventHandler S w t event ans = .running ret w') :
    (w'.tData = w.tData ∧ w'.logic = w.logic) ∨
    ∃ event', PassedOn S event ans event' ∧
      w'.logic = (w.logic.witchOnSampleCallback event').2 ∧
      (w'.tData = w.tData ∨ ∃ σ ret,
        Subscribed S.tool { w with logic := σ } t (S.request event') ans.subscribe ret w') := by
  have hquiet : ∀ {u : World WitchLogic} {r : ℤ}, u.tData = w.tData → u.logic = w.logic →
      Outcome.running r u = .running ret w' → w'.tData = w.tData ∧ w'.logic = w.logic := by
    intro u r htData hlogic heq
    obtain ⟨-, rfl⟩ := Outcome.running.inj heq
    exact ⟨htData, hlogic⟩
  unfold toolPEBSEventHandler at h
  split at h
  next haddrs =>
    dsimp only at h
    cases hfixed : tryFixIP ans.fixIP event with
    | mk ok event' =>
      rw [hfixed] at h
      cases ok with
      | false => exact Or.inl (hquiet rfl rfl h)
      | true =>
        -- the tests in the order of the source
        rw [if_neg (by simp)] at h
        split at h
        · exact Or.inl (hquiet rfl rfl h)
        next hknown =>
        split at h
        · exact Or.inl (hquiet rfl rfl h)
        next hforeign =>
        split at h
        · exact Or.inl (hquiet (u := w.note [.delete event']) rfl rfl h)
        next havoids =>
        refine Or.inr ⟨event', ⟨haddrs, hfixed, hknown, hforeign, by simpa using havoids⟩, ?_⟩
        split at h
        · obtain ⟨-, rfl⟩ := Outcome.running.inj h
          exact ⟨rfl, Or.inl rfl⟩
        · have hsub := wpSubscribe_cases h
          exact ⟨hsub.logic_eq, Or.inr ⟨_, ret, hsub⟩⟩
  · exact Or.inl (hquiet rfl rfl h)

/-- **A sample** is told to the logic before a slot is armed for it. -/
theorem Accounts.sample (h : Accounts S inputs w calls) {t : ℕ} {fd : ℤ} {event : Event}
    {ans : SampleAnswers} {trigger : TriggerAnswers} {ret : ℤ}
    (hs : toolPEBSEventHandler S w t event ans = .running ret w') :
    ∃ calls', Accounts S (inputs ++ [.signal t fd event ans trigger]) w' calls' := by
  rcases toolPEBSEventHandler_calls hs with ⟨htData, hlogic⟩ | ⟨event', hpassed, hlogic, htData⟩
  · refine ⟨calls, h.quiet _ hlogic ?_⟩
    intro t' td i htd
    rw [htData] at htd
    exact h.slots t' td i htd
  · refine ⟨_, h.call (.sample hpassed) hlogic ?_ trivial⟩
    have htold : SlotsTold S w (calls ++ [(t, .sample event')]) :=
      h.slots.mono (List.subset_append_left _ _)
    rcases htData with htData | ⟨σ, ret, hsub⟩
    · intro t' td i htd
      rw [htData] at htd
      exact htold t' td i htd
    · have htold' : SlotsTold S { w with logic := σ } (calls ++ [(t, .sample event')]) := htold
      exact htold'.subscribed (List.mem_append_right _ List.mem_cons_self) hsub

/-- **A trigger** is told to the logic with what its slot was armed for. -/
theorem Accounts.trigger (h : Accounts S inputs w calls) {t : ℕ} {fd fd' : ℤ} {event : Event}
    {sample : SampleAnswers} {ans : TriggerAnswers} {ret : ℤ}
    (hs : onWatchPoint S.tool w t fd' event ans = .running ret w') :
    ∃ calls', Accounts S (inputs ++ [.signal t fd event sample ans]) w' calls' := by
  cases onWatchPoint_cases hs with
  | noTable htd => exact ⟨calls, h.quiet _ rfl h.slots⟩
  | fired td td' i e p' seen htd hfire hseen hact =>
    obtain ⟨e', htold, hwatch⟩ := h.slots t td i htd hfire.lt hfire.active
    obtain rfl : e' = e := Option.some.inj (hwatch.holds.symm.trans hfire.holds)
    -- the action lowers slots, whatever the logic says
    have hslots : SlotsTold S (w.setTData t (some td')) calls := by
      refine h.slots.update rfl fun td'' j htd'' hj hactive => ?_
      obtain rfl := Option.some.inj htd''
      exact h.slots.lowered htd hj (applyAction_lowered hfire.active hfire.lt hact j) hactive
    rcases decideAction_cases S.tool w.logic (td.watchPointArray i) e' event ans.fixIP with
      ⟨-, hd⟩ | ⟨hip, hfixed, hd⟩
    · refine ⟨calls, h.quiet _ ?_ hslots⟩
      show (decideAction S.tool w.logic (td.watchPointArray i) e' event ans.fixIP).2.1 = w.logic
      rw [hd]
    · refine ⟨_, h.call (.trigger hip (Prod.ext hfixed rfl) hfire.addr) ?_
        (hslots.mono (List.subset_append_left _ _)) ⟨htold, rfl⟩⟩
      show (decideAction S.tool w.logic (td.watchPointArray i) e' event ans.fixIP).2.1 = _
      rw [hd, ← hwatch.va, ← hwatch.length]
      rfl

/-- A callback that leaves the logic alone, and the table of a thread new or gone. -/
theorem Accounts.table (h : Accounts S inputs w calls) (op : WitchOp) {t : ℕ}
    {o : Option WPThreadData} (hlogic : w'.logic = w.logic)
    (htd : w'.tData = Function.update w.tData t o)
    (hoff : ∀ td i, o = some td → i < S.cfg.maxWP → (td.watchPointArray i).isActive = false) :
    Accounts S (inputs ++ [op]) w' calls := by
  refine h.quiet op hlogic (h.slots.update htd fun td i ho hi hact => ?_)
  exact absurd ((hoff td i ho hi).symm.trans hact) Bool.false_ne_true

end Calls

namespace WitchTool

variable {S : Setup} {inputs : List WitchOp} {st st' : WitchTool} {calls : List (ℕ × LogicOp)}

/-- **One step.** -/
theorem accounts_step (h : Accounts S inputs st.world calls) {op : WitchOp}
    (hs : st.step S op = .running () st') :
    ∃ calls', Accounts S (inputs ++ [op]) st'.world calls' := by
  cases step_cases hs with
  | begins hw hr =>
    rcases wpThreadInit_cases hw with rfl | rfl
    · exact ⟨calls, h.quiet _ rfl h.slots⟩
    · refine ⟨calls, h.table _ rfl rfl fun td i htd hi => ?_⟩
      obtain rfl := Option.some.inj htd
      simp only [initSlots]
      rw [if_pos (show i < S.tool.cfg.maxWP from hi)]
  | ends hw hr =>
    obtain ⟨td, slots, q, -, -, rfl⟩ := wpThreadTerminate_cases hw
    exact ⟨calls, h.table _ rfl rfl fun td i htd => by cases htd⟩
  | ignores => exact ⟨calls, h.quiet _ rfl h.slots⟩
  | samples hdev hw => exact h.sample hw
  | traps hdev hw => exact h.trigger hw

/-- **To the logic, a run of the tool is a run of samples and triggers.** The calls are made by
some of the signals, in their order and at most one each; every trigger comes with a sample that
was told before on the same thread, and with the range of its request; and so will the next one,
since this is what the active slots hold. -/
theorem calls_of_run (S : Setup) (p : Platform) (sKey : ℤ) (inputs : List WitchOp)
    (st : WitchTool) (hrun : exec (step S) (init p sKey) inputs = .running () st) :
    ∃ calls : List (ℕ × LogicOp),
      st.world.logic = S.replay calls ∧
      (∃ signals : List WitchOp, signals.Sublist inputs ∧ List.Forall₂ (Made S) signals calls) ∧
      (∀ pre call post, calls = pre ++ call :: post → Told S pre call) ∧
      SlotsTold S st.world calls := by
  have hinit : ∃ calls, Accounts S [] (init p sKey).world calls := by
    refine ⟨[], rfl, ⟨[], .slnil, .nil⟩, fun t td i htd => ?_, forall_split_nil⟩
    cases htd
  obtain ⟨calls, h⟩ := exec_history
    (I := fun inputs st => ∃ calls, Accounts S inputs st.world calls)
    (fun pre s op _ s' hI hs => hI.elim fun calls h => accounts_step h hs) hinit hrun
  exact ⟨calls, h.logic, h.made, h.told, h.slots⟩

/-- Two threads begin, a store is sampled, and its breakpoint fires. -/
theorem calls_storeAndTrap : ∃ calls : List (ℕ × LogicOp),
    trapped.world.logic = oneSlot.replay calls ∧
    (∃ signals : List WitchOp, signals.Sublist storeAndTrap ∧
      List.Forall₂ (Made oneSlot) signals calls) ∧
    (∀ pre call post, calls = pre ++ call :: post → Told oneSlot pre call) ∧
    SlotsTold oneSlot trapped.world calls :=
  calls_of_run oneSlot .idle 0 storeAndTrap trapped rfl

end WitchTool

end Kognizance
