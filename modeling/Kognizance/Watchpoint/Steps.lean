import Kognizance.Watchpoint.Library

/-!
# What one call can do

The inversion lemmas of the library, one for each function. Every invariant of
the later modules is derived from them and unfolds none of the functions again.

* `armWatchPoint_cases`: the five ways a slot comes out of `ArmWatchPoint`
  (`Armed`).
* `wpSubscribe_cases`, `onWatchPoint_cases`, `wpThreadTerminate_cases`: the
  states a call returns in.
* `applyAction_lowered`: handling a trigger never activates a slot.
-/

namespace Kognizance

open Process

/-! ### Slots -/

/-- `b` is `a` with another survival counter, or it is off. -/
def WPRegisterInfo.Lowered (a b : WPRegisterInfo) : Prop := b.isActive = true → a.Alike b

theorem WPRegisterInfo.Alike.lowered {a b : WPRegisterInfo} (h : a.Alike b) : a.Lowered b :=
  fun _ => h

theorem WPRegisterInfo.Lowered.trans {a b c : WPRegisterInfo} (hab : a.Lowered b)
    (hbc : b.Lowered c) : a.Lowered c := by
  intro hc
  have hb := hbc hc
  have hact : b.isActive = true := by
    rw [hb] at hc
    exact hc
  exact (hab hact).trans hb

theorem WPRegisterInfo.lowered_of_inactive {a b : WPRegisterInfo} (h : b.isActive = false) :
    a.Lowered b := by
  intro hb
  rw [h] at hb
  cases hb

/-- Every way `DisableWatchpoint` can return. -/
theorem disableWatchpoint_cases {wpi wpi' : WPRegisterInfo} {p p' : Platform}
    (h : disableWatchpoint wpi p = .ok (wpi', p')) :
    wpi.fileHandle ≠ -1 ∧
      ((p.getDevice wpi.threadId wpi.fileHandle = none ∧ wpi' = wpi ∧ p' = p) ∨
        ∃ dev, p.getDevice wpi.threadId wpi.fileHandle = some dev ∧
          wpi' = { wpi with isActive := false } ∧
          p' = p.setDevice wpi.threadId wpi.fileHandle dev.endDevice) := by
  unfold disableWatchpoint at h
  split at h
  · cases h
  · next hfd =>
    refine ⟨hfd, ?_⟩
    split at h
    · next hdev =>
      obtain ⟨rfl, rfl⟩ := Prod.mk.inj (Except.ok.inj h)
      exact Or.inl ⟨hdev, rfl, rfl⟩
    · next dev hdev =>
      obtain ⟨rfl, rfl⟩ := Prod.mk.inj (Except.ok.inj h)
      exact Or.inr ⟨dev, hdev, rfl, rfl⟩

/-- Every way `DisArm` can return. -/
theorem disArm_cases {gettid : ℕ} {wpi wpi' : WPRegisterInfo} {p p' : Platform}
    {ans : RemoveAnswers} (h : disArm gettid wpi p ans = .ok (wpi', p')) :
    wpi.fileHandle ≠ -1 ∧ wpi' = { wpi with fileHandle := -1, isActive := false } ∧
      p.removeDevice gettid wpi.fileHandle true ans = .ok p' := by
  unfold disArm at h
  split at h
  · cases h
  · next hfd =>
    cases hr : p.removeDevice gettid wpi.fileHandle true ans with
    | error e =>
      rw [hr] at h
      cases h
    | ok q =>
      rw [hr] at h
      obtain ⟨rfl, rfl⟩ := Prod.mk.inj (Except.ok.inj h)
      exact ⟨hfd, rfl, rfl⟩

/-- A slot with its survival counter reset. -/
def WPRegisterInfo.reset (wpi : WPRegisterInfo) : WPRegisterInfo :=
  { wpi with samplePostFull := samplesPostFullResetVal }

theorem WPRegisterInfo.alike_reset (wpi : WPRegisterInfo) : wpi.Alike wpi.reset := rfl

/-- Every way a slot comes out of being disabled by a trigger. -/
inductive Disabled (cfg : WPConfig) (gettid : ℕ) (wpi : WPRegisterInfo) (p : Platform)
    (ans : RemoveAnswers) : WPRegisterInfo → Platform → Prop
  /-- it was off -/
  | idle (hact : wpi.isActive = false) : Disabled cfg gettid wpi p ans wpi.reset p
  /-- `get_device` did not find its device -/
  | missing (hact : wpi.isActive = true) (hmod : cfg.isWPModifyEnabled = true)
      (hdev : p.getDevice wpi.threadId wpi.fileHandle = none) :
      Disabled cfg gettid wpi p ans wpi.reset p
  /-- its device was stopped -/
  | stopped (dev : Device) (hact : wpi.isActive = true) (hmod : cfg.isWPModifyEnabled = true)
      (hfd : wpi.fileHandle ≠ -1) (hdev : p.getDevice wpi.threadId wpi.fileHandle = some dev) :
      Disabled cfg gettid wpi p ans { wpi.reset with isActive := false }
        (p.setDevice wpi.threadId wpi.fileHandle dev.endDevice)
  /-- its device was removed -/
  | removed (p' : Platform) (hact : wpi.isActive = true)
      (hmod : ¬ cfg.isWPModifyEnabled = true) (hfd : wpi.fileHandle ≠ -1)
      (hrem : p.removeDevice gettid wpi.fileHandle true ans = .ok p') :
      Disabled cfg gettid wpi p ans
        { wpi.reset with fileHandle := -1, isActive := false } p'

theorem disableSlot_cases {cfg : WPConfig} {gettid : ℕ} {wpi wpi' : WPRegisterInfo}
    {p p' : Platform} {ans : RemoveAnswers}
    (h : disableSlot cfg gettid wpi p ans = .ok (wpi', p')) :
    Disabled cfg gettid wpi p ans wpi' p' := by
  unfold disableSlot at h
  cases hact : wpi.isActive with
  | false =>
    rw [hact, if_neg Bool.false_ne_true] at h
    obtain ⟨rfl, rfl⟩ := Prod.mk.inj (Except.ok.inj h)
    exact .idle hact
  | true =>
    rw [hact, if_pos rfl] at h
    split at h
    · cases h
    next wpi₁ p₁ hw =>
    obtain ⟨rfl, rfl⟩ := Prod.mk.inj (Except.ok.inj h)
    -- stopped in place, or removed
    unfold disableWatchpointWrapper at hw
    split at hw
    · next hmod =>
      obtain ⟨hfd, ⟨hnone, rfl, rfl⟩ | ⟨dev, hdev, rfl, rfl⟩⟩ := disableWatchpoint_cases hw
      · exact .missing hact hmod hnone
      · exact .stopped dev hact hmod hfd hdev
    · next hmod =>
      obtain ⟨hfd, rfl, hrem⟩ := disArm_cases hw
      exact .removed _ hact hmod hfd hrem

theorem Disabled.lowered {cfg : WPConfig} {gettid : ℕ} {wpi wpi' : WPRegisterInfo}
    {p p' : Platform} {ans : RemoveAnswers} (h : Disabled cfg gettid wpi p ans wpi' p') :
    wpi.Lowered wpi' := by
  cases h with
  | idle => exact wpi.alike_reset.lowered
  | missing => exact wpi.alike_reset.lowered
  | stopped => exact WPRegisterInfo.lowered_of_inactive rfl
  | removed => exact WPRegisterInfo.lowered_of_inactive rfl

/-- What every disabled slot preserves, the loop of `WP_DISABLE_ALL` preserves; `I`
may speak of the slots still to come. -/
theorem disableAllSlots_invariant {cfg : WPConfig} {gettid : ℕ} {ans : ℕ → RemoveAnswers}
    {I : List ℕ → Slots → Platform → Prop}
    (hstep : ∀ i is slots p wpi p', I (i :: is) slots p →
      Disabled cfg gettid (slots i) p (ans i) wpi p' → I is (Function.update slots i wpi) p')
    {is : List ℕ} {slots slots' : Slots} {p p' : Platform} (h0 : I is slots p)
    (h : disableAllSlots cfg gettid ans is slots p = .ok (slots', p')) : I [] slots' p' := by
  induction is generalizing slots p with
  | nil =>
    obtain ⟨rfl, rfl⟩ := Prod.mk.inj (Except.ok.inj h)
    exact h0
  | cons i is ih =>
    unfold disableAllSlots at h
    split at h
    · cases h
    next wpi q hd =>
    exact ih (hstep i is slots p wpi q h0 (disableSlot_cases hd)) h

/-- What every disarmed slot preserves, the loop of `WP_ThreadTerminate`
preserves. -/
theorem disArmAll_invariant {gettid : ℕ} {ans : ℕ → RemoveAnswers}
    {I : List ℕ → Slots → Platform → Prop}
    (hskip : ∀ i is slots p, I (i :: is) slots p → (slots i).fileHandle = -1 → I is slots p)
    (hstep : ∀ i is slots p p', I (i :: is) slots p → (slots i).fileHandle ≠ -1 →
      p.removeDevice gettid (slots i).fileHandle true (ans i) = .ok p' →
      I is (Function.update slots i { slots i with fileHandle := -1, isActive := false }) p')
    {is : List ℕ} {slots slots' : Slots} {p p' : Platform} (h0 : I is slots p)
    (h : disArmAll gettid ans is slots p = .ok (slots', p')) : I [] slots' p' := by
  -- over the slots that are left, which `I` is told
  induction is generalizing slots p with
  | nil =>
    obtain ⟨rfl, rfl⟩ := Prod.mk.inj (Except.ok.inj h)
    exact h0
  | cons i is ih =>
    unfold disArmAll at h
    split at h
    · next hfd =>
      split at h
      · cases h
      next wpi q hd =>
      obtain ⟨-, rfl, hrem⟩ := disArm_cases hd
      exact ih (hstep i is slots p q h0 hfd hrem) h
    · next hfd => exact ih (hskip i is slots p h0 (not_not.mp hfd)) h

/-! ### Arming a slot -/

/-- The lengths a watchpoint can have. -/
def SupportedLength (len : ℤ) : Prop := len = 1 ∨ len = 2 ∨ len = 4 ∨ len = 8

theorem hwBreakpointLen_eq_some {len n : ℤ} (h : hwBreakpointLen len = some n) :
    SupportedLength len ∧ n = len := by
  unfold hwBreakpointLen at h
  unfold SupportedLength
  split_ifs at h with h1 h2 h4 h8
  all_goals
    obtain rfl := Option.some.inj h
    omega

/-- A device moved to the range of a request. -/
def Device.movedTo (dev : Device) (r : Request) : Device :=
  { dev with
    isDisabled := false
    length := r.watchLength
    address := r.va
    type := hwBreakpointType r.watchType }

/-- The slot after its device was removed, or as it was when it was inactive. -/
def FreedFor (gettid : ℕ) (wpi : WPRegisterInfo) (p : Platform) (ans : RemoveAnswers)
    (wpi' : WPRegisterInfo) (p' : Platform) : Prop :=
  (wpi.isActive = false ∧ wpi' = wpi ∧ p' = p) ∨
    (wpi.isActive = true ∧ disArm gettid wpi p ans = .ok (wpi', p'))

/-- An active slot is disarmed, and the others are left alone. -/
theorem freedFor_of_ok {gettid : ℕ} {wpi wpi' : WPRegisterInfo} {p p' : Platform}
    {ans : RemoveAnswers}
    (h : (if wpi.isActive = true then disArm gettid wpi p ans else Except.ok (wpi, p))
      = .ok (wpi', p')) : FreedFor gettid wpi p ans wpi' p' := by
  cases hact : wpi.isActive with
  | true =>
    rw [hact, if_pos rfl] at h
    exact Or.inr ⟨hact, h⟩
  | false =>
    rw [hact, if_neg Bool.false_ne_true] at h
    obtain ⟨rfl, rfl⟩ := Prod.mk.inj (Except.ok.inj h)
    exact Or.inl ⟨hact, rfl, rfl⟩

/-- Freed either way, the slot is off. -/
theorem FreedFor.off {gettid : ℕ} {wpi wpi' : WPRegisterInfo} {p p' : Platform}
    {ans : RemoveAnswers} (h : FreedFor gettid wpi p ans wpi' p') : wpi'.isActive = false := by
  rcases h with ⟨hoff, rfl, -⟩ | ⟨-, hdis⟩
  · exact hoff
  · obtain ⟨-, rfl, -⟩ := disArm_cases hdis
    rfl

/-- Every way `ArmWatchPoint` can return: its value, and the slot, the platform
and the ghost flag it leaves. -/
inductive Armed (cfg : WPConfig) (gettid : ℕ) (wpi : WPRegisterInfo) (r : Request)
    (p : Platform) (ans : ArmAnswers) : Bool → Created → Prop
  /-- the breakpoint was moved -/
  | moved (dev : Device) (hmod : cfg.isWPModifyEnabled = true) (hfd : wpi.fileHandle ≠ -1)
      (hlen : SupportedLength r.watchLength)
      (hdev : p.getDevice wpi.threadId wpi.fileHandle = some dev)
      (hupd : (ans.update.agentOk || ans.update.ioctlOk) = true) :
      Armed cfg gettid wpi r p ans true
        ⟨wpi.arm r.va r.watchLength r.sampleEvent ans.rdtsc,
          p.setDevice wpi.threadId wpi.fileHandle (dev.movedTo r), true⟩
  /-- `get_device` did not find the device -/
  | missing (hmod : cfg.isWPModifyEnabled = true) (hfd : wpi.fileHandle ≠ -1)
      (hdev : p.getDevice wpi.threadId wpi.fileHandle = none) :
      Armed cfg gettid wpi r p ans true ⟨wpi, p, false⟩
  /-- `updateBPAddress` failed -/
  | notMoved (dev : Device) (hmod : cfg.isWPModifyEnabled = true) (hfd : wpi.fileHandle ≠ -1)
      (hdev : p.getDevice wpi.threadId wpi.fileHandle = some dev)
      (hupd : (ans.update.agentOk || ans.update.ioctlOk) = false) :
      Armed cfg gettid wpi r p ans true
        ⟨{ wpi with isActive := false },
          p.setDevice wpi.threadId wpi.fileHandle dev.endDevice, false⟩
  /-- a fresh device was opened -/
  | opened (wpi' : WPRegisterInfo) (p' p'' : Platform)
      (hmod : ¬ (cfg.isWPModifyEnabled = true ∧ wpi.fileHandle ≠ -1))
      (hlen : SupportedLength r.watchLength) (hfree : FreedFor gettid wpi p ans.remove wpi' p')
      (hreg : Platform.Registered p' gettid
        (BPDevice r.watchLength (hwBreakpointType r.watchType) r.va) (p'.sessionKey gettid)
        ans.register p'') :
      Armed cfg gettid wpi r p ans true
        ⟨{ wpi' with fileHandle := ans.register.perfEventOpen }.arm r.va r.watchLength
            r.sampleEvent ans.rdtsc, p'', true⟩
  /-- `registerDevice` failed -/
  | notOpened (wpi' : WPRegisterInfo) (p' p'' : Platform) (dev : Device)
      (hmod : ¬ (cfg.isWPModifyEnabled = true ∧ wpi.fileHandle ≠ -1))
      (hfree : FreedFor gettid wpi p ans.remove wpi' p')
      (hreg : p'.registerDevice gettid
        (BPDevice r.watchLength (hwBreakpointType r.watchType) r.va) (p'.sessionKey gettid)
        ans.register = .ok (-1, dev, p''))
      (hmap : p''.deviceMap = p'.deviceMap)
      (hfds : p''.kernel.openFds = p'.kernel.openFds ∨
        p''.kernel.openFds = ans.register.perfEventOpen :: p'.kernel.openFds) :
      Armed cfg gettid wpi r p ans false ⟨{ wpi' with fileHandle := -1 }, p'', false⟩

/-- Moving a breakpoint. -/
theorem createWatchPoint_modify {cfg : WPConfig} {gettid : ℕ} {wpi : WPRegisterInfo}
    {r : Request} {p : Platform} {ans : ArmAnswers} {c : Created}
    (hmod : cfg.isWPModifyEnabled = true)
    (h : createWatchPoint gettid wpi r.watchLength r.watchType r.va true r.sampleEvent p ans
      = .ok c) : Armed cfg gettid wpi r p ans true c := by
  unfold createWatchPoint at h
  split at h
  · cases h
  next bpLen hbp =>
  obtain ⟨hlen, rfl⟩ := hwBreakpointLen_eq_some hbp
  simp only [if_true] at h
  split at h
  · cases h
  next wpi' p' hdis =>
  obtain ⟨hfd, ⟨hnone, rfl, rfl⟩ | ⟨dev, hdev, rfl, rfl⟩⟩ := disableWatchpoint_cases hdis
  · rw [hnone] at h
    obtain rfl := Except.ok.inj h
    exact .missing hmod hfd hnone
  · -- the device was stopped, and is moved and started again if the move succeeds
    simp only [Platform.getDevice_setDevice] at h
    cases hupd : ans.update.agentOk || ans.update.ioctlOk with
    | false =>
      simp only [Device.updateBPAddress, hupd, Bool.false_eq_true, if_false] at h
      obtain rfl := Except.ok.inj h
      exact .notMoved dev hmod hfd hdev hupd
    | true =>
      simp only [Device.updateBPAddress, hupd, if_true, enableWatchpoint,
        Platform.getDevice_setDevice, Platform.setDevice_setDevice] at h
      obtain rfl := Except.ok.inj h
      exact .moved dev hmod hfd hlen hdev hupd

/-- Opening a fresh device for a slot that has none. -/
theorem createWatchPoint_fresh {cfg : WPConfig} {gettid : ℕ} {wpi wpi' : WPRegisterInfo}
    {r : Request} {p p' : Platform} {ans : ArmAnswers} {c : Created}
    (hmod : ¬ (cfg.isWPModifyEnabled = true ∧ wpi.fileHandle ≠ -1))
    (hfree : FreedFor gettid wpi p ans.remove wpi' p')
    (h : createWatchPoint gettid wpi' r.watchLength r.watchType r.va false r.sampleEvent p' ans
      = .ok c) : Armed cfg gettid wpi r p ans (decide (c.wpi.fileHandle ≠ -1)) c := by
  unfold createWatchPoint at h
  split at h
  · cases h
  next bpLen hbp =>
  obtain ⟨hlen, rfl⟩ := hwBreakpointLen_eq_some hbp
  simp only [Bool.false_eq_true, if_false] at h
  split at h
  · cases h
  next ret dev p'' hreg =>
  -- `registerDevice` gives the slot a handle, or -1 as its handle
  rcases Platform.registerDevice_cases hreg with ⟨rfl, hdev, hp⟩ | ⟨rfl, hmap, hfds⟩
  · simp only [ne_eq, not_true_eq_false, if_false] at h
    obtain rfl := Except.ok.inj h
    rw [hdev]
    have hfd : ({ wpi' with fileHandle := ans.register.perfEventOpen }.arm r.va r.watchLength
        r.sampleEvent ans.rdtsc).fileHandle ≠ -1 := hp.fd_ne
    rw [decide_eq_true hfd]
    exact .opened wpi' p' p'' hmod hlen hfree hp
  · simp only [ne_eq, reduceCtorEq, not_false_eq_true, if_true, Int.reduceNeg] at h
    obtain rfl := Except.ok.inj h
    have hfd : ¬ ({ wpi' with fileHandle := -1 } : WPRegisterInfo).fileHandle ≠ -1 :=
      not_not_intro rfl
    rw [decide_eq_false hfd]
    exact .notOpened wpi' p' p'' dev hmod hfree hreg hmap hfds

/-- **Every way `ArmWatchPoint` can return.** -/
theorem armWatchPoint_cases {cfg : WPConfig} {gettid : ℕ} {wpi : WPRegisterInfo} {r : Request}
    {p : Platform} {ans : ArmAnswers} {ok : Bool} {c : Created}
    (h : armWatchPoint cfg gettid wpi r.watchLength r.watchType r.va r.sampleEvent p ans
      = .ok (ok, c)) : Armed cfg gettid wpi r p ans ok c := by
  unfold armWatchPoint at h
  split at h
  · next hmod =>
    split at h
    · cases h
    next c' hc =>
    obtain ⟨rfl, rfl⟩ := Prod.mk.inj (Except.ok.inj h)
    exact createWatchPoint_modify hmod.1 hc
  · next hmod =>
    -- the slot gives its device up before a new one is opened
    cases hdis : (if wpi.isActive = true then disArm gettid wpi p ans.remove
      else Except.ok (wpi, p)) with
    | error e =>
      simp only [hdis] at h
      cases h
    | ok freed =>
      obtain ⟨wpi', p'⟩ := freed
      simp only [hdis] at h
      split at h
      · cases h
      next c' hc =>
      obtain ⟨rfl, rfl⟩ := Prod.mk.inj (Except.ok.inj h)
      exact createWatchPoint_fresh hmod (freedFor_of_ok hdis) hc

/-! ### `WP_Subscribe` -/

section Calls

variable {L : Type} {T : Tool L} {w w' : World L} {tid : ℕ}

/-- The second store through the thread's pointer wins. -/
theorem World.setTData_setTData (p : Platform) (a b : Option WPThreadData) :
    { w.setTData tid a with platform := p }.setTData tid b
      = { w with platform := p }.setTData tid b := by
  simp only [World.setTData, Function.update_idem]

@[simp] theorem World.setTData_platform (td : Option WPThreadData) :
    (w.setTData tid td).platform = w.platform := rfl

/-- A table found after a store through the pointer of `tid` is the one stored, or
that of another thread. -/
theorem tData_update_cases {tData : ℕ → Option WPThreadData} {t : ℕ} {td td' : WPThreadData}
    (h : Function.update tData tid (some td') t = some td) :
    (t = tid ∧ td = td') ∨ (t ≠ tid ∧ tData t = some td) := by
  by_cases ht : t = tid
  · subst ht
    rw [Function.update_self] at h
    exact Or.inl ⟨rfl, (Option.some.inj h).symm⟩
  · rw [Function.update_of_ne ht] at h
    exact Or.inr ⟨ht, h⟩

/-- The victim of a subscription. -/
def victimOf (T : Tool L) (td : WPThreadData) (ans : SubscribeAnswers) : Victim :=
  getVictim T.cfg.maxWP T.cfg.replacementPolicy td.watchPointArray ans.lrand ans.drand

/-- Choosing a victim moves survival counters only. -/
theorem victimOf_alike (T : Tool L) (td : WPThreadData) (ans : SubscribeAnswers) (i : ℕ) :
    (td.watchPointArray i).Alike ((victimOf T td ans).slots i) :=
  getVictim_slots _ _ _ _ _ i

/-- Every way `WP_Subscribe` can return: its value and the state it leaves. -/
inductive Subscribed (T : Tool L) (w : World L) (tid : ℕ) (r : Request)
    (ans : SubscribeAnswers) : ℤ → World L → Prop
  /-- the request is invalid or overlaps, or the thread has no table -/
  | refused : Subscribed T w tid r ans (-1) w
  /-- no slot is given up -/
  | noVictim (td : WPThreadData) (htd : w.tData tid = some td) :
      Subscribed T w tid r ans (-1)
        (w.setTData tid (some { td with watchPointArray := (victimOf T td ans).slots }))
  /-- a slot is armed, or arming it failed -/
  | tried (td : WPThreadData) (i : ℕ) (ok : Bool) (c : Created) (htd : w.tData tid = some td)
      (hvalid : r.watchType ≠ .inst → validateWPData r.va r.watchLength = true)
      (hover : isOveralpped T.cfg.maxWP (some td) r.va r.watchLength = false)
      (hloc : (victimOf T td ans).location = some i)
      (harm : Armed T.cfg tid ((victimOf T td ans).slots i) r w.platform ans.arm ok c) :
      Subscribed T w tid r ans (if ok then 0 else -1)
        ({ w with platform := c.platform }.setTData tid
          (some { td with
            watchPointArray := Function.update (victimOf T td ans).slots i c.wpi })
          |>.note (if c.reachedEnd then [.arm tid i r] else []))

/-- **Every way `WP_Subscribe` can return.** -/
theorem wpSubscribe_cases {r : Request} {ans : SubscribeAnswers} {ret : ℤ}
    (h : wpSubscribe T w tid r ans = .running ret w') : Subscribed T w tid r ans ret w' := by
  unfold wpSubscribe at h
  split at h
  · obtain ⟨rfl, rfl⟩ := Outcome.running.inj h
    exact .refused
  next hvalid =>
  split at h
  · obtain ⟨rfl, rfl⟩ := Outcome.running.inj h
    exact .refused
  next hover =>
  split at h
  · obtain ⟨rfl, rfl⟩ := Outcome.running.inj h
    exact .refused
  next td htd =>
  -- a thread with a table, and a request that overlaps none of its slots
  rw [htd, Bool.not_eq_true] at hover
  simp only at h
  split at h
  · obtain ⟨rfl, rfl⟩ := Outcome.running.inj h
    exact .noVictim td htd
  split at h
  · cases h
  next i hloc =>
  split at h
  · cases h
  next ok c harm =>
  have hv : r.watchType ≠ .inst → validateWPData r.va r.watchLength = true := by
    intro ht
    rw [← Bool.not_eq_false]
    exact fun hf => hvalid ⟨ht, hf⟩
  have hs := Subscribed.tried (T := T) (w := w) td i ok c htd hv hover hloc
    (armWatchPoint_cases harm)
  rw [World.setTData_setTData] at h
  cases hend : c.reachedEnd with
  | true =>
    rw [hend] at h hs
    obtain ⟨rfl, rfl⟩ := Outcome.running.inj h
    exact hs
  | false =>
    rw [hend] at h hs
    obtain ⟨rfl, rfl⟩ := Outcome.running.inj h
    exact hs

/-- A valid request is not refused for its range. -/
theorem not_refused {r : Request}
    (hvalid : r.watchType ≠ .inst → validateWPData r.va r.watchLength = true) :
    ¬ (r.watchType ≠ .inst ∧ validateWPData r.va r.watchLength = false) := by
  rintro ⟨ht, hf⟩
  rw [hvalid ht] at hf
  cases hf

/-- A valid request that overlaps nothing is tried when there is a victim. -/
theorem wpSubscribe_of_victim {r : Request} {ans : SubscribeAnswers} {ret : ℤ}
    {td : WPThreadData} {i : ℕ} (htd : w.tData tid = some td)
    (hvalid : r.watchType ≠ .inst → validateWPData r.va r.watchLength = true)
    (hfree : isOveralpped T.cfg.maxWP (some td) r.va r.watchLength = false)
    (hkind : (victimOf T td ans).kind ≠ .noneAvailable)
    (hloc : (victimOf T td ans).location = some i)
    (h : wpSubscribe T w tid r ans = .running ret w') :
    ∃ ok c, Armed T.cfg tid ((victimOf T td ans).slots i) r w.platform ans.arm ok c ∧
      w'.logic = w.logic ∧ w'.tData = Function.update w.tData tid (some { td with
        watchPointArray := Function.update (victimOf T td ans).slots i c.wpi }) := by
  unfold victimOf at hkind hloc ⊢
  unfold wpSubscribe at h
  rw [if_neg (not_refused hvalid), htd, hfree, if_neg Bool.false_ne_true] at h
  simp only [hkind, if_false, hloc] at h
  split at h
  · cases h
  next ok c harm =>
  refine ⟨ok, c, armWatchPoint_cases harm, ?_⟩
  rw [World.setTData_setTData] at h
  -- the caller learns whether the function came to its end, and returns 0 or -1
  cases hend : c.reachedEnd with
  | true =>
    rw [hend] at h
    obtain ⟨-, rfl⟩ := Outcome.running.inj h
    exact ⟨rfl, rfl⟩
  | false =>
    rw [hend] at h
    obtain ⟨-, rfl⟩ := Outcome.running.inj h
    exact ⟨rfl, rfl⟩

/-- A valid request that overlaps nothing is dropped when no slot is given up. -/
theorem wpSubscribe_noVictim {r : Request} {ans : SubscribeAnswers} {td : WPThreadData}
    (htd : w.tData tid = some td)
    (hvalid : r.watchType ≠ .inst → validateWPData r.va r.watchLength = true)
    (hfree : isOveralpped T.cfg.maxWP (some td) r.va r.watchLength = false)
    (hkind : (victimOf T td ans).kind = .noneAvailable) :
    wpSubscribe T w tid r ans = .running (-1)
      (w.setTData tid (some { td with watchPointArray := (victimOf T td ans).slots })) := by
  unfold victimOf at hkind
  unfold wpSubscribe
  rw [if_neg (not_refused hvalid), htd, hfree, if_neg Bool.false_ne_true]
  simp only [hkind, if_true, victimOf]

/-- A valid request that overlaps nothing returns when its victim can be armed. -/
theorem wpSubscribe_arms {r : Request} {ans : SubscribeAnswers} {td : WPThreadData} {i : ℕ}
    {ok : Bool} {c : Created} (htd : w.tData tid = some td)
    (hvalid : r.watchType ≠ .inst → validateWPData r.va r.watchLength = true)
    (hfree : isOveralpped T.cfg.maxWP (some td) r.va r.watchLength = false)
    (hkind : (victimOf T td ans).kind ≠ .noneAvailable)
    (hloc : (victimOf T td ans).location = some i)
    (harm : armWatchPoint T.cfg tid ((victimOf T td ans).slots i) r.watchLength r.watchType r.va
      r.sampleEvent w.platform ans.arm = .ok (ok, c)) :
    ∃ w', wpSubscribe T w tid r ans = .running (if ok then 0 else -1) w' ∧
      w'.tData = Function.update w.tData tid (some { td with
        watchPointArray := Function.update (victimOf T td ans).slots i c.wpi }) := by
  unfold victimOf at hkind hloc harm ⊢
  unfold wpSubscribe
  rw [if_neg (not_refused hvalid), htd, hfree, if_neg Bool.false_ne_true]
  simp only [hkind, if_false, hloc, World.setTData_platform, harm]
  refine ⟨_, rfl, ?_⟩
  rw [World.setTData_setTData]
  cases c.reachedEnd with
  | true => rfl
  | false => rfl

/-! ### `OnWatchPoint` -/

/-- The trigger matches slot `i`, which holds `e`. -/
structure Fires (T : Tool L) (slots : Slots) (fd : ℤ) (event : Event) (i : ℕ) (e : Event) :
    Prop where
  lt : i < T.cfg.maxWP
  active : (slots i).isActive = true
  handle : fd = (slots i).fileHandle
  holds : (slots i).sampledEvent = some e
  addr : T.addrOf e = T.addrOf event

/-- What the search finds and which pointers it follows. -/
theorem findFired_spec {slots : Slots} {fd : ℤ} {event : Event} {is : List ℕ}
    {seen seen' : List Effect} {res : Except Halt (Option (ℕ × Event))}
    (h : findFired T tid slots fd event is seen = (seen', res)) :
    (∀ i e, res = .ok (some (i, e)) → i ∈ is ∧ (slots i).isActive = true ∧
      fd = (slots i).fileHandle ∧ (slots i).sampledEvent = some e ∧
      T.addrOf e = T.addrOf event) ∧
    (res = .ok none → ∀ i ∈ is, (slots i).isActive = true → fd = (slots i).fileHandle →
      ∀ e, (slots i).sampledEvent = some e → T.addrOf e ≠ T.addrOf event) ∧
    ∀ x ∈ seen', x ∈ seen ∨ ∃ i ∈ is, (slots i).isActive = true ∧
      x = .deref tid i (slots i).sampledEvent := by
  -- over the slots; a slot is looked into when it is active and has the handle
  induction is generalizing seen with
  | nil =>
    obtain ⟨rfl, rfl⟩ := Prod.mk.inj h
    refine ⟨fun _ _ hr => ?_, fun _ i hi => ?_, fun x hx => Or.inl hx⟩
    · cases hr
    · cases hi
  | cons i is ih =>
    unfold findFired at h
    split at h
    · next hi =>
      have hself : ∀ x ∈ Effect.deref tid i (slots i).sampledEvent :: seen, x ∈ seen ∨
          ∃ j ∈ i :: is, (slots j).isActive = true ∧
            x = .deref tid j (slots j).sampledEvent := by
        intro x hx
        rcases List.mem_cons.mp hx with rfl | hx
        · exact Or.inr ⟨i, List.mem_cons_self, hi.1, rfl⟩
        · exact Or.inl hx
      split at h
      · obtain ⟨rfl, rfl⟩ := Prod.mk.inj h
        refine ⟨fun _ _ hr => ?_, fun hr => ?_, hself⟩ <;> cases hr
      next e he =>
      split at h
      · next haddr =>
        obtain ⟨rfl, rfl⟩ := Prod.mk.inj h
        refine ⟨fun j e' hr => ?_, fun hr => ?_, hself⟩
        · obtain ⟨rfl, rfl⟩ := Prod.mk.inj (Option.some.inj (Except.ok.inj hr))
          exact ⟨List.mem_cons_self, hi.1, hi.2, he, haddr⟩
        · cases hr
      next haddr =>
      -- another address: the search goes on behind this slot
      obtain ⟨h1, h2, h3⟩ := ih h
      refine ⟨fun j e' hr => ?_, fun hr j hj hact hfd e' he' => ?_, fun x hx => ?_⟩
      · obtain ⟨hj, hrest⟩ := h1 j e' hr
        exact ⟨List.mem_cons_of_mem i hj, hrest⟩
      · rcases List.mem_cons.mp hj with rfl | hj
        · obtain rfl := Option.some.inj (he.symm.trans he')
          exact haddr
        · exact h2 hr j hj hact hfd e' he'
      · rcases h3 x hx with hx | ⟨j, hj, hact, hx⟩
        · exact hself x hx
        · exact Or.inr ⟨j, List.mem_cons_of_mem i hj, hact, hx⟩
    · next hi =>
      obtain ⟨h1, h2, h3⟩ := ih h
      refine ⟨fun j e' hr => ?_, fun hr j hj hact hfd e' he' => ?_, fun x hx => ?_⟩
      · obtain ⟨hj, hrest⟩ := h1 j e' hr
        exact ⟨List.mem_cons_of_mem i hj, hrest⟩
      · rcases List.mem_cons.mp hj with rfl | hj
        · exact absurd ⟨hact, hfd⟩ hi
        · exact h2 hr j hj hact hfd e' he'
      · exact (h3 x hx).imp_right fun ⟨j, hj, hx⟩ => ⟨j, List.mem_cons_of_mem i hj, hx⟩

/-- The search that stops at a slot found the one that fired. -/
theorem findFired_fires {slots : Slots} {fd : ℤ} {event e : Event} {i : ℕ} {seen : List Effect}
    (h : findFired T tid slots fd event (List.range T.cfg.maxWP) [] = (seen, .ok (some (i, e)))) :
    Fires T slots fd event i e := by
  obtain ⟨hi, hact, hfd, he, haddr⟩ := (findFired_spec h).1 i e rfl
  exact ⟨List.mem_range.mp hi, hact, hfd, he, haddr⟩

/-- **What the switch over the action preserves.** A relation between tables and
platforms that holds at the start and survives every disabled slot holds after
the switch, for a slot that is active. -/
theorem applyAction_invariant {cfg : WPConfig} {a : WPTriggerAction} {i : ℕ}
    {td td' : WPThreadData} {p p' : Platform} {ans : ℕ → RemoveAnswers}
    {I : Slots → Platform → Prop}
    (hact : (td.watchPointArray i).isActive = true) (hi : i < cfg.maxWP)
    (hstep : ∀ j slots q wpi q', j < cfg.maxWP → I slots q →
      Disabled cfg tid (slots j) q (ans j) wpi q' → I (Function.update slots j wpi) q')
    (h0 : I td.watchPointArray p)
    (h : applyAction cfg tid a i td p ans = .ok (td', p')) : I td'.watchPointArray p' := by
  unfold applyAction at h
  cases a with
  | disable =>
    simp only at h
    split at h
    · cases h
    next wpi q hd =>
    obtain ⟨rfl, rfl⟩ := Prod.mk.inj (Except.ok.inj h)
    exact hstep i _ _ wpi q hi h0 (disableSlot_cases hd)
  | disableAll =>
    simp only at h
    split at h
    · cases h
    next slots q hd =>
    obtain ⟨rfl, rfl⟩ := Prod.mk.inj (Except.ok.inj h)
    -- the loop goes over the slots below `maxWP`
    refine (disableAllSlots_invariant
      (I := fun is slots q => (∀ j ∈ is, j < cfg.maxWP) ∧ I slots q) ?_
      ⟨fun j hj => List.mem_range.mp hj, h0⟩ hd).2
    rintro j is slots q wpi q' ⟨hlt, hI⟩ hdis
    exact ⟨fun k hk => hlt k (List.mem_cons_of_mem j hk),
      hstep j slots q wpi q' (hlt j List.mem_cons_self) hI hdis⟩
  | alreadyDisabled =>
    simp only [hact, if_true] at h
    cases h
  | retain =>
    simp only [hact, if_true] at h
    obtain ⟨rfl, rfl⟩ := Prod.mk.inj (Except.ok.inj h)
    exact h0

/-- A relation of single slots survives the update of one of them. -/
theorem rel_update {R : WPRegisterInfo → WPRegisterInfo → Prop}
    (hrefl : ∀ wpi, R wpi wpi) {slots : Slots} {k : ℕ} {wpi : WPRegisterInfo}
    (h : R (slots k) wpi) (j : ℕ) : R (slots j) (Function.update slots k wpi j) := by
  by_cases hjk : j = k
  · subst hjk
    rw [Function.update_self]
    exact h
  · rw [Function.update_of_ne hjk]
    exact hrefl _

/-- Handling a trigger of an active slot activates no slot. -/
theorem applyAction_lowered {cfg : WPConfig} {a : WPTriggerAction} {i : ℕ}
    {td td' : WPThreadData} {p p' : Platform} {ans : ℕ → RemoveAnswers}
    (hact : (td.watchPointArray i).isActive = true) (hi : i < cfg.maxWP)
    (h : applyAction cfg tid a i td p ans = .ok (td', p')) (j : ℕ) :
    (td.watchPointArray j).Lowered (td'.watchPointArray j) := by
  refine applyAction_invariant
    (I := fun slots _ => (td.watchPointArray j).Lowered (slots j)) hact hi ?_
    (WPRegisterInfo.Alike.refl _).lowered h
  intro k slots q wpi q' _ hI hdis
  exact hI.trans (rel_update (fun _ => (WPRegisterInfo.Alike.refl _).lowered) hdis.lowered j)

/-- The pointers `OnWatchPoint` follows once the slot is found, and the events it
deletes, newest first. -/
def firedEffects (T : Tool L) (w : World L) (tid : ℕ) (td : WPThreadData) (i : ℕ)
    (e event : Event) (ans : TriggerAnswers) : List Effect :=
  let d := decideAction T w.logic (td.watchPointArray i) e event ans.fixIP
  (if d.1 = .retain then [] else [.delete e, .delete event]) ++
    if d.2.2 then [.deref tid i (some e)] else []

/-- Every way `OnWatchPoint` can return. -/
inductive Handled (T : Tool L) (w : World L) (tid : ℕ) (fd : ℤ) (event : Event)
    (ans : TriggerAnswers) : World L → Prop
  /-- the thread has no table -/
  | noTable (htd : w.tData tid = none) : Handled T w tid fd event ans (w.note [.delete event])
  /-- a slot fired -/
  | fired (td td' : WPThreadData) (i : ℕ) (e : Event) (p' : Platform) (seen : List Effect)
      (htd : w.tData tid = some td) (hfire : Fires T td.watchPointArray fd event i e)
      (hseen : findFired T tid td.watchPointArray fd event (List.range T.cfg.maxWP) []
        = (seen, .ok (some (i, e))))
      (hact : applyAction T.cfg tid
        (decideAction T w.logic (td.watchPointArray i) e event ans.fixIP).1 i td w.platform
        ans.remove = .ok (td', p')) :
      Handled T w tid fd event ans
        { tData := Function.update w.tData tid (some td')
          platform := p'
          logic := (decideAction T w.logic (td.watchPointArray i) e event ans.fixIP).2.1
          oldBadAddress := w.oldBadAddress
          effects := firedEffects T w tid td i e event ans ++
            (seen ++ (.deref tid 0 (td.watchPointArray 0).sampledEvent :: w.effects)) }

/-- No active slot matches the trigger. -/
def Unmatched (T : Tool L) (slots : Slots) (fd : ℤ) (event : Event) : Prop :=
  ∀ i e, ¬ Fires T slots fd event i e

theorem findFired_unmatched {slots : Slots} {fd : ℤ} {event : Event} {seen : List Effect}
    (h : findFired T tid slots fd event (List.range T.cfg.maxWP) [] = (seen, .ok none)) :
    Unmatched T slots fd event := fun i e hf =>
  (findFired_spec h).2.1 rfl i (List.mem_range.mpr hf.lt) hf.active hf.handle e hf.holds hf.addr

/-- **Every way `OnWatchPoint` can return.** A trigger that matches no active slot
is none of them. -/
theorem onWatchPoint_cases {fd : ℤ} {event : Event} {ans : TriggerAnswers} {ret : ℤ}
    (h : onWatchPoint T w tid fd event ans = .running ret w') :
    Handled T w tid fd event ans w' := by
  unfold onWatchPoint at h
  split at h
  · next htd =>
    obtain ⟨rfl, rfl⟩ := Outcome.running.inj h
    exact .noTable htd
  -- the two loops of the sanity check may end the process
  next td htd =>
  simp only at h
  split at h
  · cases h
  split at h
  · cases h
  · next seen i e hseen =>
    unfold handleFired at h
    simp only at h
    split at h
    · cases h
    next td' p' hact =>
    obtain ⟨rfl, rfl⟩ := Outcome.running.inj h
    exact .fired td td' i e p' seen htd (findFired_fires hseen) hseen hact
  · -- no slot has fired: the loop over the slots ends the process, whatever it finds
    split at h
    · split at h <;> cases h
    · cases h

/-- Every way `WP_ThreadInit` can return. -/
theorem wpThreadInit_cases {ans : InitAnswers} {ret : ℤ}
    (h : wpThreadInit T w tid ans = .running ret w') :
    w' = w ∨ w' = (w.setTData tid (some
      { samplePostFull := samplesPostFullResetVal
        watchPointArray := initSlots T.cfg.maxWP tid ans.memory })).note [.threadInit tid] := by
  unfold wpThreadInit at h
  split at h
  · exact Or.inl (Outcome.running.inj h).2.symm
  split at h
  · exact Or.inl (Outcome.running.inj h).2.symm
  · exact Or.inr (Outcome.running.inj h).2.symm

/-- Every way `WP_ThreadTerminate` can return. -/
theorem wpThreadTerminate_cases {ans : ℕ → RemoveAnswers} {ret : ℤ}
    (h : wpThreadTerminate T w tid ans = .running ret w') :
    ∃ td slots p, w.tData tid = some td ∧
      disArmAll tid ans (List.range T.cfg.maxWP) td.watchPointArray w.platform = .ok (slots, p) ∧
      w' = { w with platform := p }.setTData tid none := by
  unfold wpThreadTerminate at h
  split at h
  · cases h
  next td htd =>
  split at h
  · cases h
  next slots p hd =>
  exact ⟨td, slots, p, htd, hd, (Outcome.running.inj h).2.symm⟩

end Calls

end Kognizance
