import Kognizance.Platform.OwnSessions
import Kognizance.Watchpoint.Bijection

/-!
# What the library calls on the platform

The library changes the platform by three calls only, all of them about breakpoint devices of
the thread it runs on: it changes a device in place, removes one, or registers one with the key
of the thread's session. `ThreadCalls` is what a sequence of such calls can do, and whatever the
three calls keep, the library keeps.

* `wpSubscribe_calls`, `onWatchPoint_calls` and `wpThreadTerminate_calls`: the library's functions
  are such sequences.
* `FreshHandle`: the kernel returns a handle that is not open when it is asked, which may be the
  one that was closed just before. `DevicesInv.subscribed` is `DevicesInv.subscribe` for such a
  kernel.
-/

namespace Kognizance

open Process

/-- What calls about breakpoint devices of thread `tid` can make of a platform. -/
inductive ThreadCalls (tid : ℕ) (p : Platform) : Platform → Prop
  | refl : ThreadCalls tid p p
  /-- A device is changed in place, and stays in its session. -/
  | changed {q : Platform} {fd : ℤ} {dev dev' : Device} (h : ThreadCalls tid p q)
      (hdev : q.getDevice tid fd = some dev) (hbp : dev.deviceType = .bpDevice)
      (hsession : dev'.sessionId = dev.sessionId) (hbp' : dev'.deviceType = .bpDevice) :
      ThreadCalls tid p (q.setDevice tid fd dev')
  | removed {q q' : Platform} {fd : ℤ} {ans : RemoveAnswers} (h : ThreadCalls tid p q)
      (hrem : q.removeDevice tid fd true ans = .ok q') : ThreadCalls tid p q'
  | registered {q q' : Platform} {len : ℤ} {bpType : ℕ} {addr : UInt64} {ans : RegisterAnswers}
      {ret : ℤ} {dev : Device} (h : ThreadCalls tid p q)
      (hfresh : ans.perfEventOpen ∉ q.kernel.openFds)
      (hreg : q.registerDevice tid (BPDevice len bpType addr) (q.sessionKey tid) ans =
        .ok (ret, dev, q')) : ThreadCalls tid p q'

namespace ThreadCalls

variable {tid : ℕ} {p q : Platform}

/-- The calls keep the sessions of all threads, when the thread is in one. -/
theorem ownSessions {ownerOf : ℤ → ℕ} {live : ℕ → Bool} (h : ThreadCalls tid p q)
    (hp : OwnSessions ownerOf live p) (hlive : live tid = true) : OwnSessions ownerOf live q := by
  induction h with
  | refl => exact hp
  | changed _ hdev _ hsession _ ih => exact ih.setDevice hdev hsession
  | removed _ hrem ih => exact ih.removeDevice hrem
  | registered _ hfresh hreg ih => exact ih.registerDevice hlive hfresh hreg

theorem sessionKey (h : ThreadCalls tid p q) : q.sessionKey = p.sessionKey := by
  induction h with
  | refl => rfl
  | changed _ _ _ _ _ ih => exact ih
  | removed _ hrem ih => exact (Platform.sessionKey_removeDevice hrem).trans ih
  | registered _ _ hreg ih => exact (Platform.registerDevice_accepted hreg).2.trans ih

/-- The devices of other threads stay as they are. -/
theorem other_thread (h : ThreadCalls tid p q) {t : ℕ} (ht : t ≠ tid) (fd : ℤ) :
    q.getDevice t fd = p.getDevice t fd := by
  have hk : ∀ fd', (t, fd) ≠ (tid, fd') := fun fd' h => ht (Prod.mk.inj h).1
  induction h with
  | refl => rfl
  | changed _ _ _ _ _ ih => exact (Platform.getDevice_setDevice_ne _ _ _ _ (hk _)).trans ih
  | removed _ hrem ih =>
    rw [Platform.removeDevice_getDevice hrem, if_neg (hk _)]
    exact ih
  | registered _ _ hreg ih =>
    rw [Platform.getDevice_registerDevice hreg, if_neg fun h => ht h.2.1]
    exact ih

/-- A device that is no breakpoint has been there before. -/
theorem other_device (h : ThreadCalls tid p q) {t : ℕ} {fd : ℤ} {dev : Device}
    (hdev : q.getDevice t fd = some dev) (hbp : dev.deviceType ≠ .bpDevice) :
    p.getDevice t fd = some dev := by
  -- over the calls; a device that one of them changes or enters is a breakpoint
  induction h with
  | refl => exact hdev
  | @changed q fd' old new _ _ _ _ hbp' ih =>
    by_cases hk : (t, fd) = (tid, fd')
    · obtain ⟨rfl, rfl⟩ := Prod.mk.inj hk
      rw [Platform.getDevice_setDevice] at hdev
      obtain rfl := Option.some.inj hdev
      exact absurd hbp' hbp
    · rw [Platform.getDevice_setDevice_ne _ _ _ _ hk] at hdev
      exact ih hdev
  | removed _ hrem ih =>
    rw [Platform.removeDevice_getDevice hrem] at hdev
    split at hdev
    · cases hdev
    · exact ih hdev
  | registered _ _ hreg ih =>
    rw [Platform.getDevice_registerDevice hreg] at hdev
    split at hdev
    · obtain rfl := Option.some.inj hdev
      exact absurd rfl hbp
    · exact ih hdev

end ThreadCalls

/-! ### Arming a slot -/

section Arm

variable {cfg : WPConfig} {tid : ℕ} {wpi : WPRegisterInfo} {p₀ p : Platform}

/-- A slot whose device is disarmed, or which is off. -/
theorem FreedFor.calls {ans : RemoveAnswers} {wpi' : WPRegisterInfo} {p' : Platform}
    (h : FreedFor tid wpi p ans wpi' p') (hp : ThreadCalls tid p₀ p) : ThreadCalls tid p₀ p' := by
  rcases h with ⟨-, -, rfl⟩ | ⟨-, hdis⟩
  · exact hp
  · obtain ⟨-, -, hrem⟩ := disArm_cases hdis
    exact hp.removed hrem

/-- `CreateWatchPoint` for a slot without a device. -/
theorem createWatchPoint_registers {len : ℤ} {type : WPAccess} {va : UInt64} {ev : Option Event}
    {ans : ArmAnswers} {c : Created}
    (h : createWatchPoint tid wpi len type va false ev p ans = .ok c) :
    ∃ bpLen ret dev, p.registerDevice tid (BPDevice bpLen (hwBreakpointType type) va)
      (p.sessionKey tid) ans.register = .ok (ret, dev, c.platform) := by
  unfold createWatchPoint at h
  split at h
  · cases h
  next bpLen hbp =>
  simp only [Bool.false_eq_true, if_false] at h
  split at h
  · cases h
  next ret dev q hreg =>
  refine ⟨bpLen, ret, dev, ?_⟩
  -- either way of it, the platform is what `registerDevice` left
  split at h
  · obtain rfl := Except.ok.inj h
    exact hreg
  · obtain rfl := Except.ok.inj h
    exact hreg

/-- **`ArmWatchPoint`** moves the device of the slot, or gives it another one. -/
theorem armWatchPoint_calls {r : Request} {ans : ArmAnswers} {ok : Bool} {c : Created}
    (hl : SlotLinked cfg p tid wpi) (hp : ThreadCalls tid p₀ p)
    (hfresh : ∀ wpi' p', FreedFor tid wpi p ans.remove wpi' p' →
      ans.register.perfEventOpen ∉ p'.kernel.openFds)
    (h : armWatchPoint cfg tid wpi r.watchLength r.watchType r.va r.sampleEvent p ans =
      .ok (ok, c)) : ThreadCalls tid p₀ c.platform := by
  have hthread := hl.thread
  unfold armWatchPoint at h
  split at h
  · next hmod =>
    split at h
    · cases h
    next c' hc =>
    obtain ⟨rfl, rfl⟩ := Prod.mk.inj (Except.ok.inj h)
    -- the device is there, and is stopped or moved
    obtain ⟨dev, hdev, hbp, -⟩ := hl.device hmod.2
    cases createWatchPoint_modify hmod.1 hc with
    | moved dev' _ _ _ hdev' _ =>
      rw [hthread] at hdev' ⊢
      obtain rfl := Option.some.inj (hdev.symm.trans hdev')
      exact hp.changed hdev hbp rfl hbp
    | missing => exact hp
    | notMoved dev' _ _ hdev' _ =>
      rw [hthread] at hdev' ⊢
      obtain rfl := Option.some.inj (hdev.symm.trans hdev')
      exact hp.changed hdev hbp rfl hbp
    | opened wpi' p' p'' hno => exact absurd hmod hno
  · next hmod =>
    cases hdis : (if wpi.isActive = true then disArm tid wpi p ans.remove
      else Except.ok (wpi, p)) with
    | error e =>
      simp only [hdis] at h
      cases h
    | ok freed =>
      obtain ⟨wpi', p'⟩ := freed
      simp only [hdis] at h
      split at h
      · cases h
      next c' hc =>
      obtain ⟨rfl, rfl⟩ := Prod.mk.inj (Except.ok.inj h)
      have hfree : FreedFor tid wpi p ans.remove wpi' p' := freedFor_of_ok hdis
      obtain ⟨bpLen, ret, dev, hreg⟩ := createWatchPoint_registers hc
      exact (hfree.calls hp).registered (hfresh wpi' p' hfree) hreg

/-- The kernel has returned the handle that was closed just before. -/
theorem slotStep_reopened {b : WPRegisterInfo} {p' q : Platform} {dev : Device} {sId : ℤ}
    {ans : RegisterAnswers} {rem : RemoveAnswers} (ho : p.Opened)
    (hrem : p.removeDevice tid wpi.fileHandle true rem = .ok p')
    (hreg : Platform.Registered p' tid dev sId ans q)
    (hfresh : ans.perfEventOpen ∉ p'.kernel.openFds) (hsame : ans.perfEventOpen = wpi.fileHandle)
    (hb : b.fileHandle = ans.perfEventOpen) (hlink : SlotLinked cfg q tid b) :
    SlotStep cfg tid wpi b p q where
  linked := hlink
  handle := Or.inl (hb.trans hsame)
  -- a device that is neither the old one nor the new one has not been touched
  frame := by
    intro t' fd h h'
    rw [hb] at h'
    rw [hreg.getDevice_ne h', Platform.removeDevice_getDevice hrem, if_neg h]
  gone := fun hne => absurd (hb.trans hsame).symm hne
  minus := by
    -- -1 is no handle that the kernel hands out
    have hne : ((tid, -1) : ℕ × ℤ) ≠ (tid, ans.perfEventOpen) := by
      intro h
      exact hreg.fd_ne (Prod.mk.inj h).2.symm
    rw [hreg.getDevice_ne hne, Platform.removeDevice_getDevice hrem, if_neg (hsame ▸ hne)]
  opened := (ho.removeDevice hrem).registered hreg hfresh

/-- Arming a slot is a slot step, when the handle is not open any more. -/
theorem rearmed_slotStep {r : Request} {ans : ArmAnswers} {ok : Bool} {c : Created}
    (hl : SlotLinked cfg p tid wpi) (ho : p.Opened)
    (hfresh : ∀ wpi' p', FreedFor tid wpi p ans.remove wpi' p' →
      ans.register.perfEventOpen ∉ p'.kernel.openFds)
    (h : Armed cfg tid wpi r p ans ok c) : SlotStep cfg tid wpi c.wpi p c.platform := by
  by_cases hopen : ans.register.perfEventOpen ∈ p.kernel.openFds
  · cases h with
    | moved dev hmod hfd hlen hdev hupd =>
      -- nothing is opened, so any answer will do
      have harm : Armed cfg tid wpi r p
          { ans with register := { ans.register with perfEventOpen := -1 } } true _ :=
        .moved dev hmod hfd hlen hdev hupd
      exact armed_slotStep hl ho (Or.inl rfl) harm
    | missing hmod hfd hdev =>
      rw [hl.thread] at hdev
      exact absurd hdev (hl.has hfd)
    | notMoved dev hmod hfd hdev hupd =>
      have harm : Armed cfg tid wpi r p
          { ans with register := { ans.register with perfEventOpen := -1 } } true _ :=
        .notMoved dev hmod hfd hdev hupd
      exact armed_slotStep hl ho (Or.inl rfl) harm
    | opened wpi' p' p'' hmod hlen hfree hreg =>
      have hnew := hfresh wpi' p' hfree
      have hthread := hfree.kept.2.trans hl.thread
      rcases hfree with ⟨-, -, rfl⟩ | ⟨hact, hdis⟩
      · exact absurd hopen hnew
      · obtain ⟨hfd, -, hrem⟩ := disArm_cases hdis
        -- only the handle of the slot has been closed
        have hsame : ans.register.perfEventOpen = wpi.fileHandle := by
          by_contra hne
          rcases Platform.removeDevice_cases hrem with ⟨-, rfl⟩ | ⟨-, -, hfds⟩
          · exact hnew hopen
          · rw [hfds] at hnew
            exact hnew ((List.mem_erase_of_ne hne).mpr hopen)
        exact slotStep_reopened ho hrem hreg hnew hsame rfl
          { thread := hthread
            off := fun h => absurd h hreg.fd_ne
            device := fun _ => ⟨_, hreg.getDevice_self, rfl, rfl, rfl, rfl⟩
            closed := nofun }
    | notOpened wpi' p' p'' dev hmod hfree hreg hmap hfds =>
      obtain ⟨hfd', hstep, -⟩ := freed_slotStep hl ho hmod hfree
      exact slotStep_notOpened hfd' hstep hmap hfds
  · exact armed_slotStep hl ho (Or.inr hopen) h

end Arm

/-! ### The functions of the library -/

section Calls

variable {L : Type} {T : Tool L} {w w' : World L} {tid : ℕ}

/-- The handle that a subscription is given is not open when the kernel is asked for it: the one
of the victim has been closed by then. -/
def FreshHandle (T : Tool L) (w : World L) (tid : ℕ) (ans : SubscribeAnswers) : Prop :=
  ∀ td i wpi p, w.tData tid = some td → (victimOf T td ans).location = some i →
    FreedFor tid ((victimOf T td ans).slots i) w.platform ans.arm.remove wpi p →
    ans.arm.register.perfEventOpen ∉ p.kernel.openFds

/-- A handle that was not open before the call will do. -/
theorem freshHandle_of_notMem {ans : SubscribeAnswers}
    (h : ans.arm.register.perfEventOpen ∉ w.platform.kernel.openFds) :
    FreshHandle T w tid ans := by
  rintro td i wpi p - - (⟨-, -, rfl⟩ | ⟨-, hdis⟩)
  · exact h
  · obtain ⟨-, -, hrem⟩ := disArm_cases hdis
    rcases Platform.removeDevice_cases hrem with ⟨-, rfl⟩ | ⟨-, -, hfds⟩
    · exact h
    · rw [hfds]
      exact fun hmem => h (List.mem_of_mem_erase hmem)

/-- What `WP_Subscribe` does outside of the logic: nothing, or it arms a slot. -/
theorem wpSubscribe_arm {r : Request} {ans : SubscribeAnswers} {ret : ℤ}
    (h : wpSubscribe T w tid r ans = .running ret w') :
    w'.platform = w.platform ∨ ∃ td i ok c, w.tData tid = some td ∧
      (victimOf T td ans).location = some i ∧
      armWatchPoint T.cfg tid ((victimOf T td ans).slots i) r.watchLength r.watchType r.va
        r.sampleEvent w.platform ans.arm = .ok (ok, c) ∧ w'.platform = c.platform := by
  unfold wpSubscribe at h
  -- the returns before a slot is armed, in the order of the source
  split at h
  · obtain ⟨-, rfl⟩ := Outcome.running.inj h
    exact Or.inl rfl
  split at h
  · obtain ⟨-, rfl⟩ := Outcome.running.inj h
    exact Or.inl rfl
  split at h
  · obtain ⟨-, rfl⟩ := Outcome.running.inj h
    exact Or.inl rfl
  next td htd =>
  dsimp only at h
  split at h
  · obtain ⟨-, rfl⟩ := Outcome.running.inj h
    exact Or.inl rfl
  split at h
  · cases h
  next i hloc =>
  split at h
  · cases h
  next ok c harm =>
  -- whether or not `CreateWatchPoint` came to its end, the platform is the same
  refine Or.inr ⟨td, i, ok, c, htd, hloc, harm, ?_⟩
  obtain ⟨-, rfl⟩ := Outcome.running.inj h
  split
  · rfl
  · rfl

/-- The slots keep their devices while a victim is chosen. -/
theorem DevicesInv.linked_victim (h : DevicesInv T w) {td : WPThreadData}
    (htd : w.tData tid = some td) (ans : SubscribeAnswers) {i : ℕ}
    (hloc : (victimOf T td ans).location = some i) :
    i < T.cfg.maxWP ∧ SlotLinked T.cfg w.platform tid ((victimOf T td ans).slots i) := by
  have hi : i < T.cfg.maxWP := getVictim_lt hloc
  exact ⟨hi, ((h.linked tid td htd).alike (victimOf_alike T td ans)).linked i hi⟩

/-- **`WP_Subscribe`** calls nothing else. -/
theorem wpSubscribe_calls {r : Request} {ans : SubscribeAnswers} {ret : ℤ} (hinv : DevicesInv T w)
    (hfresh : FreshHandle T w tid ans) (h : wpSubscribe T w tid r ans = .running ret w') :
    ThreadCalls tid w.platform w'.platform := by
  rcases wpSubscribe_arm h with heq | ⟨td, i, ok, c, htd, hloc, harm, heq⟩
  · rw [heq]
    exact .refl
  · rw [heq]
    exact armWatchPoint_calls (hinv.linked_victim htd ans hloc).2 .refl
      (fun wpi p => hfresh td i wpi p htd hloc) harm

/-- `WP_Subscribe` keeps slots and devices in step. -/
theorem DevicesInv.subscribed {r : Request} {ans : SubscribeAnswers} {ret : ℤ}
    (h : DevicesInv T w) (hfresh : FreshHandle T w tid ans)
    (hs : Subscribed T w tid r ans ret w') : DevicesInv T w' :=
  h.subscribe_of_slotStep
    (fun td i _ _ htd hloc hlinked harm =>
      rearmed_slotStep hlinked h.opened (fun wpi p => hfresh td i wpi p htd hloc) harm) hs

/-- A slot that is disabled. -/
theorem Disabled.calls {cfg : WPConfig} {wpi wpi' : WPRegisterInfo} {p₀ p q : Platform}
    {ans : RemoveAnswers} (h : Disabled cfg tid wpi p ans wpi' q) (hl : SlotLinked cfg p tid wpi)
    (hp : ThreadCalls tid p₀ p) : ThreadCalls tid p₀ q := by
  cases h with
  | idle => exact hp
  | missing => exact hp
  | stopped dev _ _ hfd hdev =>
    obtain ⟨dev', hdev', hbp, -⟩ := hl.device hfd
    rw [hl.thread] at hdev ⊢
    obtain rfl := Option.some.inj (hdev.symm.trans hdev')
    exact hp.changed hdev hbp rfl hbp
  | removed _ _ _ _ hrem => exact hp.removed hrem

/-- **`OnWatchPoint`** calls nothing else. -/
theorem onWatchPoint_calls {fd : ℤ} {event : Event} {ans : TriggerAnswers} (hinv : DevicesInv T w)
    (hh : Handled T w tid fd event ans w') : ThreadCalls tid w.platform w'.platform := by
  cases hh with
  | noTable => exact .refl
  | fired td td' i e p' seen htd hfire hseen hact =>
    refine (applyAction_invariant
      (I := fun slots q => ThreadInv T.cfg w.platform tid slots q ∧
        ThreadCalls tid w.platform q) hfire.active hfire.lt ?_ ⟨hinv.threadInv htd, .refl⟩ hact).2
    rintro j slots q wpi q' hj ⟨hI, hcalls⟩ hd
    have hl := hI.table.linked j hj
    exact ⟨hI.slotStep hj (disabled_slotStep hl hI.opened hd), hd.calls hl hcalls⟩

/-- **`WP_ThreadTerminate`** calls nothing else. -/
theorem wpThreadTerminate_calls {ans : ℕ → RemoveAnswers} {ret : ℤ}
    (h : wpThreadTerminate T w tid ans = .running ret w') :
    ThreadCalls tid w.platform w'.platform := by
  obtain ⟨td, slots, p, -, hd, rfl⟩ := wpThreadTerminate_cases h
  refine disArmAll_invariant (I := fun _ _ q => ThreadCalls tid w.platform q) ?_ ?_ .refl hd
  · intro _ _ _ _ hcalls _
    exact hcalls
  · intro _ _ _ _ _ hcalls _ hrem
    exact hcalls.removed hrem

/-- `WP_ThreadTerminate` returns when the thread has a table and its devices can be closed. -/
theorem wpThreadTerminate_returns {ans : ℕ → RemoveAnswers}
    (hans : ∀ i, (ans i).munmapOk = true ∧ (ans i).closeOk = true) :
    (∃ ret w', wpThreadTerminate T w tid ans = .running ret w') ↔ w.tData tid ≠ none := by
  -- the loop over the table, whatever the calls before have left
  have hloop : ∀ (is : List ℕ) (slots : Slots) (p : Platform),
      ∃ r, disArmAll tid ans is slots p = .ok r := by
    intro is
    induction is with
    | nil => exact fun slots p => ⟨(slots, p), rfl⟩
    | cons i is ih =>
      intro slots p
      unfold disArmAll
      by_cases hfd : (slots i).fileHandle ≠ -1
      · obtain ⟨q, hq⟩ := Platform.removeDevice_succeeds (hans i) p tid (slots i).fileHandle true
        rw [if_pos hfd, disArm, if_neg hfd, hq]
        exact ih _ _
      · rw [if_neg hfd]
        exact ih _ _
  unfold wpThreadTerminate
  cases htd : w.tData tid with
  | none =>
    -- a thread without a table follows the null pointer
    refine iff_of_false ?_ fun h => h rfl
    rintro ⟨ret, w', h⟩
    cases h
  | some td =>
    refine iff_of_true ?_ (Option.some_ne_none td)
    obtain ⟨r, hr⟩ := hloop (List.range T.cfg.maxWP) td.watchPointArray w.platform
    dsimp only
    rw [hr]
    exact ⟨_, _, rfl⟩

end Calls

end Kognizance
