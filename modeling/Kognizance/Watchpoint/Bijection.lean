import Kognizance.Watchpoint.EventLife

/-!
# Slots and breakpoint devices

The handle of a watchpoint is kept in its slot, its device and `deviceMap`. In
every state a run reaches, the three agree (`bijection_of_run`): the slots of a
thread that have a handle are, one by one, the breakpoint devices of the thread,
a slot and its device have the same range, and a slot is active exactly when its
device is not marked disabled. So resuming the devices never enables a
watchpoint that its table regards as off.

The run may fail at any system or hypervisor call. What is assumed is that
`perf_event_open` returns handles that are not open (`DevicesCond`), and that a
thread creates its table once.

* `SlotStep`: what one function may do to one slot and the platform.
* `ThreadInv.slotStep`: such a step keeps the table and the devices in step.
* `armed_slotStep` and `disabled_slotStep`: arming and disabling are such steps.
-/

namespace Kognizance

open Process

/-! ### One slot and its device -/

/-- The slot belongs to the thread; without a handle it is off; with one, its device
is in the map and agrees with it. Without in-place modification a slot that is off
has no handle. -/
structure SlotLinked (cfg : WPConfig) (p : Platform) (t : ℕ) (wpi : WPRegisterInfo) : Prop where
  thread : wpi.threadId = t
  off : wpi.fileHandle = -1 → wpi.isActive = false
  device : wpi.fileHandle ≠ -1 → ∃ dev, p.getDevice t wpi.fileHandle = some dev ∧
    dev.deviceType = .bpDevice ∧ dev.address = wpi.va ∧ dev.length = wpi.wpLength ∧
    wpi.isActive = !dev.isDisabled
  closed : cfg.isWPModifyEnabled = false → wpi.isActive = false → wpi.fileHandle = -1

/-- Every device in the map has an open handle, and no two threads have devices with
the same handle. -/
structure Platform.Opened (p : Platform) : Prop where
  isOpen : ∀ t fd, p.Has t fd → fd ∈ p.kernel.openFds
  unique : ∀ t t' fd, p.Has t fd → p.Has t' fd → t = t'

/-- What a function may do to a slot `a` of thread `t`: the handle stays, is closed,
or is a fresh one; no other device changes, and a handle given up has none. -/
structure SlotStep (cfg : WPConfig) (t : ℕ) (a b : WPRegisterInfo) (p q : Platform) : Prop where
  linked : SlotLinked cfg q t b
  handle : b.fileHandle = a.fileHandle ∨ b.fileHandle = -1 ∨ b.fileHandle ∉ p.kernel.openFds
  frame : ∀ t' fd, (t', fd) ≠ (t, a.fileHandle) → (t', fd) ≠ (t, b.fileHandle) →
    q.getDevice t' fd = p.getDevice t' fd
  gone : a.fileHandle ≠ b.fileHandle → a.fileHandle ≠ -1 → q.getDevice t a.fileHandle = none
  minus : q.getDevice t (-1) = p.getDevice t (-1)
  opened : q.Opened

namespace SlotLinked

variable {cfg : WPConfig} {p : Platform} {t : ℕ} {wpi : WPRegisterInfo}

theorem has (h : SlotLinked cfg p t wpi) (hfd : wpi.fileHandle ≠ -1) :
    p.Has t wpi.fileHandle := by
  obtain ⟨dev, hdev, -⟩ := h.device hfd
  unfold Platform.Has
  rw [hdev]
  exact Option.some_ne_none dev

theorem handle_ne (h : SlotLinked cfg p t wpi) (hact : wpi.isActive = true) :
    wpi.fileHandle ≠ -1 := by
  intro hfd
  rw [h.off hfd] at hact
  cases hact

theorem alike {b : WPRegisterInfo} (h : SlotLinked cfg p t wpi) (hb : wpi.Alike b) :
    SlotLinked cfg p t b := by
  rw [hb]
  exact ⟨h.thread, h.off, h.device, h.closed⟩

theorem congr {q : Platform} (h : SlotLinked cfg p t wpi)
    (hq : q.getDevice t wpi.fileHandle = p.getDevice t wpi.fileHandle) :
    SlotLinked cfg q t wpi where
  thread := h.thread
  off := h.off
  device := fun hfd => by
    rw [hq]
    exact h.device hfd
  closed := h.closed

end SlotLinked

/-! ### The platform's handles -/

theorem has_setDevice {p : Platform} {t t' : ℕ} {fd fd' : ℤ} {dev : Device} (h : p.Has t fd)
    (h' : (p.setDevice t fd dev).Has t' fd') : p.Has t' fd' := by
  by_cases hk : (t', fd') = (t, fd)
  · obtain ⟨rfl, rfl⟩ := Prod.mk.inj hk
    exact h
  · unfold Platform.Has at h'
    rw [Platform.getDevice_setDevice_ne p t fd dev hk] at h'
    exact h'

theorem Platform.Opened.setDevice {p : Platform} {t : ℕ} {fd : ℤ} {dev : Device}
    (h : p.Opened) (hhas : p.Has t fd) : (p.setDevice t fd dev).Opened where
  isOpen := fun t' fd' h' => h.isOpen t' fd' (has_setDevice hhas h')
  unique := fun t' t'' fd' h' h'' =>
    h.unique t' t'' fd' (has_setDevice hhas h') (has_setDevice hhas h'')

/-- Removing a device closes its handle and no other device's. -/
theorem Platform.Opened.removeDevice {p q : Platform} {t : ℕ} {fd : ℤ} {b : Bool}
    {ans : RemoveAnswers} (h : p.Opened) (hrem : p.removeDevice t fd b ans = .ok q) :
    q.Opened := by
  have hhas : ∀ t' fd', q.Has t' fd' → (t', fd') ≠ (t, fd) ∧ p.Has t' fd' := by
    intro t' fd' h'
    unfold Platform.Has at h'
    rw [Platform.removeDevice_getDevice hrem] at h'
    split_ifs at h' with hk
    · exact absurd rfl h'
    · exact ⟨hk, h'⟩
  refine ⟨fun t' fd' h' => ?_, fun t' t'' fd' h' h'' =>
    h.unique t' t'' fd' (hhas t' fd' h').2 (hhas t'' fd' h'').2⟩
  obtain ⟨hk, hp⟩ := hhas t' fd' h'
  have hmem := h.isOpen t' fd' hp
  rcases Platform.removeDevice_cases hrem with ⟨-, rfl⟩ | ⟨hdev, -, hfds⟩
  · exact hmem
  · rw [hfds]
    -- the same handle under another thread would be a second owner
    have hne : fd' ≠ fd := by
      rintro rfl
      exact hk (Prod.ext (h.unique t' t fd' hp hdev) rfl)
    exact (List.mem_erase_of_ne hne).mpr hmem

/-- Registering a device under a handle that was not open. -/
theorem Platform.Opened.registered {p q : Platform} {t : ℕ} {dev : Device} {sId : ℤ}
    {ans : RegisterAnswers} (h : p.Opened) (hreg : Platform.Registered p t dev sId ans q)
    (hnew : ans.perfEventOpen ∉ p.kernel.openFds) : q.Opened := by
  -- what the map holds now is the new device, or another one under another handle
  have hhas : ∀ t' fd', q.Has t' fd' →
      (t', fd') = (t, ans.perfEventOpen) ∨ (fd' ≠ ans.perfEventOpen ∧ p.Has t' fd') := by
    intro t' fd' h'
    by_cases hk : (t', fd') = (t, ans.perfEventOpen)
    · exact Or.inl hk
    · unfold Platform.Has at h'
      rw [hreg.getDevice_ne hk] at h'
      refine Or.inr ⟨?_, h'⟩
      rintro rfl
      exact hnew (h.isOpen t' _ h')
  refine ⟨fun t' fd' h' => ?_, fun t' t'' fd' h' h'' => ?_⟩
  · rw [hreg.openFds]
    rcases hhas t' fd' h' with hk | ⟨-, hp⟩
    · rw [(Prod.mk.inj hk).2]
      exact List.mem_cons_self
    · exact List.mem_cons_of_mem _ (h.isOpen t' fd' hp)
  · -- two devices under one handle are both new, or both were there before
    rcases hhas t' fd' h' with hk | ⟨hne, hp⟩ <;> rcases hhas t'' fd' h'' with hk' | ⟨hne', hp'⟩
    · exact (Prod.mk.inj hk).1.trans (Prod.mk.inj hk').1.symm
    · exact absurd (Prod.mk.inj hk).2 hne'
    · exact absurd (Prod.mk.inj hk').2 hne
    · exact h.unique t' t'' fd' hp hp'

/-! ### Disabling and arming are slot steps -/

section Steps

variable {cfg : WPConfig} {t : ℕ} {wpi : WPRegisterInfo} {p : Platform}

/-- Nothing but a survival counter changes. -/
theorem slotStep_alike {b : WPRegisterInfo} (hl : SlotLinked cfg p t wpi) (ho : p.Opened)
    (hb : wpi.Alike b) : SlotStep cfg t wpi b p p where
  linked := hl.alike hb
  handle := Or.inl (by rw [hb])
  frame := fun _ _ _ _ => rfl
  gone := fun hne => absurd (by rw [hb]) hne
  minus := rfl
  opened := ho

/-- The device of the slot is changed in place. -/
theorem slotStep_setDevice {b : WPRegisterInfo} {dev : Device} (ho : p.Opened)
    (hhas : p.Has t wpi.fileHandle) (hfd : wpi.fileHandle ≠ -1)
    (hb : b.fileHandle = wpi.fileHandle)
    (hlink : SlotLinked cfg (p.setDevice t wpi.fileHandle dev) t b) :
    SlotStep cfg t wpi b p (p.setDevice t wpi.fileHandle dev) where
  linked := hlink
  handle := Or.inl hb
  frame := fun _ _ h _ => Platform.getDevice_setDevice_ne p _ _ dev h
  gone := fun hne => absurd hb.symm hne
  minus := Platform.getDevice_setDevice_ne p _ _ dev fun h => hfd (Prod.mk.inj h).2.symm
  opened := ho.setDevice hhas

/-- The device of the slot is removed. -/
theorem slotStep_removed {b : WPRegisterInfo} {q : Platform} {ans : RemoveAnswers}
    (ho : p.Opened) (hfd : wpi.fileHandle ≠ -1) (hthread : b.threadId = t)
    (hb : b.fileHandle = -1) (hoff : b.isActive = false)
    (hrem : p.removeDevice t wpi.fileHandle true ans = .ok q) :
    SlotStep cfg t wpi b p q where
  linked := ⟨hthread, fun _ => hoff, fun h => absurd hb h, fun _ _ => hb⟩
  handle := Or.inr (Or.inl hb)
  frame := fun t' fd h _ => by rw [Platform.removeDevice_getDevice hrem, if_neg h]
  gone := fun _ _ => by rw [Platform.removeDevice_getDevice hrem, if_pos rfl]
  minus := by
    rw [Platform.removeDevice_getDevice hrem, if_neg fun h => hfd (Prod.mk.inj h).2.symm]
  opened := ho.removeDevice hrem

/-- **Disabling a slot is a slot step.** -/
theorem disabled_slotStep {wpi' : WPRegisterInfo} {q : Platform} {ans : RemoveAnswers}
    (hl : SlotLinked cfg p t wpi) (ho : p.Opened) (h : Disabled cfg t wpi p ans wpi' q) :
    SlotStep cfg t wpi wpi' p q := by
  have hthread := hl.thread
  cases h with
  | idle hact => exact slotStep_alike hl ho wpi.alike_reset
  | missing hact hmod hdev =>
    rw [hthread] at hdev
    exact absurd hdev (hl.has (hl.handle_ne hact))
  | stopped dev hact hmod hfd hdev =>
    rw [hthread] at hdev ⊢
    obtain ⟨dev', hdev', hbp, haddr, hlen, -⟩ := hl.device hfd
    obtain rfl := Option.some.inj (hdev.symm.trans hdev')
    refine slotStep_setDevice ho (hl.has hfd) hfd rfl ⟨hthread, fun _ => rfl, fun _ => ?_,
      fun hm => ?_⟩
    · exact ⟨dev.endDevice, Platform.getDevice_setDevice p t _ _, hbp, haddr, hlen, rfl⟩
    · rw [hmod] at hm
      cases hm
  | removed q hact hmod hfd hrem => exact slotStep_removed ho hfd hthread rfl rfl hrem

/-- A slot that is freed for a fresh device has no handle left, and no device under
the one it had. -/
theorem freed_slotStep {wpi' : WPRegisterInfo} {p' : Platform} {ans : RemoveAnswers}
    (hl : SlotLinked cfg p t wpi) (ho : p.Opened)
    (hmod : ¬ (cfg.isWPModifyEnabled = true ∧ wpi.fileHandle ≠ -1))
    (hfree : FreedFor t wpi p ans wpi' p') :
    wpi'.fileHandle = -1 ∧ SlotStep cfg t wpi wpi' p p' ∧
      ∀ fd, fd ∉ p.kernel.openFds → fd ∉ p'.kernel.openFds := by
  rcases hfree with ⟨hoff, rfl, rfl⟩ | ⟨hact, hdis⟩
  · refine ⟨?_, slotStep_alike hl ho (.refl _), fun _ h => h⟩
    by_contra hfd
    cases hm : cfg.isWPModifyEnabled with
    | true => exact hmod ⟨hm, hfd⟩
    | false => exact hfd (hl.closed hm hoff)
  · obtain ⟨hfd, rfl, hrem⟩ := disArm_cases hdis
    refine ⟨rfl, slotStep_removed ho hfd hl.thread rfl rfl hrem, fun fd h hmem => h ?_⟩
    rcases Platform.removeDevice_cases hrem with ⟨-, rfl⟩ | ⟨-, -, hfds⟩
    · exact hmem
    · rw [hfds] at hmem
      exact List.mem_of_mem_erase hmem

/-- A slot step into a platform that has the same devices and closes no handle. -/
theorem SlotStep.congr {b : WPRegisterInfo} {q q' : Platform} (h : SlotStep cfg t wpi b p q)
    (hmap : q'.deviceMap = q.deviceMap)
    (hfds : ∀ fd ∈ q.kernel.openFds, fd ∈ q'.kernel.openFds) : SlotStep cfg t wpi b p q' := by
  have hget : ∀ t' fd, q'.getDevice t' fd = q.getDevice t' fd := by
    intro t' fd
    unfold Platform.getDevice
    rw [hmap]
  have hhas : ∀ t' fd, q'.Has t' fd → q.Has t' fd := by
    intro t' fd hq
    unfold Platform.Has at hq
    rwa [hget] at hq
  -- every part of the step speaks of the map, which is the same
  exact
    { linked := h.linked.congr (hget _ _)
      handle := h.handle
      frame := fun t' fd h₁ h₂ => (hget t' fd).trans (h.frame t' fd h₁ h₂)
      gone := fun h₁ h₂ => (hget _ _).trans (h.gone h₁ h₂)
      minus := (hget _ _).trans h.minus
      opened :=
        { isOpen := fun t' fd hq => hfds fd (h.opened.isOpen t' fd (hhas t' fd hq))
          unique := fun t' t'' fd hq hq' =>
            h.opened.unique t' t'' fd (hhas t' fd hq) (hhas t'' fd hq') } }

/-- A device opened under a fresh handle, for a slot that was freed. -/
theorem slotStep_registered {wpi' b : WPRegisterInfo} {p' q : Platform} {dev : Device} {sId : ℤ}
    {ans : RegisterAnswers} (hl : SlotLinked cfg p t wpi) (ho : p.Opened)
    (hfd : wpi'.fileHandle = -1) (hstep : SlotStep cfg t wpi wpi' p p')
    (hfresh : ans.perfEventOpen ∉ p.kernel.openFds)
    (hfresh' : ans.perfEventOpen ∉ p'.kernel.openFds)
    (hreg : Platform.Registered p' t dev sId ans q) (hb : b.fileHandle = ans.perfEventOpen)
    (hlink : SlotLinked cfg q t b) : SlotStep cfg t wpi b p q := by
  -- the old handle was open, so the fresh one differs from it
  have hne : wpi.fileHandle ≠ -1 → wpi.fileHandle ≠ ans.perfEventOpen :=
    fun hold heq => hfresh (heq ▸ ho.isOpen t _ (hl.has hold))
  refine ⟨hlink, Or.inr (Or.inr (hb ▸ hfresh)), fun t' fd h h' => ?_, fun _ hold => ?_, ?_,
    hstep.opened.registered hreg hfresh'⟩
  · rw [hb] at h'
    rw [hreg.getDevice_ne h']
    by_cases hk : (t', fd) = (t, wpi'.fileHandle)
    · obtain ⟨rfl, rfl⟩ := Prod.mk.inj hk
      rw [hfd]
      exact hstep.minus
    · exact hstep.frame t' fd h hk
  · rw [hreg.getDevice_ne fun h => hne hold (Prod.mk.inj h).2]
    exact hstep.gone (fun h => hold (h.trans hfd)) hold
  · rw [hreg.getDevice_ne fun h => hreg.fd_ne (Prod.mk.inj h).2.symm]
    exact hstep.minus

/-- No device is opened for a slot that was freed. -/
theorem slotStep_notOpened {wpi' : WPRegisterInfo} {p' q : Platform} {fd : ℤ}
    (hfd : wpi'.fileHandle = -1) (hstep : SlotStep cfg t wpi wpi' p p')
    (hmap : q.deviceMap = p'.deviceMap)
    (hfds : q.kernel.openFds = p'.kernel.openFds ∨ q.kernel.openFds = fd :: p'.kernel.openFds) :
    SlotStep cfg t wpi { wpi' with fileHandle := -1 } p q := by
  -- the slot has lost its handle before
  have hwpi : ({ wpi' with fileHandle := -1 } : WPRegisterInfo) = wpi' := by
    rw [← hfd]
  rw [hwpi]
  refine hstep.congr hmap fun fd hmem => ?_
  rcases hfds with hfds | hfds
  · rw [hfds]
    exact hmem
  · rw [hfds]
    exact List.mem_cons_of_mem _ hmem

/-- **Arming a slot is a slot step**, when a handle that is opened is fresh. -/
theorem armed_slotStep {r : Request} {ans : ArmAnswers} {ok : Bool} {c : Created}
    (hl : SlotLinked cfg p t wpi) (ho : p.Opened)
    (hnew : ans.register.perfEventOpen = -1 ∨ ans.register.perfEventOpen ∉ p.kernel.openFds)
    (h : Armed cfg t wpi r p ans ok c) : SlotStep cfg t wpi c.wpi p c.platform := by
  have hthread := hl.thread
  cases h with
  | moved dev hmod hfd hlen hdev hupd =>
    -- the device of the slot follows it to the new address
    rw [hthread] at hdev ⊢
    obtain ⟨dev', hdev', hbp, -⟩ := hl.device hfd
    obtain rfl := Option.some.inj (hdev.symm.trans hdev')
    refine slotStep_setDevice ho (hl.has hfd) hfd rfl ⟨hthread, fun h => absurd h hfd,
      fun _ => ?_, fun hm => ?_⟩
    · exact ⟨dev.movedTo r, Platform.getDevice_setDevice p t _ _, hbp, rfl, rfl, rfl⟩
    · rw [hmod] at hm
      cases hm
  | missing hmod hfd hdev =>
    rw [hthread] at hdev
    exact absurd hdev (hl.has hfd)
  | notMoved dev hmod hfd hdev hupd =>
    -- the slot is off and so is its device
    rw [hthread] at hdev ⊢
    obtain ⟨dev', hdev', hbp, haddr, hlen, -⟩ := hl.device hfd
    obtain rfl := Option.some.inj (hdev.symm.trans hdev')
    refine slotStep_setDevice ho (hl.has hfd) hfd rfl ⟨rfl, fun _ => rfl, fun _ => ?_,
      fun hm => ?_⟩
    · exact ⟨dev.endDevice, Platform.getDevice_setDevice p t _ _, hbp, haddr, hlen, rfl⟩
    · rw [hmod] at hm
      cases hm
  | opened wpi' p' p'' hmod hlen hfree hreg =>
    -- a slot that was freed gets a device of its own
    obtain ⟨hfd', hstep, hsub⟩ := freed_slotStep hl ho hmod hfree
    have hfresh : ans.register.perfEventOpen ∉ p.kernel.openFds :=
      hnew.resolve_left hreg.fd_ne
    exact slotStep_registered hl ho hfd' hstep hfresh (hsub _ hfresh) hreg rfl
      { thread := hfree.kept.2.trans hthread
        off := fun h => absurd h hreg.fd_ne
        device := fun _ => ⟨_, hreg.getDevice_self, rfl, rfl, rfl, rfl⟩
        closed := nofun }
  | notOpened wpi' p' p'' dev hmod hfree hreg hmap hfds =>
    obtain ⟨hfd', hstep, -⟩ := freed_slotStep hl ho hmod hfree
    exact slotStep_notOpened hfd' hstep hmap hfds

end Steps

/-! ### The table of a thread -/

/-- The slots with a handle are, one by one, the breakpoint devices of the thread. -/
structure TableLinked (cfg : WPConfig) (p : Platform) (t : ℕ) (slots : Slots) : Prop where
  injective : ∀ i j, i < cfg.maxWP → j < cfg.maxWP → (slots i).fileHandle ≠ -1 →
    (slots i).fileHandle = (slots j).fileHandle → i = j
  linked : ∀ i, i < cfg.maxWP → SlotLinked cfg p t (slots i)
  covered : ∀ fd dev, p.getDevice t fd = some dev → dev.deviceType = .bpDevice →
    fd ≠ -1 ∧ ∃ i, i < cfg.maxWP ∧ (slots i).fileHandle = fd

/-- The table of thread `t` and the platform, while a call works on them; the other
threads' devices are those of `p₀`. -/
structure ThreadInv (cfg : WPConfig) (p₀ : Platform) (t : ℕ) (slots : Slots) (p : Platform) :
    Prop where
  table : TableLinked cfg p t slots
  opened : p.Opened
  others : ∀ t' fd, t' ≠ t → p.getDevice t' fd = p₀.getDevice t' fd

/-- **A slot step keeps the table and the devices in step.** -/
theorem ThreadInv.slotStep {cfg : WPConfig} {p₀ p q : Platform} {t i : ℕ} {slots : Slots}
    {b : WPRegisterInfo} (h : ThreadInv cfg p₀ t slots p) (hi : i < cfg.maxWP)
    (hs : SlotStep cfg t (slots i) b p q) :
    ThreadInv cfg p₀ t (Function.update slots i b) q := by
  -- another slot's handle is neither the old nor the new one of slot `i`
  have hne : ∀ j, j < cfg.maxWP → j ≠ i → (slots j).fileHandle ≠ -1 →
      (slots j).fileHandle ≠ (slots i).fileHandle ∧ (slots j).fileHandle ≠ b.fileHandle := by
    intro j hj hji hfd
    have hold : (slots j).fileHandle ≠ (slots i).fileHandle :=
      fun heq => hji (h.table.injective j i hj hi hfd heq)
    refine ⟨hold, fun heq => ?_⟩
    rcases hs.handle with hb | hb | hb
    · exact hold (heq.trans hb)
    · exact hfd (heq.trans hb)
    · exact hb (heq ▸ h.opened.isOpen t _ ((h.table.linked j hj).has hfd))
  refine ⟨⟨fun j k hj hk hfd heq => ?_, fun j hj => ?_, fun fd dev hdev hbp => ?_⟩, hs.opened,
    fun t' fd ht => ?_⟩
  · -- two slots with one handle: by whether the step was on one of them
    by_cases hji : j = i <;> by_cases hki : k = i
    · exact hji.trans hki.symm
    · subst hji
      rw [Function.update_self] at hfd heq
      rw [Function.update_of_ne hki] at heq
      exact absurd heq.symm (hne k hk hki (heq ▸ hfd)).2
    · subst hki
      rw [Function.update_of_ne hji] at hfd heq
      rw [Function.update_self] at heq
      exact absurd heq (hne j hj hji hfd).2
    · rw [Function.update_of_ne hji] at hfd heq
      rw [Function.update_of_ne hki] at heq
      exact h.table.injective j k hj hk hfd heq
  · -- the other slots keep their devices
    by_cases hji : j = i
    · subst hji
      rw [Function.update_self]
      exact hs.linked
    · rw [Function.update_of_ne hji]
      have hl := h.table.linked j hj
      by_cases hfd : (slots j).fileHandle = -1
      · refine hl.congr ?_
        rw [hfd]
        exact hs.minus
      · obtain ⟨h1, h2⟩ := hne j hj hji hfd
        exact hl.congr (hs.frame t _ (fun hc => h1 (Prod.mk.inj hc).2)
          fun hc => h2 (Prod.mk.inj hc).2)
  · -- a breakpoint device is in slot `i` now, or still where it was
    by_cases hminus : fd = -1
    · subst hminus
      rw [hs.minus] at hdev
      exact absurd rfl (h.table.covered _ dev hdev hbp).1
    · refine ⟨hminus, ?_⟩
      by_cases hb : fd = b.fileHandle
      · exact ⟨i, hi, by rw [Function.update_self]; exact hb.symm⟩
      · have hold : fd ≠ (slots i).fileHandle := by
          rintro rfl
          rw [hs.gone hb hminus] at hdev
          cases hdev
        rw [hs.frame t fd (fun hc => hold (Prod.mk.inj hc).2)
          fun hc => hb (Prod.mk.inj hc).2] at hdev
        obtain ⟨-, j, hj, hfd⟩ := h.table.covered fd dev hdev hbp
        have hji : j ≠ i := by
          rintro rfl
          exact hold hfd.symm
        refine ⟨j, hj, ?_⟩
        rw [Function.update_of_ne hji]
        exact hfd
  · rw [hs.frame t' fd (fun hc => ht (Prod.mk.inj hc).1) fun hc => ht (Prod.mk.inj hc).1]
    exact h.others t' fd ht

/-- A table that differs in survival counters is as good. -/
theorem TableLinked.alike {cfg : WPConfig} {p : Platform} {t : ℕ} {slots slots' : Slots}
    (h : TableLinked cfg p t slots) (hal : ∀ i, (slots i).Alike (slots' i)) :
    TableLinked cfg p t slots' := by
  have hfd : ∀ i, (slots' i).fileHandle = (slots i).fileHandle := by
    intro i
    rw [hal i]
  refine ⟨fun i j hi hj hne heq => ?_, fun i hi => (h.linked i hi).alike (hal i),
    fun fd dev hdev hbp => ?_⟩
  · rw [hfd] at hne heq
    rw [hfd] at heq
    exact h.injective i j hi hj hne heq
  · obtain ⟨hminus, i, hi, hfd'⟩ := h.covered fd dev hdev hbp
    exact ⟨hminus, i, hi, (hfd i).trans hfd'⟩

theorem TableLinked.congr {cfg : WPConfig} {p q : Platform} {t : ℕ} {slots : Slots}
    (h : TableLinked cfg p t slots) (hq : ∀ fd, q.getDevice t fd = p.getDevice t fd) :
    TableLinked cfg q t slots :=
  ⟨h.injective, fun i hi => (h.linked i hi).congr (hq _),
    fun fd dev hdev hbp => h.covered fd dev ((hq fd).symm.trans hdev) hbp⟩

/-! ### All threads -/

section

variable {L : Type} {T : Tool L}

/-- Thread `t` has no breakpoint device. -/
def NoBPDevice (p : Platform) (t : ℕ) : Prop :=
  ∀ fd dev, p.getDevice t fd = some dev → dev.deviceType ≠ .bpDevice

/-- The invariant: tables and breakpoint devices correspond, and a thread without a
table has no breakpoint device. -/
structure DevicesInv (T : Tool L) (w : World L) : Prop where
  linked : ∀ t td, w.tData t = some td → TableLinked T.cfg w.platform t td.watchPointArray
  idle : ∀ t, w.tData t = none → NoBPDevice w.platform t
  opened : w.platform.Opened

/-- What the run assumes of a call: a fresh handle, and a thread that has no table
yet. -/
def DevicesCond (w : World L) : Op → Prop
  | .threadInit tid _ => w.tData tid = none
  | .subscribe _ _ ans => ans.arm.register.perfEventOpen = -1 ∨
      ans.arm.register.perfEventOpen ∉ w.platform.kernel.openFds
  | .devices _ => False
  | _ => True

theorem DevicesInv.threadInv {w : World L} (h : DevicesInv T w) {t : ℕ} {td : WPThreadData}
    (htd : w.tData t = some td) :
    ThreadInv T.cfg w.platform t td.watchPointArray w.platform :=
  ⟨h.linked t td htd, h.opened, fun _ _ _ => rfl⟩

/-- A call on behalf of one thread, which leaves it a table or none. -/
theorem DevicesInv.update {w w' : World L} {tid : ℕ} {o : Option WPThreadData}
    (h : DevicesInv T w) (htd : w'.tData = Function.update w.tData tid o)
    (hopened : w'.platform.Opened)
    (hothers : ∀ t fd, t ≠ tid → w'.platform.getDevice t fd = w.platform.getDevice t fd)
    (hsome : ∀ td, o = some td → TableLinked T.cfg w'.platform tid td.watchPointArray)
    (hnone : o = none → NoBPDevice w'.platform tid) : DevicesInv T w' := by
  -- the thread's own table is given, and the others see the same devices
  refine ⟨fun t td ht => ?_, fun t ht fd dev hdev => ?_, hopened⟩
  · by_cases htt : t = tid
    · subst htt
      rw [htd, Function.update_self] at ht
      exact hsome td ht
    · rw [htd, Function.update_of_ne htt] at ht
      exact (h.linked t td ht).congr fun fd => hothers t fd htt
  · by_cases htt : t = tid
    · subst htt
      rw [htd, Function.update_self] at ht
      exact hnone ht fd dev hdev
    · rw [htd, Function.update_of_ne htt] at ht
      rw [hothers t fd htt] at hdev
      exact h.idle t ht fd dev hdev

theorem DevicesInv.threadInit {w w' : World L} {tid : ℕ} {ans : InitAnswers} {ret : ℤ}
    (h : DevicesInv T w) (hnone : w.tData tid = none)
    (hs : wpThreadInit T w tid ans = .running ret w') : DevicesInv T w' := by
  rcases wpThreadInit_cases hs with rfl | rfl
  · exact h
  refine h.update rfl h.opened (fun _ _ _ => rfl) (fun td htd => ?_) nofun
  obtain rfl := Option.some.inj htd
  have hslot : ∀ i, i < T.cfg.maxWP →
      (initSlots T.cfg.maxWP tid ans.memory i).fileHandle = -1 ∧
      (initSlots T.cfg.maxWP tid ans.memory i).isActive = false ∧
      (initSlots T.cfg.maxWP tid ans.memory i).threadId = tid := by
    intro i hi
    simp only [initSlots, if_pos hi, and_self]
  refine ⟨fun i j hi _ hfd => absurd (hslot i hi).1 hfd, fun i hi => ?_, fun fd dev hdev hbp => ?_⟩
  · obtain ⟨hfd, hoff, hthread⟩ := hslot i hi
    exact ⟨hthread, fun _ => hoff, fun hne => absurd hfd hne, fun _ _ => hfd⟩
  · exact absurd hbp (h.idle tid hnone fd dev hdev)

/-- A subscription keeps slots and devices in step if arming the victim is a slot step. -/
theorem DevicesInv.subscribe_of_slotStep {w w' : World L} {tid : ℕ} {r : Request}
    {ans : SubscribeAnswers} {ret : ℤ} (h : DevicesInv T w)
    (harmed : ∀ td i ok c, w.tData tid = some td → (victimOf T td ans).location = some i →
      SlotLinked T.cfg w.platform tid ((victimOf T td ans).slots i) →
      Armed T.cfg tid ((victimOf T td ans).slots i) r w.platform ans.arm ok c →
      SlotStep T.cfg tid ((victimOf T td ans).slots i) c.wpi w.platform c.platform)
    (hs : Subscribed T w tid r ans ret w') : DevicesInv T w' := by
  cases hs with
  | refused => exact h
  | noVictim td htd =>
    refine h.update rfl h.opened (fun _ _ _ => rfl) (fun td' htd' => ?_) nofun
    obtain rfl := Option.some.inj htd'
    exact (h.linked tid td htd).alike (victimOf_alike T td ans)
  | tried td i ok c htd hvalid hover hloc harm =>
    -- choosing a victim changes survival counters only
    have hinv : ThreadInv T.cfg w.platform tid (victimOf T td ans).slots w.platform :=
      ⟨(h.linked tid td htd).alike (victimOf_alike T td ans), h.opened, fun _ _ _ => rfl⟩
    have hi : i < T.cfg.maxWP := getVictim_lt hloc
    have hinv' := hinv.slotStep hi (harmed td i ok c htd hloc (hinv.table.linked i hi) harm)
    refine h.update rfl hinv'.opened hinv'.others (fun td' htd' => ?_) nofun
    obtain rfl := Option.some.inj htd'
    exact hinv'.table

theorem DevicesInv.subscribe {w w' : World L} {tid : ℕ} {r : Request} {ans : SubscribeAnswers}
    {ret : ℤ} (h : DevicesInv T w)
    (hnew : ans.arm.register.perfEventOpen = -1 ∨
      ans.arm.register.perfEventOpen ∉ w.platform.kernel.openFds)
    (hs : Subscribed T w tid r ans ret w') : DevicesInv T w' :=
  h.subscribe_of_slotStep
    (fun _ _ _ _ _ _ hlinked harm => armed_slotStep hlinked h.opened hnew harm) hs

theorem DevicesInv.handled {w w' : World L} {tid : ℕ} {fd : ℤ} {event : Event}
    {ans : TriggerAnswers} (h : DevicesInv T w) (hh : Handled T w tid fd event ans w') :
    DevicesInv T w' := by
  cases hh with
  | noTable htd => exact ⟨h.linked, h.idle, h.opened⟩
  | fired td td' i e p' seen htd hfire hseen hact =>
    have hinv : ThreadInv T.cfg w.platform tid td'.watchPointArray p' :=
      applyAction_invariant (I := ThreadInv T.cfg w.platform tid) hfire.active hfire.lt
        (fun j slots q wpi q' hj hI hd =>
          hI.slotStep hj (disabled_slotStep (hI.table.linked j hj) hI.opened hd))
        (h.threadInv htd) hact
    refine h.update rfl hinv.opened hinv.others (fun td'' htd'' => ?_) nofun
    obtain rfl := Option.some.inj htd''
    exact hinv.table

theorem DevicesInv.threadTerminate {w w' : World L} {tid : ℕ} {ans : ℕ → RemoveAnswers}
    {ret : ℤ} (h : DevicesInv T w) (hs : wpThreadTerminate T w tid ans = .running ret w') :
    DevicesInv T w' := by
  obtain ⟨td, slots, p, htd, hd, rfl⟩ := wpThreadTerminate_cases hs
  -- the slots the loop has passed have no handle
  have hinv := (disArmAll_invariant
    (I := fun is slots q => (∀ j ∈ is, j < T.cfg.maxWP) ∧
      ThreadInv T.cfg w.platform tid slots q ∧
      ∀ j, j < T.cfg.maxWP → j ∉ is → (slots j).fileHandle = -1) ?_ ?_
    ⟨fun j hj => List.mem_range.mp hj, h.threadInv htd,
      fun j hj hno => absurd (List.mem_range.mpr hj) hno⟩ hd).2
  · refine h.update rfl hinv.1.opened hinv.1.others nofun fun _ fd dev hdev hbp => ?_
    obtain ⟨hminus, i, hi, hfd⟩ := hinv.1.table.covered fd dev hdev hbp
    exact hminus (hfd.symm.trans (hinv.2 i hi List.not_mem_nil))
  · rintro i is slots q ⟨hlt, hI, hdone⟩ hfd
    refine ⟨fun j hj => hlt j (List.mem_cons_of_mem i hj), hI, fun j hj hno => ?_⟩
    by_cases hji : j = i
    · exact hji ▸ hfd
    · exact hdone j hj fun hmem => (List.mem_cons.mp hmem).elim hji hno
  · rintro i is slots q q' ⟨hlt, hI, hdone⟩ hfd hrem
    have hi : i < T.cfg.maxWP := hlt i List.mem_cons_self
    refine ⟨fun j hj => hlt j (List.mem_cons_of_mem i hj), hI.slotStep hi
      (slotStep_removed hI.opened hfd (hI.table.linked i hi).thread rfl rfl hrem),
      fun j hj hno => ?_⟩
    by_cases hji : j = i
    · subst hji
      rw [Function.update_self]
    · rw [Function.update_of_ne hji]
      exact hdone j hj fun hmem => (List.mem_cons.mp hmem).elim hji hno

/-- **One call keeps slots and devices in step.** -/
theorem DevicesInv.step {w w' : World L} {op : Op} {ret : ℤ} (h : DevicesInv T w)
    (hop : DevicesCond w op) (hs : step T w op = .running ret w') : DevicesInv T w' := by
  cases op with
  | threadInit tid ans => exact h.threadInit hop hs
  | subscribe tid r ans => exact h.subscribe hop (wpSubscribe_cases hs)
  | onWatchPoint tid fd event ans => exact h.handled (onWatchPoint_cases hs)
  | threadTerminate tid ans => exact h.threadTerminate hs
  | pause =>
    obtain ⟨rfl, rfl⟩ := Outcome.running.inj hs
    exact h
  | resume =>
    obtain ⟨rfl, rfl⟩ := Outcome.running.inj hs
    exact h
  | devices p => exact absurd hop id

/-! ### Every run -/

/-- What the table and the devices of a thread guarantee of one another. -/
structure Bijection (cfg : WPConfig) (p : Platform) (t : ℕ) (slots : Slots) : Prop where
  /-- Distinct slots with a handle have distinct handles. -/
  distinct : ∀ i j, i < cfg.maxWP → j < cfg.maxWP → i ≠ j → (slots i).fileHandle ≠ -1 →
    (slots i).fileHandle ≠ (slots j).fileHandle
  /-- The breakpoint devices of the thread are those of its slots with a handle. -/
  devices : ∀ fd, (∃ dev, p.getDevice t fd = some dev ∧ dev.deviceType = .bpDevice) ↔
    ∃ i, i < cfg.maxWP ∧ (slots i).threadId = t ∧ (slots i).fileHandle = fd ∧ fd ≠ -1
  /-- A slot and its device watch the same range. -/
  range : ∀ i dev, i < cfg.maxWP → (slots i).fileHandle ≠ -1 →
    p.getDevice t (slots i).fileHandle = some dev →
    dev.address = (slots i).va ∧ dev.length = (slots i).wpLength
  /-- A slot is active when its device is not disabled, and only then. -/
  active : ∀ i dev, i < cfg.maxWP → (slots i).fileHandle ≠ -1 →
    p.getDevice t (slots i).fileHandle = some dev →
    ((slots i).isActive = true ↔ dev.isDisabled = false)
  /-- A slot without a handle is off. -/
  off : ∀ i, i < cfg.maxWP → (slots i).fileHandle = -1 → (slots i).isActive = false
  /-- Every breakpoint device of the thread that is resumed is an active slot's. -/
  resumed : ∀ fd sessionId dev,
    ((t, fd) ∈ p.resumeAllDevices ∨ (t, fd) ∈ p.resumeDevicesBySession t sessionId) →
    p.getDevice t fd = some dev → dev.deviceType = .bpDevice →
    ∃ i, i < cfg.maxWP ∧ (slots i).fileHandle = fd ∧ (slots i).isActive = true

/-- A device that is resumed is not marked disabled. -/
theorem not_isDisabled_of_resumed {p : Platform} {t : ℕ} {fd sessionId : ℤ} {dev : Device}
    (h : (t, fd) ∈ p.resumeAllDevices ∨ (t, fd) ∈ p.resumeDevicesBySession t sessionId)
    (hdev : p.getDevice t fd = some dev) : dev.isDisabled = false := by
  have hen : p.isEnabled (t, fd) = true := by
    rcases h with h | h
    · exact (List.mem_filter.mp h).2
    · exact (List.mem_filter.mp h).2
  rw [Platform.isEnabled, show p.deviceMap.lookup (t, fd) = some dev from hdev] at hen
  simpa using hen

theorem TableLinked.bijection {cfg : WPConfig} {p : Platform} {t : ℕ} {slots : Slots}
    (h : TableLinked cfg p t slots) : Bijection cfg p t slots where
  distinct := fun i j hi hj hij hfd heq => hij (h.injective i j hi hj hfd heq)
  devices := by
    intro fd
    constructor
    · -- a breakpoint is covered by a slot, and a slot that has a handle has its device
      rintro ⟨dev, hdev, hbp⟩
      obtain ⟨hminus, i, hi, hfd⟩ := h.covered fd dev hdev hbp
      exact ⟨i, hi, (h.linked i hi).thread, hfd, hminus⟩
    · rintro ⟨i, hi, -, rfl, hminus⟩
      obtain ⟨dev, hdev, hbp, -⟩ := (h.linked i hi).device hminus
      exact ⟨dev, hdev, hbp⟩
  range := by
    intro i dev hi hfd hdev
    obtain ⟨dev', hdev', -, haddr, hlen, -⟩ := (h.linked i hi).device hfd
    obtain rfl := Option.some.inj (hdev.symm.trans hdev')
    exact ⟨haddr, hlen⟩
  active := by
    intro i dev hi hfd hdev
    obtain ⟨dev', hdev', -, -, -, hact⟩ := (h.linked i hi).device hfd
    obtain rfl := Option.some.inj (hdev.symm.trans hdev')
    rw [hact, Bool.not_eq_true']
  off := fun i hi => (h.linked i hi).off
  resumed := by
    -- a resume takes devices that are not marked, and these are of active slots
    intro fd sessionId dev hres hdev hbp
    obtain ⟨hminus, i, hi, rfl⟩ := h.covered fd dev hdev hbp
    obtain ⟨dev', hdev', -, -, -, hact⟩ := (h.linked i hi).device hminus
    obtain rfl := Option.some.inj (hdev.symm.trans hdev')
    exact ⟨i, hi, rfl, by rw [hact, not_isDisabled_of_resumed hres hdev]; rfl⟩

/-- **Slots and breakpoint devices, along every run** that starts without
breakpoint devices and opens fresh handles. -/
theorem bijection_of_run (T : Tool L) (p : Platform) (logic : L) (ops : List Op) (w : World L)
    (hopen : p.Opened) (hnone : ∀ t, NoBPDevice p t)
    (hops : Along (step T) DevicesCond (World.fresh p logic) ops)
    (hrun : exec (step T) (World.fresh p logic) ops = .running () w) :
    (∀ t td, w.tData t = some td → Bijection T.cfg w.platform t td.watchPointArray) ∧
      ∀ t, w.tData t = none → NoBPDevice w.platform t := by
  have hfresh : DevicesInv T (World.fresh p logic) := by
    refine ⟨fun t td htd => ?_, fun t _ => hnone t, hopen⟩
    -- no thread has a table yet
    cases htd
  have hinv : DevicesInv T w :=
    exec_invariant (I := DevicesInv T) (fun _ _ _ _ h hop hs => h.step hop hs) hfresh
      hops hrun
  exact ⟨fun t td htd => (hinv.linked t td htd).bijection, hinv.idle⟩

end

theorem bijection_of_twoSlotRun :
    (twoSlotEnd.tData 1).isSome ∧
      (∀ t td, twoSlotEnd.tData t = some td →
        Bijection (Tool.always true 2 .disable).cfg twoSlotEnd.platform t td.watchPointArray) ∧
      ∀ t, twoSlotEnd.tData t = none → NoBPDevice twoSlotEnd.platform t := by
  have hidle : ∀ t fd, ¬ Platform.idle.Has t fd := fun t fd h => h rfl
  refine ⟨rfl, bijection_of_run (Tool.always true 2 .disable) .idle () twoSlotRun twoSlotEnd
    ⟨fun t fd h => absurd h (hidle t fd), fun t _ fd h => absurd h (hidle t fd)⟩
    (fun t fd dev hdev => by cases hdev) ?_ rfl⟩
  refine Along.cons (a := 0) rfl rfl (Along.cons (a := 0) (Or.inr ?_) rfl
    (Along.cons (a := 0) (Or.inr ?_) rfl ⟨trivial, fun _ _ _ => trivial⟩))
  · exact List.not_mem_nil
  · exact of_decide_eq_false rfl

end Kognizance
