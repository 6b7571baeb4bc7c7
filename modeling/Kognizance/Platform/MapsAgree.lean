import Kognizance.Lib.Index
import Kognizance.Platform.Sessions

/-!
# The two maps agree

`Registry.Agree` says that `deviceSessionMultiMap` is an index of `deviceMap` by
session, up to the registrations in progress. Every operation keeps it
(`Agree.step`), so it holds after every run (`agree_of_run`); what
`remove_device_by_session` does to a session follows from it.
-/

namespace Kognizance

open Process

namespace Registry

/-- **The two maps agree**, up to the registrations in progress. -/
structure Agree (ownerOf : ℤ → ℕ) (st : Registry) : Prop where
  index : Indexes st.platform.sessionOf st.registering st.platform.deviceSessionMultiMap
  isOpen : ∀ t fd s, st.platform.sessionOf t fd = some s → fd ∈ st.platform.kernel.openFds
  openNodup : st.platform.kernel.openFds.Nodup
  owner : ∀ t fd s, st.platform.sessionOf t fd = some s → ownerOf s = t

namespace Agree

variable {ownerOf : ℤ → ℕ} {st st' : Registry}

theorem init (p : Platform) (fOwnerEx : ℤ → ℕ) : Agree ownerOf (Registry.init p fOwnerEx) where
  index := Indexes.empty
  isOpen := fun _ _ _ h => by cases h
  openNodup := List.nodup_nil
  owner := fun _ _ _ h => by cases h

/-- A step that leaves the sessions of all keys alone; a failed registration may leave
a handle open. -/
theorem congr (h : Agree ownerOf st)
    (hs : ∀ t fd, st'.platform.sessionOf t fd = st.platform.sessionOf t fd)
    (hreg : st'.registering = st.registering)
    (hmm : st'.platform.deviceSessionMultiMap = st.platform.deviceSessionMultiMap)
    (hsub : st.platform.kernel.openFds ⊆ st'.platform.kernel.openFds)
    (hnodup : st'.platform.kernel.openFds.Nodup) : Agree ownerOf st' where
  index := by
    rw [hreg, hmm]
    exact h.index.congr hs
  isOpen := fun t fd s hfd => hsub (h.isOpen t fd s (hs t fd ▸ hfd))
  openNodup := hnodup
  owner := fun t fd s hfd => h.owner t fd s (hs t fd ▸ hfd)

/-- A call on a device that keeps the session it was registered for. -/
theorem withDevice (h : Agree ownerOf st) (k : ℕ × ℤ) (f : Device → Device)
    (hf : ∀ dev, (f dev).sessionId = dev.sessionId) : Agree ownerOf (st.withDevice k f) := by
  unfold Registry.withDevice
  cases hdev : st.platform.getDevice k.1 k.2 with
  | none => exact h
  | some dev =>
    refine h.congr (fun t fd => ?_) rfl rfl (List.Subset.refl _) h.openNodup
    by_cases hk : (t, fd) = (k.1, k.2)
    · obtain ⟨rfl, rfl⟩ := Prod.mk.inj hk
      simp [Platform.sessionOf, hdev, hf]
    · simp [Platform.sessionOf, Platform.getDevice_setDevice_ne _ _ _ _ hk]

/-- The first half of a registration: the handle is fresh, so its key is too. -/
theorem addNewDevice (h : Agree ownerOf st) {getpid gettid : ℕ} {dev : Device} {sId : ℤ}
    {ans : RegisterAnswers} (hown : ownerOf sId = gettid)
    (hfresh : ans.perfEventOpen ∉ st.platform.kernel.openFds)
    (hs : step getpid st (.addNewDevice gettid dev sId ans) = .running () st') :
    Agree ownerOf st' := by
  cases hopen : st.platform.openDevice dev sId ans with
  | error e => simp [step, hopen] at hs
  | ok r =>
    obtain ⟨ret, dev', p⟩ := r
    obtain ⟨rfl, hmap, hmm, hfds⟩ := Platform.openDevice_cases hopen
    have hsess : ∀ t fd, p.sessionOf t fd = st.platform.sessionOf t fd := fun t fd => by
      simp [Platform.sessionOf, Platform.getDevice, hmap]
    have hnodup : p.kernel.openFds.Nodup := by
      rcases hfds with ⟨he, -⟩ | ⟨he, -⟩ <;> rw [he]
      · exact h.openNodup
      · exact List.nodup_cons.mpr ⟨hfresh, h.openNodup⟩
    have hsub : st.platform.kernel.openFds ⊆ p.kernel.openFds := by
      rcases hfds with ⟨he, -⟩ | ⟨he, -⟩ <;> rw [he]
      · exact List.Subset.refl _
      · exact List.subset_cons_self _ _
    by_cases hret : ret = 0
    · -- the device is opened and entered
      obtain rfl : _ = st' := by simpa [step, hopen, hret] using hs
      have hcons : p.kernel.openFds = ans.perfEventOpen :: st.platform.kernel.openFds := by
        rcases hfds with ⟨-, hbad⟩ | ⟨he, -⟩
        · omega
        · exact he
      -- every handle of the map is open, so the fresh one is in no entry
      have hfree : ∀ t, st.platform.sessionOf t ans.perfEventOpen = none := by
        intro t
        cases hold : st.platform.sessionOf t ans.perfEventOpen with
        | none => rfl
        | some s => exact absurd (h.isOpen t _ s hold) hfresh
      have hnew : ∀ t fd, (p.addNewDevice gettid ans.perfEventOpen
          { dev with sessionId := sId, deviceFileId := ans.perfEventOpen }).sessionOf t fd =
            if t = gettid ∧ fd = ans.perfEventOpen then some sId
            else st.platform.sessionOf t fd := by
        intro t fd
        rw [Platform.sessionOf_addNewDevice, hsess]
      refine ⟨?_, fun t fd s hfd => ?_, hnodup, fun t fd s hfd => ?_⟩
      · change Indexes _ _ p.deviceSessionMultiMap
        rw [hmm]
        exact h.index.enter hfree hnew
      · change fd ∈ p.kernel.openFds
        rw [hnew] at hfd
        split_ifs at hfd with he
        · rw [hcons, he.2]
          exact List.mem_cons_self
        · exact hsub (h.isOpen t fd s hfd)
      · rw [hnew] at hfd
        split_ifs at hfd with he
        · obtain rfl := Option.some.inj hfd
          rw [hown, he.1]
        · exact h.owner t fd s hfd
    · -- a failure enters nothing, but may leave the handle open
      obtain rfl : _ = st' := by simpa [step, hopen, hret] using hs
      exact h.congr hsess rfl hmm hsub hnodup

/-- The second half of a registration. -/
theorem addNewDeviceToSession (h : Agree ownerOf st) {getpid gettid : ℕ} {fd sId : ℤ}
    (hs : step getpid st (.addNewDeviceToSession gettid fd sId) = .running () st') :
    Agree ownerOf st' := by
  by_cases hm : (gettid, fd, sId) ∈ st.registering
  · obtain rfl : _ = st' := by simpa [step, hm] using hs
    exact ⟨h.index.settle hm, h.isOpen, h.openNodup, h.owner⟩
  · obtain rfl : st = st' := by simpa [step, hm] using hs
    exact h

/-- `remove_device` on a handle whose registration has returned. -/
theorem removeDevice (h : Agree ownerOf st) {getpid gettid : ℕ} {fd : ℤ} {ans : RemoveAnswers}
    (hlate : ∀ s, (gettid, fd, s) ∉ st.registering)
    (hs : step getpid st (.removeDevice gettid fd ans) = .running () st') :
    Agree ownerOf st' := by
  cases hrem : st.platform.removeDevice gettid fd true ans with
  | error e => simp [step, hrem] at hs
  | ok p =>
    obtain rfl : { st with platform := p } = st' := by simpa [step, hrem] using hs
    cases hdev : st.platform.getDevice gettid fd with
    | none =>
      rw [Platform.removeDevice_of_none hdev hrem]
      exact h
    | some dev =>
      obtain ⟨hmm, hfds⟩ := Platform.removeDevice_of_some hdev hrem
      -- only the one key goes, so all others keep their session
      have hsess : ∀ t fd', p.sessionOf t fd' =
          if t = gettid ∧ fd' = fd then none else st.platform.sessionOf t fd' := by
        intro t fd'
        rw [Platform.sessionOf, Platform.removeDevice_getDevice hrem]
        by_cases hk : t = gettid ∧ fd' = fd
        · simp [hk]
        · rw [if_neg hk, if_neg fun e => hk (Prod.mk.inj e)]
          rfl
      have hold : ∀ t fd' s, p.sessionOf t fd' = some s → st.platform.sessionOf t fd' = some s := by
        intro t fd' s hs'
        rw [hsess] at hs'
        split_ifs at hs'
        exact hs'
      have hsome : st.platform.sessionOf gettid fd = some dev.sessionId :=
        Platform.sessionOf_eq_some.mpr ⟨dev, hdev, rfl⟩
      refine ⟨?_, fun t fd' s hfd' => ?_, ?_,
        fun t fd' s hfd' => h.owner t fd' s (hold t fd' s hfd')⟩
      · -- the pair of the multimap goes with its device
        change Indexes _ _ p.deviceSessionMultiMap
        rw [hmm]
        exact h.index.remove hsome (hlate _) hsess
      · -- the closed handle belonged to the removed device alone
        change fd' ∈ p.kernel.openFds
        rw [hfds, h.openNodup.mem_erase_iff]
        refine ⟨?_, h.isOpen t fd' s (hold t fd' s hfd')⟩
        rintro rfl
        obtain rfl := h.index.unique t gettid fd' _ _ (hold t fd' s hfd') hsome
        rw [hsess, if_pos ⟨rfl, rfl⟩] at hfd'
        cases hfd'
      · change p.kernel.openFds.Nodup
        rw [hfds]
        exact h.openNodup.erase _

end Agree

/-- What `remove_device_by_session` does to the devices of a session and to all
others. -/
structure SessionRemoved (p : Platform) (s : ℤ) (calls : List DeviceCall) (p' : Platform) :
    Prop where
  /-- Every device of the session is ended, unregistered and closed once, no other is. -/
  calls : ∃ keys : List (ℕ × ℤ), keys.Nodup ∧
    (∀ k, k ∈ keys ↔ p.sessionOf k.1 k.2 = some s) ∧ calls = keys.flatMap removeCalls
  getDevice : ∀ t fd, p'.getDevice t fd =
    if p.sessionOf t fd = some s then none else p.getDevice t fd
  multiMap : p'.deviceSessionMultiMap = p.deviceSessionMultiMap.filter fun sd => sd.1 ≠ s
  openFds : ∀ fd, fd ∈ p'.kernel.openFds ↔
    fd ∈ p.kernel.openFds ∧ ∀ t, p.sessionOf t fd ≠ some s

namespace Agree

variable {ownerOf : ℤ → ℕ} {st st' : Registry}

/-- **The owner removes its session whole.** -/
theorem sessionRemoved (h : Agree ownerOf st) {gettid : ℕ} {s : ℤ} {ans : ℤ → RemoveAnswers}
    {calls : List DeviceCall} {p : Platform} (hown : ownerOf s = gettid)
    (hlate : ∀ fd s, (gettid, fd, s) ∉ st.registering)
    (hr : st.platform.removeDeviceBySession gettid s ans = .ok (calls, p)) :
    SessionRemoved st.platform s calls p ∧ p.kernel.openFds.Nodup := by
  -- the handles of the session are those of its devices, all held by the caller
  have hmem : ∀ fd, fd ∈ st.platform.sessionDevices s ↔
      st.platform.sessionOf gettid fd = some s := by
    intro fd
    rw [Platform.mem_sessionDevices, h.index.mem]
    constructor
    · rintro ⟨t, ht, -⟩
      obtain rfl : gettid = t := hown.symm.trans (h.owner t fd s ht)
      exact ht
    · exact fun ht => ⟨gettid, ht, hlate fd s⟩
  have hsess : ∀ t fd, st.platform.sessionOf t fd = some s ↔
      t = gettid ∧ fd ∈ st.platform.sessionDevices s := by
    intro t fd
    rw [hmem]
    constructor
    · intro ht
      obtain rfl : gettid = t := hown.symm.trans (h.owner t fd s ht)
      exact ⟨rfl, ht⟩
    · rintro ⟨rfl, ht⟩
      exact ht
  have hnodup := Platform.sessionDevices_nodup h.index.nodup s
  obtain ⟨q, hloop, rfl⟩ := Platform.removeDeviceBySession_returns hr
  -- the loop over these handles finds every device it asks for
  have hall := Platform.removeDevices_spec hnodup (fun fd hfd hnone => by
    have ht := (hmem fd).mp hfd
    rw [Platform.sessionOf, hnone] at ht
    cases ht) hloop
  refine ⟨⟨⟨(st.platform.sessionDevices s).map fun fd => (gettid, fd), ?_, ?_, ?_⟩, ?_, ?_, ?_⟩,
    ?_⟩
  · exact hnodup.map fun a b hab => (Prod.mk.inj hab).2
  · rintro ⟨t, fd⟩
    rw [hsess]
    simp [eq_comm, and_comm]
  · rw [hall.calls, List.flatMap_map]
  · intro t fd
    refine (hall.getDevice t fd).trans ?_
    simp only [hsess]
  · change q.deviceSessionMultiMap.filter _ = _
    rw [hall.multiMap]
  · intro fd
    change fd ∈ q.kernel.openFds ↔ _
    rw [hall.openFds, h.openNodup.mem_sdiff_iff]
    simp only [hsess, not_and, ne_eq]
    simp
  · change q.kernel.openFds.Nodup
    rw [hall.openFds]
    exact h.openNodup.diff

theorem removeDeviceBySession (h : Agree ownerOf st) {getpid gettid : ℕ} {s : ℤ}
    {ans : ℤ → RemoveAnswers} (hown : ownerOf s = gettid)
    (hlate : ∀ fd s, (gettid, fd, s) ∉ st.registering)
    (hs : step getpid st (.removeDeviceBySession gettid s ans) = .running () st') :
    Agree ownerOf st' := by
  cases hr : st.platform.removeDeviceBySession gettid s ans with
  | error e => simp [step, hr] at hs
  | ok r =>
    obtain ⟨calls, p⟩ := r
    obtain rfl : { st with platform := p } = st' := by simpa [step, hr] using hs
    obtain ⟨hall, hnodup⟩ := h.sessionRemoved hown hlate hr
    have hsess : ∀ t fd, p.sessionOf t fd =
        if st.platform.sessionOf t fd = some s then none else st.platform.sessionOf t fd := by
      intro t fd
      rw [Platform.sessionOf, hall.getDevice]
      split_ifs <;> rfl
    have hold : ∀ t fd s', p.sessionOf t fd = some s' → st.platform.sessionOf t fd = some s' := by
      intro t fd s' hs'
      rw [hsess] at hs'
      split_ifs at hs'
      exact hs'
    refine ⟨?_, fun t fd s' hfd => ?_, hnodup,
      fun t fd s' hfd => h.owner t fd s' (hold t fd s' hfd)⟩
    · change Indexes _ _ p.deviceSessionMultiMap
      rw [hall.multiMap]
      refine h.index.removeGroup (fun t fd hm => ?_) hsess
      -- a registration in progress for `s` would be the owner's
      obtain rfl : gettid = t := hown.symm.trans (h.owner t fd s (h.index.late_held t fd s hm))
      exact hlate fd s hm
    · -- a handle that is still held is not one of the session's
      refine (hall.openFds fd).mpr ⟨h.isOpen t fd s' (hold t fd s' hfd), fun t' ht' => ?_⟩
      obtain rfl := h.index.unique t t' fd _ _ (hold t fd s' hfd) ht'
      rw [hsess, if_pos ht'] at hfd
      cases hfd

/-- **Every operation keeps the two maps in agreement.** -/
theorem step (h : Agree ownerOf st) {getpid : ℕ} {op : SessionOp} (hu : Used ownerOf st op)
    (hs : Registry.step getpid st op = .running () st') : Agree ownerOf st' := by
  cases op with
  | addNewDevice gettid dev sId ans => exact h.addNewDevice hu.1 hu.2 hs
  | addNewDeviceToSession gettid fd sId => exact h.addNewDeviceToSession hs
  | startDevice k =>
    obtain rfl := (Outcome.running.inj hs).2
    exact h.withDevice k _ fun _ => rfl
  | endDevice k =>
    obtain rfl := (Outcome.running.inj hs).2
    exact h.withDevice k _ fun _ => rfl
  | updateBPAddress k len bpType addr ans =>
    obtain rfl := (Outcome.running.inj hs).2
    refine h.withDevice k _ fun dev => ?_
    unfold Device.updateBPAddress
    split <;> rfl
  | removeDevice gettid fd ans => exact h.removeDevice hu hs
  | removeDeviceBySession gettid s ans => exact h.removeDeviceBySession hu.1 hu.2 hs

end Agree

/-- The two maps agree in every state a run reaches. -/
theorem agree_of_run {ownerOf : ℤ → ℕ} {getpid : ℕ} {p : Platform} {fOwnerEx : ℤ → ℕ}
    {ops : List SessionOp} {st : Registry}
    (hused : Along (step getpid) (Used ownerOf) (init p fOwnerEx) ops)
    (hrun : exec (step getpid) (init p fOwnerEx) ops = .running () st) : Agree ownerOf st :=
  exec_invariant (fun _ _ _ _ h hu hs => h.step hu hs) (Agree.init p fOwnerEx) hused hrun

/-- **The session map is the device map by session.** Between operations a pair is
listed once when the device map holds such a device, else not at all; and the owner
of a session removes all of it and nothing else. -/
theorem maps_agree (ownerOf : ℤ → ℕ) (getpid : ℕ) (p : Platform) (fOwnerEx : ℤ → ℕ)
    (ops : List SessionOp) (st : Registry)
    (hused : Along (step getpid) (Used ownerOf) (init p fOwnerEx) ops)
    (hrun : exec (step getpid) (init p fOwnerEx) ops = .running () st) :
    (st.registering = [] → ∀ s fd,
      st.platform.deviceSessionMultiMap.count (s, fd) ≤ 1 ∧
      (st.platform.deviceSessionMultiMap.count (s, fd) = 1 ↔
        ∃ t dev, st.platform.getDevice t fd = some dev ∧ dev.sessionId = s)) ∧
    ∀ s ans, (∀ fd s', (ownerOf s, fd, s') ∉ st.registering) →
      (∀ calls p', st.platform.removeDeviceBySession (ownerOf s) s ans = .ok (calls, p') →
        SessionRemoved st.platform s calls p') ∧
      ((∀ fd, (ans fd).munmapOk = true ∧ (ans fd).closeOk = true) →
        ∃ calls p', st.platform.removeDeviceBySession (ownerOf s) s ans = .ok (calls, p')) := by
  -- between operations every pair stands for a device of the map, and is listed once
  have h := agree_of_run hused hrun
  refine ⟨fun hidle s fd => ⟨List.nodup_iff_count_le_one.mp h.index.nodup _, ?_⟩,
    fun s ans hlate => ⟨fun calls p' hr => (h.sessionRemoved rfl hlate hr).1, fun hans => ?_⟩⟩
  · -- with no registration halfway, the pairs are exactly those of the map
    have hmem : (s, fd) ∈ st.platform.deviceSessionMultiMap ↔
        ∃ t dev, st.platform.getDevice t fd = some dev ∧ dev.sessionId = s := by
      rw [h.index.mem, hidle]
      simp [Platform.sessionOf_eq_some]
    rw [← hmem]
    exact ⟨fun hc => List.count_pos_iff.mp (hc ▸ Nat.one_pos),
      List.count_eq_one_of_mem h.index.nodup⟩
  · obtain ⟨calls, p', hloop⟩ :=
      Platform.removeDevices_succeeds hans st.platform (st.platform.sessionDevices s)
    exact ⟨calls, _, by rw [Platform.removeDeviceBySession, hloop]⟩

/-- Thread 5 registers a device for session 0. -/
def oneDevice : List SessionOp :=
  [.addNewDevice 5 (BPDevice 1 1 64) 0 ⟨7, true, true, true, true, true, true⟩,
    .addNewDeviceToSession 5 7 0]

/-- The state `oneDevice` leads to in the process `getpid`. -/
def oneDeviceRegistry (getpid : ℕ) : Registry :=
  (exec (step getpid) (init ⟨∅, [], fun _ => 0, ⟨[], []⟩⟩ fun _ => 0) oneDevice).state

/-- Meanwhile thread 6 registers one for session 1. -/
def twoDevices : List SessionOp :=
  [.addNewDevice 5 (BPDevice 1 1 64) 0 ⟨7, true, true, true, true, true, true⟩,
    .addNewDevice 6 PEBSDevice 1 ⟨8, true, true, true, true, true, true⟩,
    .addNewDeviceToSession 6 8 1, .addNewDeviceToSession 5 7 0]

/-- The thread of the session. -/
def ownerOfTwo (s : ℤ) : ℕ := if s = 0 then 5 else 6

/-- The state `twoDevices` leads to in process 5. -/
def twoDevicesRegistry : Registry :=
  (exec (step 5) (init ⟨∅, [], fun _ => 0, ⟨[], []⟩⟩ fun _ => 0) twoDevices).state

theorem used_twoDevices :
    Along (step 5) (Used ownerOfTwo) (init ⟨∅, [], fun _ => 0, ⟨[], []⟩⟩ fun _ => 0)
      twoDevices := by
  refine .cons ⟨rfl, List.not_mem_nil⟩ rfl (.cons ⟨rfl, ?_⟩ rfl
    (.cons trivial rfl (.cons trivial rfl trivial)))
  show (8 : ℤ) ∉ [7]
  decide

/-- Both pairs are listed once, and thread 5 removes its own device only. -/
theorem maps_agree_twoDevices :
    twoDevicesRegistry.platform.deviceSessionMultiMap.count (0, 7) = 1 ∧
    twoDevicesRegistry.platform.deviceSessionMultiMap.count (1, 8) = 1 ∧
    ∃ calls p', twoDevicesRegistry.platform.removeDeviceBySession 5 0 (fun _ => ⟨true, true⟩) =
        .ok (calls, p') ∧ SessionRemoved twoDevicesRegistry.platform 0 calls p' ∧
      p'.getDevice 5 7 = none ∧ p'.getDevice 6 8 ≠ none := by
  obtain ⟨hlisted, hremoved⟩ := maps_agree ownerOfTwo 5 ⟨∅, [], fun _ => 0, ⟨[], []⟩⟩ (fun _ => 0)
    twoDevices twoDevicesRegistry used_twoDevices rfl
  obtain ⟨hrest, hreturns⟩ := hremoved 0 (fun _ => ⟨true, true⟩) fun _ _ => List.not_mem_nil
  obtain ⟨calls, p', hr⟩ := hreturns fun _ => ⟨rfl, rfl⟩
  have hremovedFive := hrest calls p' hr
  refine ⟨(hlisted rfl 0 7).2.mpr ⟨5, _, rfl, rfl⟩, (hlisted rfl 1 8).2.mpr ⟨6, _, rfl, rfl⟩,
    calls, p', hr, hremovedFive, ?_, ?_⟩
  · rw [hremovedFive.getDevice]
    exact if_pos rfl
  · rw [hremovedFive.getDevice, if_neg (by decide)]
    exact Option.some_ne_none _

end Registry

end Kognizance
