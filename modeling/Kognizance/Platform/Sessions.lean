import Mathlib.Data.List.Nodup
import Kognizance.Platform.Device

/-!
# The device map and the session map

`deviceMap` and `deviceSessionMultiMap` are written under separate acquisitions of
`devicemap_mtx`, by any number of threads. A step here is one acquisition:
`registerDevice` takes two of them (`SessionOp.addNewDevice` opens the device and
enters it into the first map, `SessionOp.addNewDeviceToSession` enters its handle
into the second), every other operation takes one.

* `Platform.removeDeviceBySession` keeps a record of what it calls on each device.
* `Registry` is what all threads share, `Registry.step` one operation of one thread
  and `Registry.Used` how the callers use the operations.
-/

namespace Kognizance

open Process

/-- The calls on a device that removing it consists of. -/
inductive DeviceCall
  | endDevice (k : ℕ × ℤ)
  | unRegisterDevice (k : ℕ × ℤ)
  | close (fd : ℤ)
  deriving DecidableEq, Repr

/-- What `remove_device` calls on a device it finds. -/
def removeCalls (k : ℕ × ℤ) : List DeviceCall :=
  [.endDevice k, .unRegisterDevice k, .close k.2]

namespace Platform

/-- `remove_device_by_session`, the loop: each handle is removed with
`removeSessionMap = false`, and the calls made on the devices found are recorded. -/
def removeDevices (p : Platform) (gettid : ℕ) (ans : ℤ → RemoveAnswers) :
    List ℤ → Except Halt (List DeviceCall × Platform)
  | [] => .ok ([], p)
  | fd :: fds =>
    let calls := if (p.getDevice gettid fd).isSome then removeCalls (gettid, fd) else []
    match p.removeDevice gettid fd false (ans fd) with
    | .error h => .error h
    | .ok p =>
      match removeDevices p gettid ans fds with
      | .error h => .error h
      | .ok (rest, p) => .ok (calls ++ rest, p)

/-- `remove_device_by_session`. The pairs of the session go in bulk, after the loop
that reads them. -/
def removeDeviceBySession (p : Platform) (gettid : ℕ) (sessionId : ℤ)
    (ans : ℤ → RemoveAnswers) : Except Halt (List DeviceCall × Platform) :=
  match p.removeDevices gettid ans (p.sessionDevices sessionId) with
  | .error h => .error h
  | .ok (calls, p) =>
    .ok (calls, { p with deviceSessionMultiMap :=
      p.deviceSessionMultiMap.filter fun sd => sd.1 ≠ sessionId })

/-! ### What each operation does to the two maps -/

theorem removeDevice_of_none {p p' : Platform} {t : ℕ} {fd : ℤ} {b : Bool}
    {ans : RemoveAnswers} (hdev : p.getDevice t fd = none)
    (h : p.removeDevice t fd b ans = .ok p') : p' = p := by
  rcases removeDevice_cases h with ⟨-, rfl⟩ | ⟨hne, -⟩
  · rfl
  · exact absurd hdev hne

/-- A device that is found loses its pair only when the caller asks for it. -/
theorem removeDevice_of_some {p p' : Platform} {t : ℕ} {fd : ℤ} {b : Bool} {dev : Device}
    {ans : RemoveAnswers} (hdev : p.getDevice t fd = some dev)
    (h : p.removeDevice t fd b ans = .ok p') :
    p'.deviceSessionMultiMap =
      (if b then p.deviceSessionMultiMap.erase (dev.sessionId, fd)
        else p.deviceSessionMultiMap) ∧
    p'.kernel.openFds = p.kernel.openFds.erase fd := by
  rcases removeDevice_returns h with ⟨hnone, -⟩ | ⟨dev', hdev', rfl⟩
  · exact absurd (hdev.symm.trans hnone) (Option.some_ne_none dev)
  · obtain rfl := Option.some.inj (hdev.symm.trans hdev')
    exact ⟨rfl, rfl⟩

/-- The loop has returned, and then the pairs of the session have gone. -/
theorem removeDeviceBySession_returns {p p' : Platform} {t : ℕ} {s : ℤ} {ans : ℤ → RemoveAnswers}
    {calls : List DeviceCall} (h : p.removeDeviceBySession t s ans = .ok (calls, p')) :
    ∃ q, p.removeDevices t ans (p.sessionDevices s) = .ok (calls, q) ∧
      p' = { q with
        deviceSessionMultiMap := q.deviceSessionMultiMap.filter fun sd => sd.1 ≠ s } := by
  unfold removeDeviceBySession at h
  split at h
  · cases h
  · next calls' q hloop =>
    obtain ⟨rfl, rfl⟩ := Prod.mk.inj (Except.ok.inj h)
    exact ⟨q, hloop, rfl⟩

/-- What the loop of `remove_device_by_session` leaves when every handle it visits is
one of the caller's devices. -/
structure RemovedAll (p : Platform) (t : ℕ) (fds : List ℤ) (calls : List DeviceCall)
    (p' : Platform) : Prop where
  calls : calls = fds.flatMap fun fd => removeCalls (t, fd)
  getDevice : ∀ t' fd', p'.getDevice t' fd' =
    if t' = t ∧ fd' ∈ fds then none else p.getDevice t' fd'
  multiMap : p'.deviceSessionMultiMap = p.deviceSessionMultiMap
  openFds : p'.kernel.openFds = p.kernel.openFds.diff fds

/-- What each removal keeps, the loop keeps. -/
theorem removeDevices_keeps {t : ℕ} {ans : ℤ → RemoveAnswers} {I : Platform → Prop}
    (hone : ∀ p q fd, I p → p.removeDevice t fd false (ans fd) = .ok q → I q)
    {p p' : Platform} {fds : List ℤ} {calls : List DeviceCall} (hp : I p)
    (h : p.removeDevices t ans fds = .ok (calls, p')) : I p' := by
  induction fds generalizing p calls with
  | nil =>
    obtain ⟨-, rfl⟩ : [] = calls ∧ p = p' := by simpa [removeDevices] using h
    exact hp
  | cons fd fds ih =>
    unfold removeDevices at h
    cases hq : p.removeDevice t fd false (ans fd) with
    | error e => simp [hq] at h
    | ok q =>
      cases hrest : q.removeDevices t ans fds with
      | error e => simp [hq, hrest] at h
      | ok r =>
        obtain ⟨-, rfl⟩ : _ = calls ∧ r.2 = p' := by simpa [hq, hrest] using h
        exact ih (hone p q fd hp hq) hrest

/-- **The rule of the loop**, when every handle it visits is one of the caller's devices: what
holds of no handle, and of one more handle than before, holds of all of them. -/
theorem removeDevices_rule {t : ℕ} {ans : ℤ → RemoveAnswers}
    {R : Platform → List ℤ → List DeviceCall → Platform → Prop} (hnil : ∀ p, R p [] [] p)
    (hcons : ∀ p q p' fd fds calls dev, fd ∉ fds → p.getDevice t fd = some dev →
      p.removeDevice t fd false (ans fd) = .ok q → R q fds calls p' →
      R p (fd :: fds) (removeCalls (t, fd) ++ calls) p')
    {p p' : Platform} {fds : List ℤ} {calls : List DeviceCall} (hnodup : fds.Nodup)
    (hreg : ∀ fd ∈ fds, p.getDevice t fd ≠ none)
    (h : p.removeDevices t ans fds = .ok (calls, p')) : R p fds calls p' := by
  -- over the handles: removing one leaves the devices of the rest registered
  induction fds generalizing p calls with
  | nil =>
    obtain ⟨rfl, rfl⟩ : [] = calls ∧ p = p' := by simpa [removeDevices] using h
    exact hnil p
  | cons fd fds ih =>
    have hsome := hreg fd List.mem_cons_self
    obtain ⟨dev, hdev⟩ := Option.ne_none_iff_exists'.mp hsome
    obtain ⟨hnotin, hnodup⟩ := List.nodup_cons.mp hnodup
    unfold removeDevices at h
    cases hone : p.removeDevice t fd false (ans fd) with
    | error e => simp [hone] at h
    | ok q =>
      have hreg' : ∀ fd' ∈ fds, q.getDevice t fd' ≠ none := by
        intro fd' hfd'
        -- the handles differ, so the removal before has left this device alone
        rw [removeDevice_getDevice hone, if_neg (by rintro ⟨⟩; exact hnotin hfd')]
        exact hreg fd' (List.mem_cons_of_mem fd hfd')
      cases hrest : q.removeDevices t ans fds with
      | error e => simp [hone, hrest] at h
      | ok r =>
        obtain ⟨rest, p''⟩ := r
        obtain ⟨rfl, rfl⟩ : removeCalls (t, fd) ++ rest = calls ∧ p'' = p' := by
          simpa [hone, hrest, hdev] using h
        exact hcons p q p'' fd fds rest dev hnotin hdev hone (ih hnodup hreg' hrest)

theorem removeDevices_spec {p p' : Platform} {t : ℕ} {ans : ℤ → RemoveAnswers} {fds : List ℤ}
    {calls : List DeviceCall} (hnodup : fds.Nodup)
    (hreg : ∀ fd ∈ fds, p.getDevice t fd ≠ none)
    (h : p.removeDevices t ans fds = .ok (calls, p')) : RemovedAll p t fds calls p' := by
  refine removeDevices_rule (R := fun p fds calls p' => RemovedAll p t fds calls p') ?_ ?_
    hnodup hreg h
  · intro p
    exact ⟨rfl, fun t' fd' => by simp, rfl, rfl⟩
  · intro p q p' fd fds calls dev _ hdev hone hall
    obtain ⟨hmm, hfds⟩ := removeDevice_of_some hdev hone
    refine ⟨?_, fun t' fd' => ?_, ?_, ?_⟩
    · rw [hall.calls, List.flatMap_cons]
    · rw [hall.getDevice, removeDevice_getDevice hone]
      by_cases ht : t' = t <;> by_cases hfd : fd' = fd <;> simp [ht, hfd]
    · rw [hall.multiMap, hmm]
      rfl
    · rw [hall.openFds, hfds, List.diff_cons]

/-- Removing a device enters no key. -/
theorem getDevice_of_removeDevice {p p' : Platform} {t t' : ℕ} {fd fd' : ℤ} {b : Bool}
    {ans : RemoveAnswers} (h : p.removeDevice t fd b ans = .ok p')
    (hfd : p'.getDevice t' fd' ≠ none) : p.getDevice t' fd' ≠ none := by
  rw [removeDevice_getDevice h] at hfd
  split at hfd
  · exact absurd rfl hfd
  · exact hfd

theorem getDevice_of_removeDevices {p p' : Platform} {t t' : ℕ} {fd' : ℤ} {fds : List ℤ}
    {ans : ℤ → RemoveAnswers} {calls : List DeviceCall}
    (h : p.removeDevices t ans fds = .ok (calls, p')) (hfd : p'.getDevice t' fd' ≠ none) :
    p.getDevice t' fd' ≠ none := by
  -- a key without a device stays without one
  refine fun hnone => hfd (removeDevices_keeps (I := fun q => q.getDevice t' fd' = none)
    (fun q q' fd hq hone => ?_) hnone h)
  exact not_not.mp fun hsome => getDevice_of_removeDevice hone hsome hq

theorem getDevice_of_removeDeviceBySession {p p' : Platform} {t t' : ℕ} {s fd' : ℤ}
    {ans : ℤ → RemoveAnswers} {calls : List DeviceCall}
    (h : p.removeDeviceBySession t s ans = .ok (calls, p')) (hfd : p'.getDevice t' fd' ≠ none) :
    p.getDevice t' fd' ≠ none := by
  obtain ⟨q, hloop, rfl⟩ := removeDeviceBySession_returns h
  exact getDevice_of_removeDevices hloop hfd

theorem sessionKey_removeDevice {p p' : Platform} {t : ℕ} {fd : ℤ} {b : Bool}
    {ans : RemoveAnswers} (h : p.removeDevice t fd b ans = .ok p') :
    p'.sessionKey = p.sessionKey := by
  rcases removeDevice_returns h with ⟨-, rfl⟩ | ⟨-, -, rfl⟩
  · rfl
  · rfl

theorem sessionKey_removeDevices {p p' : Platform} {t : ℕ} {fds : List ℤ}
    {ans : ℤ → RemoveAnswers} {calls : List DeviceCall}
    (h : p.removeDevices t ans fds = .ok (calls, p')) : p'.sessionKey = p.sessionKey :=
  removeDevices_keeps (I := fun q => q.sessionKey = p.sessionKey)
    (fun _ _ _ hq hone => (sessionKey_removeDevice hone).trans hq) rfl h

/-- Removing devices changes no key. -/
theorem sessionKey_removeDeviceBySession {p p' : Platform} {t : ℕ} {s : ℤ}
    {ans : ℤ → RemoveAnswers} {calls : List DeviceCall}
    (h : p.removeDeviceBySession t s ans = .ok (calls, p')) : p'.sessionKey = p.sessionKey := by
  obtain ⟨q, hloop, rfl⟩ := removeDeviceBySession_returns h
  have hkey : q.sessionKey = p.sessionKey := sessionKey_removeDevices hloop
  exact hkey

/-- The loop returns when `munmap` and `close` succeed. -/
theorem removeDevices_succeeds {t : ℕ} {ans : ℤ → RemoveAnswers}
    (hans : ∀ fd, (ans fd).munmapOk = true ∧ (ans fd).closeOk = true) (p : Platform)
    (fds : List ℤ) : ∃ calls p', p.removeDevices t ans fds = .ok (calls, p') := by
  induction fds generalizing p with
  | nil => exact ⟨[], p, rfl⟩
  | cons fd fds ih =>
    obtain ⟨q, hq⟩ := removeDevice_succeeds (hans fd) p t fd false
    obtain ⟨calls, p', hrest⟩ := ih q
    refine ⟨(if (p.getDevice t fd).isSome then removeCalls (t, fd) else []) ++ calls, p', ?_⟩
    unfold removeDevices
    rw [hq]
    simp only [hrest]

end Platform

/-! ### Runs over the two maps -/

/-- The platform as all threads see it between two steps. -/
structure Registry where
  platform : Platform
  /-- The devices in `deviceMap` whose handle is not in its session yet, by thread,
  handle and session. A signal handler may register a device while the thread it
  interrupts is registering one. -/
  registering : List (ℕ × ℤ × ℤ)
  /-- `f_owner_ex.pid` of a handle: the thread the kernel sends its signal to. -/
  fOwnerEx : ℤ → ℕ

/-- No device and no session. -/
def Registry.init (p : Platform) (fOwnerEx : ℤ → ℕ) : Registry where
  platform := { p with deviceMap := ∅, deviceSessionMultiMap := [], kernel := ⟨[], []⟩ }
  registering := []
  fOwnerEx := fOwnerEx

/-- One operation of one thread. -/
inductive SessionOp
  /-- `registerDevice` up to and including `add_new_device`. -/
  | addNewDevice (gettid : ℕ) (dev : Device) (sId : ℤ) (ans : RegisterAnswers)
  /-- The rest of a `registerDevice`: `add_new_device_to_session`. -/
  | addNewDeviceToSession (gettid : ℕ) (fd sId : ℤ)
  | startDevice (k : ℕ × ℤ)
  | endDevice (k : ℕ × ℤ)
  | updateBPAddress (k : ℕ × ℤ) (len : ℤ) (bpType : ℕ) (addr : UInt64) (ans : UpdateAnswers)
  /-- `DisArm` and `setupPEBSbuffer`: `remove_device(fd)`. -/
  | removeDevice (gettid : ℕ) (fd : ℤ) (ans : RemoveAnswers)
  | removeDeviceBySession (gettid : ℕ) (sessionId : ℤ) (ans : ℤ → RemoveAnswers)

namespace Registry

/-- The value `registerDevice` writes to `fown_ex.pid`: the process, not the thread. -/
def fownExPid (getpid _gettid : ℕ) : ℕ := getpid

/-- A call through the pointer of a device in the map. -/
def withDevice (st : Registry) (k : ℕ × ℤ) (f : Device → Device) : Registry :=
  match st.platform.getDevice k.1 k.2 with
  | none => st
  | some dev => { st with platform := st.platform.setDevice k.1 k.2 (f dev) }

/-- One operation, in the process `getpid`. -/
def step (getpid : ℕ) (st : Registry) : SessionOp → Outcome Registry Unit
  | .addNewDevice gettid dev sId ans =>
    match st.platform.openDevice dev sId ans with
    | .error h => .ended h st
    | .ok (ret, dev, p) =>
      if ret = 0 then
        .running () {
          platform := p.addNewDevice gettid dev.deviceFileId dev
          registering := (gettid, dev.deviceFileId, sId) :: st.registering
          fOwnerEx := Function.update st.fOwnerEx dev.deviceFileId (fownExPid getpid gettid) }
      else .running () { st with platform := p }
  | .addNewDeviceToSession gettid fd sId =>
    if (gettid, fd, sId) ∈ st.registering then
      .running () { st with
        platform := st.platform.addNewDeviceToSession fd sId
        registering := st.registering.erase (gettid, fd, sId) }
    else .running () st
  | .startDevice k => .running () (st.withDevice k Device.startDevice)
  | .endDevice k => .running () (st.withDevice k Device.endDevice)
  | .updateBPAddress k len bpType addr ans =>
    .running () (st.withDevice k fun dev => (dev.updateBPAddress len bpType addr ans).2)
  | .removeDevice gettid fd ans =>
    match st.platform.removeDevice gettid fd true ans with
    | .error h => .ended h st
    | .ok p => .running () { st with platform := p }
  | .removeDeviceBySession gettid sessionId ans =>
    match st.platform.removeDeviceBySession gettid sessionId ans with
    | .error h => .ended h st
    | .ok (_, p) => .running () { st with platform := p }

/-- How the operations are used. The kernel hands out handles that are not open; a
thread acts on its own sessions, `ownerOf` naming the thread of a session; a device
is removed only after its registration has returned. -/
def Used (ownerOf : ℤ → ℕ) (st : Registry) : SessionOp → Prop
  | .addNewDevice gettid _ sId ans =>
    ownerOf sId = gettid ∧ ans.perfEventOpen ∉ st.platform.kernel.openFds
  | .removeDevice gettid fd _ => ∀ s, (gettid, fd, s) ∉ st.registering
  | .removeDeviceBySession gettid sessionId _ =>
    ownerOf sessionId = gettid ∧ ∀ fd s, (gettid, fd, s) ∉ st.registering
  | _ => True

end Registry

namespace Platform

/-- The session a key of `deviceMap` is registered for. -/
def sessionOf (p : Platform) (t : ℕ) (fd : ℤ) : Option ℤ := (p.getDevice t fd).map Device.sessionId

theorem sessionOf_eq_some {p : Platform} {t : ℕ} {fd s : ℤ} :
    p.sessionOf t fd = some s ↔ ∃ dev, p.getDevice t fd = some dev ∧ dev.sessionId = s := by
  simp [sessionOf]

theorem sessionOf_addNewDevice (p : Platform) (gettid : ℕ) (fd : ℤ) (dev : Device) (t : ℕ)
    (fd' : ℤ) : (p.addNewDevice gettid fd dev).sessionOf t fd' =
      if t = gettid ∧ fd' = fd then some dev.sessionId else p.sessionOf t fd' := by
  by_cases hk : (t, fd') = (gettid, fd)
  · obtain ⟨rfl, rfl⟩ := Prod.mk.inj hk
    simp [sessionOf, getDevice, addNewDevice]
  · rw [if_neg fun e => hk (Prod.ext e.1 e.2)]
    simp only [sessionOf, getDevice, addNewDevice]
    rw [AList.lookup_insert_ne hk]

theorem mem_sessionDevices {p : Platform} {s fd : ℤ} :
    fd ∈ p.sessionDevices s ↔ (s, fd) ∈ p.deviceSessionMultiMap := by
  simp [sessionDevices]

theorem sessionDevices_nodup {p : Platform} (h : p.deviceSessionMultiMap.Nodup) (s : ℤ) :
    (p.sessionDevices s).Nodup := by
  refine List.Nodup.map_on ?_ (h.filter _)
  intro a ha b hb hab
  have h1 : a.1 = s := by simpa using (List.mem_filter.mp ha).2
  have h2 : b.1 = s := by simpa using (List.mem_filter.mp hb).2
  exact Prod.ext (h1.trans h2.symm) hab

end Platform

namespace Registry

variable {st st' : Registry} {t : ℕ} {fd : ℤ}

/-- A call on a device enters no key and writes no owner. -/
theorem getDevice_of_withDevice (k : ℕ × ℤ) (f : Device → Device)
    (hfd : (st.withDevice k f).platform.getDevice t fd ≠ none) :
    st.platform.getDevice t fd ≠ none ∧ (st.withDevice k f).fOwnerEx fd = st.fOwnerEx fd := by
  unfold withDevice at hfd ⊢
  cases hdev : st.platform.getDevice k.1 k.2 with
  | none =>
    rw [hdev] at hfd
    exact ⟨hfd, rfl⟩
  | some dev =>
    rw [hdev] at hfd
    refine ⟨?_, rfl⟩
    by_cases hk : (t, fd) = (k.1, k.2)
    · obtain ⟨rfl, rfl⟩ := Prod.mk.inj hk
      exact hdev ▸ Option.some_ne_none dev
    · rwa [Platform.getDevice_setDevice_ne _ _ _ _ hk] at hfd

/-- **Where a key of the device map comes from.** It was there before, under the owner it
has, or the step was a registration, of the same handle and by that thread if the key is
new. -/
theorem step_entered {getpid : ℕ} {op : SessionOp} (hs : st.step getpid op = .running () st')
    (hfd : st'.platform.getDevice t fd ≠ none) :
    (st.platform.getDevice t fd ≠ none ∧ st'.fOwnerEx fd = st.fOwnerEx fd) ∨
    ∃ gettid dev sId ans, op = .addNewDevice gettid dev sId ans ∧
      st'.fOwnerEx fd = fownExPid getpid gettid ∧
      (t ≠ gettid → st.platform.getDevice t fd ≠ none) := by
  cases op with
  | addNewDevice gettid dev sId ans =>
    cases hopen : st.platform.openDevice dev sId ans with
    | error e => simp [step, hopen] at hs
    | ok r =>
      obtain ⟨ret, dev', p⟩ := r
      obtain ⟨rfl, hmap, -, -⟩ := Platform.openDevice_cases hopen
      by_cases hret : ret = 0
      · obtain rfl : _ = st' := by simpa [step, hopen, hret] using hs
        have hne : (t, fd) ≠ (gettid, ans.perfEventOpen) → st.platform.getDevice t fd ≠ none := by
          intro hk
          rw [Platform.getDevice, Platform.addNewDevice, AList.lookup_insert_ne hk, hmap] at hfd
          exact hfd
        by_cases hk : fd = ans.perfEventOpen
        · -- the handle that comes in; another thread may have used its number before
          refine Or.inr ⟨gettid, dev, sId, ans, rfl, ?_, fun ht => hne fun e => ?_⟩
          · subst hk
            exact Function.update_self ans.perfEventOpen (fownExPid getpid gettid) st.fOwnerEx
          · exact ht (Prod.mk.inj e).1
        · exact Or.inl ⟨hne fun e => hk (Prod.mk.inj e).2, Function.update_of_ne hk _ _⟩
      · -- a failed registration enters nothing
        obtain rfl : _ = st' := by simpa [step, hopen, hret] using hs
        rw [Platform.getDevice, hmap] at hfd
        exact Or.inl ⟨hfd, rfl⟩
  | addNewDeviceToSession gettid fd' sId =>
    by_cases hm : (gettid, fd', sId) ∈ st.registering
    · obtain rfl : _ = st' := by simpa [step, hm] using hs
      exact Or.inl ⟨hfd, rfl⟩
    · obtain rfl : st = st' := by simpa [step, hm] using hs
      exact Or.inl ⟨hfd, rfl⟩
  | startDevice k =>
    obtain rfl := (Outcome.running.inj hs).2
    exact Or.inl (getDevice_of_withDevice k _ hfd)
  | endDevice k =>
    obtain rfl := (Outcome.running.inj hs).2
    exact Or.inl (getDevice_of_withDevice k _ hfd)
  | updateBPAddress k len bpType addr ans =>
    obtain rfl := (Outcome.running.inj hs).2
    exact Or.inl (getDevice_of_withDevice k _ hfd)
  | removeDevice gettid fd' ans =>
    cases hrem : st.platform.removeDevice gettid fd' true ans with
    | error e => simp [step, hrem] at hs
    | ok p =>
      obtain rfl : _ = st' := by simpa [step, hrem] using hs
      exact Or.inl ⟨Platform.getDevice_of_removeDevice hrem hfd, rfl⟩
  | removeDeviceBySession gettid s ans =>
    cases hrem : st.platform.removeDeviceBySession gettid s ans with
    | error e => simp [step, hrem] at hs
    | ok r =>
      obtain rfl : _ = st' := by simpa [step, hrem] using hs
      exact Or.inl ⟨Platform.getDevice_of_removeDeviceBySession hrem hfd, rfl⟩

end Registry

end Kognizance
