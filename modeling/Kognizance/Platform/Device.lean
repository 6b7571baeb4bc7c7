import Mathlib.Data.List.AList
import Kognizance.Lib.Run
import Kognizance.Platform.Event

/-!
# Devices and the platform's maps

`Device`, `BPDevice` and `Platform` of the tool: a device is an open perf event
with a mapped ring buffer; the platform keeps all of them in `deviceMap`, by
thread and file handle, and the handles of a session in `deviceSessionMultiMap`.

System and hypervisor calls are answered from outside: every function takes the
answers it would get (`RegisterAnswers`, `RemoveAnswers`, `UpdateAnswers`). A
failed `CHECK` ends the process.

* `Platform.registerDevice` opens a device and enters it into both maps, or fails
  at one of its system calls; `Platform.openDevice` is the part before the maps, and
  `registerDevice_returns` says what each way out leaves.
* `Platform.removeDevice` stops a device, closes it and takes it out of the maps.
* `Platform.resumeAllDevices` and `Platform.resumeDevicesBySession` give the
  devices that `enable_device` is called on.
-/

namespace Kognizance

open Process

/-- `EBSDEVICE`, `PEBSDEVICE` and `BPDEVICE`. -/
inductive DeviceType
  | ebsDevice
  | pebsDevice
  | bpDevice
  deriving DecidableEq, Repr

/-- A device. The last three fields are those of `BPDevice`. -/
structure Device where
  deviceFileId : ℤ
  sessionId : ℤ
  deviceType : DeviceType
  isDisabled : Bool
  length : ℤ
  address : UInt64
  type : ℕ
  deriving DecidableEq, Repr

/-- The perf file handles and ring buffers the process holds. -/
structure Kernel where
  openFds : List ℤ
  mappedBuffers : List ℤ
  deriving DecidableEq, Repr

/-- The platform singleton. A device is found by thread and file handle. -/
structure Platform where
  deviceMap : AList fun _ : ℕ × ℤ => Device
  deviceSessionMultiMap : List (ℤ × ℤ)
  /-- The thread-local `sessionKey`. -/
  sessionKey : ℕ → ℤ
  kernel : Kernel

/-- What the system calls of `registerDevice` answer: the handle of
`perf_event_open` (`-1` when it fails) and whether each later call succeeds. -/
structure RegisterAnswers where
  perfEventOpen : ℤ
  mmapOk : Bool
  closeOk : Bool
  setFlOk : Bool
  sigactionOk : Bool
  setSigOk : Bool
  setOwnOk : Bool
  deriving DecidableEq, Repr

namespace RegisterAnswers

/-- Every system call succeeds. -/
def Succeeds (ans : RegisterAnswers) : Prop :=
  ans.perfEventOpen ≠ -1 ∧ ans.mmapOk ∧ ans.setFlOk ∧ ans.sigactionOk ∧ ans.setSigOk ∧
    ans.setOwnOk

/-- The buffer is mapped, and then `sigaction` or `F_SETOWN_EX` fails. -/
def LeavesOpen (ans : RegisterAnswers) : Prop :=
  ans.perfEventOpen ≠ -1 ∧ ans.mmapOk ∧ ans.setFlOk ∧
    (ans.sigactionOk = false ∨ ans.sigactionOk ∧ ans.setSigOk ∧ ans.setOwnOk = false)

instance (ans : RegisterAnswers) : Decidable ans.Succeeds :=
  inferInstanceAs (Decidable (_ ∧ _))

instance (ans : RegisterAnswers) : Decidable ans.LeavesOpen :=
  inferInstanceAs (Decidable (_ ∧ _))

theorem LeavesOpen.not_succeeds {ans : RegisterAnswers} (h : ans.LeavesOpen) : ¬ ans.Succeeds := by
  rintro ⟨-, -, -, hsigaction, -, hown⟩
  rcases h.2.2.2 with hfail | ⟨-, -, hfail⟩
  · exact Bool.noConfusion (hfail.symm.trans hsigaction)
  · exact Bool.noConfusion (hfail.symm.trans hown)

end RegisterAnswers

/-- What `munmap` and `close` answer when a device is removed. -/
structure RemoveAnswers where
  munmapOk : Bool
  closeOk : Bool
  deriving DecidableEq, Repr

/-- What the hypervisor and `ioctl` answer when a breakpoint is moved. -/
structure UpdateAnswers where
  agentOk : Bool
  ioctlOk : Bool
  deriving DecidableEq, Repr

/-- The constructor `BPDevice(len, bpType, addr)`, before the device is opened. -/
def BPDevice (len : ℤ) (bpType : ℕ) (addr : UInt64) : Device where
  deviceFileId := -1
  sessionId := -1
  deviceType := .bpDevice
  isDisabled := false
  length := len
  address := addr
  type := bpType

/-- The constructor `PEBSDevice(accessType)`, before the device is opened. The access
type only selects the event that the kernel counts. -/
def PEBSDevice : Device where
  deviceFileId := -1
  sessionId := -1
  deviceType := .pebsDevice
  isDisabled := false
  length := 0
  address := 0
  type := 0

namespace Device

/-- `start_device`: the device counts as enabled again. -/
def startDevice (dev : Device) : Device := { dev with isDisabled := false }

/-- `end_device`: the device counts as disabled. -/
def endDevice (dev : Device) : Device := { dev with isDisabled := true }

/-- `updateBPAddress`: the hypervisor moves the breakpoint, else the `ioctl` does;
the device is updated only when one of them does. -/
def updateBPAddress (dev : Device) (len : ℤ) (bpType : ℕ) (addr : UInt64)
    (ans : UpdateAnswers) : Bool × Device :=
  if ans.agentOk || ans.ioctlOk then
    (true, { dev with isDisabled := false, length := len, address := addr, type := bpType })
  else (false, dev)

end Device

namespace Platform

/-- `get_device`. -/
def getDevice (p : Platform) (threadId : ℕ) (deviceFileId : ℤ) : Option Device :=
  p.deviceMap.lookup (threadId, deviceFileId)

/-- A change made to a device through the pointer the map holds. -/
def setDevice (p : Platform) (threadId : ℕ) (deviceFileId : ℤ) (dev : Device) : Platform :=
  { p with deviceMap := p.deviceMap.insert (threadId, deviceFileId) dev }

/-- `add_new_device`. -/
def addNewDevice (p : Platform) (gettid : ℕ) (deviceFileId : ℤ) (dev : Device) : Platform :=
  { p with deviceMap := p.deviceMap.insert (gettid, deviceFileId) dev }

/-- `add_new_device_to_session`. -/
def addNewDeviceToSession (p : Platform) (deviceFileId sessionId : ℤ) : Platform :=
  { p with deviceSessionMultiMap := p.deviceSessionMultiMap ++ [(sessionId, deviceFileId)] }

/-- `Device::registerDevice` up to the maps: the handle is opened, mapped, made to signal
and given an owner. The handle and the buffer stay open when the signal handler or the
owner cannot be set. -/
def openDevice (p : Platform) (dev : Device) (sId : ℤ) (ans : RegisterAnswers) :
    Except Halt (ℤ × Device × Platform) :=
  let dev := { dev with sessionId := sId, deviceFileId := ans.perfEventOpen }
  if ans.perfEventOpen = -1 then .ok (-1, dev, p)
  else
    let opened := { p.kernel with openFds := ans.perfEventOpen :: p.kernel.openFds }
    if !ans.mmapOk then
      -- `CHECK(close(deviceFileId))` gives the handle back
      if ans.closeOk then .ok (-1, dev, p) else .error .exit
    else
      let kernel :=
        { opened with mappedBuffers := ans.perfEventOpen :: p.kernel.mappedBuffers }
      if !ans.setFlOk then .error .exit
      -- from here on a failure leaves the handle and the buffer open
      else if !ans.sigactionOk then .ok (-1, dev, { p with kernel := kernel })
      else if !ans.setSigOk then .error .exit
      else if !ans.setOwnOk then .ok (-1, dev, { p with kernel := kernel })
      else .ok (0, dev, { p with kernel := kernel })

/-- `Device::registerDevice` -/
def registerDevice (p : Platform) (gettid : ℕ) (dev : Device) (sId : ℤ)
    (ans : RegisterAnswers) : Except Halt (ℤ × Device × Platform) :=
  match p.openDevice dev sId ans with
  | .error h => .error h
  | .ok (ret, dev, p) =>
    -- the device is entered into both maps last
    if ret = 0 then
      let p := p.addNewDevice gettid dev.deviceFileId dev
      .ok (ret, dev, p.addNewDeviceToSession dev.deviceFileId sId)
    else .ok (ret, dev, p)

/-- `Device::unRegisterDevice`: what is left of the handle and the buffer. -/
def unRegisterDevice (p : Platform) (deviceFileId : ℤ) (ans : RemoveAnswers) :
    Except Halt Platform :=
  if !ans.munmapOk then .error .exit
  else if !ans.closeOk then .error .exit
  else .ok { p with kernel :=
    { openFds := p.kernel.openFds.erase deviceFileId
      mappedBuffers := p.kernel.mappedBuffers.erase deviceFileId } }

/-- `remove_device`: a handle the map does not hold is left alone. -/
def removeDevice (p : Platform) (gettid : ℕ) (deviceFileId : ℤ) (removeSessionMap : Bool)
    (ans : RemoveAnswers) : Except Halt Platform :=
  match p.getDevice gettid deviceFileId with
  | none => .ok p
  | some dev =>
    -- the pair of the session's multimap goes first
    let p := if removeSessionMap then
        { p with deviceSessionMultiMap :=
            p.deviceSessionMultiMap.erase (dev.sessionId, deviceFileId) }
      else p
    match (p.setDevice gettid deviceFileId dev.endDevice).unRegisterDevice deviceFileId ans with
    | .error h => .error h
    -- the entry is erased only when the device could be closed
    | .ok p => .ok { p with deviceMap := p.deviceMap.erase (gettid, deviceFileId) }

/-- The handles of a session, in the order `equal_range` visits them. -/
def sessionDevices (p : Platform) (sessionId : ℤ) : List ℤ :=
  (p.deviceSessionMultiMap.filter fun sd => sd.1 = sessionId).map Prod.snd

/-- The map holds a device under this key and it is not marked disabled. -/
def isEnabled (p : Platform) (k : ℕ × ℤ) : Bool :=
  match p.deviceMap.lookup k with
  | some dev => !dev.isDisabled
  | none => false

/-- The devices `pause_all_devices` calls `disable_device` on. -/
def pauseAllDevices (p : Platform) : List (ℕ × ℤ) := p.deviceMap.keys

/-- The devices `pause_devices_by_session` calls `disable_device` on. -/
def pauseDevicesBySession (p : Platform) (gettid : ℕ) (sessionId : ℤ) : List (ℕ × ℤ) :=
  ((p.sessionDevices sessionId).map fun fd => (gettid, fd)).filter p.isEnabled

/-- The devices `resume_all_devices` calls `enable_device` on. -/
def resumeAllDevices (p : Platform) : List (ℕ × ℤ) := p.deviceMap.keys.filter p.isEnabled

/-- The devices `resume_devices_by_session` calls `enable_device` on. -/
def resumeDevicesBySession (p : Platform) (gettid : ℕ) (sessionId : ℤ) : List (ℕ × ℤ) :=
  ((p.sessionDevices sessionId).map fun fd => (gettid, fd)).filter p.isEnabled

/-! ### What each operation does to `deviceMap` -/

/-- The handle and its buffer, before the device is in the maps. -/
def leftOpen (p : Platform) (fd : ℤ) : Platform :=
  { p with kernel := ⟨fd :: p.kernel.openFds, fd :: p.kernel.mappedBuffers⟩ }

/-- The device in both maps, with its handle and its buffer. -/
def registered (p : Platform) (gettid : ℕ) (dev : Device) (sId fd : ℤ) : Platform :=
  ((p.leftOpen fd).addNewDevice gettid fd
    { dev with sessionId := sId, deviceFileId := fd }).addNewDeviceToSession fd sId

/-- The device in neither map, or only not in the first one; its handle and buffer given back. -/
def removed (p : Platform) (gettid : ℕ) (fd : ℤ) (removeSessionMap : Bool) (dev : Device) :
    Platform where
  deviceMap := p.deviceMap.erase (gettid, fd)
  deviceSessionMultiMap :=
    if removeSessionMap then p.deviceSessionMultiMap.erase (dev.sessionId, fd)
    else p.deviceSessionMultiMap
  sessionKey := p.sessionKey
  kernel := ⟨p.kernel.openFds.erase fd, p.kernel.mappedBuffers.erase fd⟩

section Lookup

variable (p : Platform) (t : ℕ) (fd : ℤ) (dev : Device)

@[simp] theorem getDevice_setDevice : (p.setDevice t fd dev).getDevice t fd = some dev :=
  AList.lookup_insert _

theorem getDevice_setDevice_ne {t' : ℕ} {fd' : ℤ} (h : (t', fd') ≠ (t, fd)) :
    (p.setDevice t fd dev).getDevice t' fd' = p.getDevice t' fd' :=
  AList.lookup_insert_ne h

@[simp] theorem setDevice_setDevice (dev' : Device) :
    (p.setDevice t fd dev).setDevice t fd dev' = p.setDevice t fd dev' := by
  unfold setDevice
  rw [AList.insert_insert]

end Lookup

/-- **Every way `openDevice` can return.** It gives the device its handle, or it fails with
the handle left open, or it fails with nothing left. -/
theorem openDevice_returns {p p' : Platform} {dev dev' : Device} {sId ret : ℤ}
    {ans : RegisterAnswers} (h : p.openDevice dev sId ans = .ok (ret, dev', p')) :
    dev' = { dev with sessionId := sId, deviceFileId := ans.perfEventOpen } ∧
    ((ans.Succeeds ∧ ret = 0 ∧ p' = p.leftOpen ans.perfEventOpen) ∨
      (ans.LeavesOpen ∧ ret = -1 ∧ p' = p.leftOpen ans.perfEventOpen) ∨
      (¬ ans.Succeeds ∧ ¬ ans.LeavesOpen ∧ ret = -1 ∧ p' = p)) := by
  have hret : ∀ {r : ℤ} {d : Device} {q : Platform},
      (Except.ok (r, d, q) : Except Halt (ℤ × Device × Platform)) = .ok (ret, dev', p') →
        ret = r ∧ dev' = d ∧ p' = q := by
    intro r d q hok
    obtain ⟨hr, hrest⟩ := Prod.mk.inj (Except.ok.inj hok)
    obtain ⟨hd, hq⟩ := Prod.mk.inj hrest
    exact ⟨hr.symm, hd.symm, hq.symm⟩
  rcases ans with ⟨fd, mmapOk, closeOk, setFlOk, sigactionOk, setSigOk, setOwnOk⟩
  unfold openDevice at h
  by_cases hfd : fd = -1
  · -- no handle
    rw [if_pos hfd] at h
    obtain ⟨rfl, rfl, rfl⟩ := hret h
    exact ⟨rfl, Or.inr (Or.inr ⟨fun hs => hs.1 hfd, fun hs => hs.1 hfd, rfl, rfl⟩)⟩
  rw [if_neg hfd] at h
  cases mmapOk with
  | false =>
    -- the handle is given back
    cases closeOk with
    | false => cases h
    | true =>
      obtain ⟨rfl, rfl, rfl⟩ := hret h
      exact ⟨rfl, Or.inr (Or.inr ⟨fun hs => Bool.noConfusion hs.2.1,
        fun hs => Bool.noConfusion hs.2.1, rfl, rfl⟩)⟩
  | true =>
    -- from here on the handle stays open, whatever the later calls answer
    cases setFlOk with
    | false => cases h
    | true =>
      cases sigactionOk with
      | false =>
        obtain ⟨rfl, rfl, rfl⟩ := hret h
        exact ⟨rfl, Or.inr (Or.inl ⟨⟨hfd, rfl, rfl, Or.inl rfl⟩, rfl, rfl⟩)⟩
      | true =>
        cases setSigOk with
        | false => cases h
        | true =>
          cases setOwnOk with
          | false =>
            obtain ⟨rfl, rfl, rfl⟩ := hret h
            exact ⟨rfl, Or.inr (Or.inl ⟨⟨hfd, rfl, rfl, Or.inr ⟨rfl, rfl, rfl⟩⟩, rfl, rfl⟩)⟩
          | true =>
            obtain ⟨rfl, rfl, rfl⟩ := hret h
            exact ⟨rfl, Or.inl ⟨⟨hfd, rfl, rfl, rfl, rfl, rfl⟩, rfl, rfl⟩⟩

/-- `openDevice` leaves the maps as they are; a handle that was opened is either owned by
the device or left behind. -/
theorem openDevice_cases {p p' : Platform} {dev dev' : Device} {sId ret : ℤ}
    {ans : RegisterAnswers} (h : p.openDevice dev sId ans = .ok (ret, dev', p')) :
    dev' = { dev with sessionId := sId, deviceFileId := ans.perfEventOpen } ∧
    p'.deviceMap = p.deviceMap ∧ p'.deviceSessionMultiMap = p.deviceSessionMultiMap ∧
    (p'.kernel.openFds = p.kernel.openFds ∧ ret = -1 ∨
      p'.kernel.openFds = ans.perfEventOpen :: p.kernel.openFds ∧ ans.perfEventOpen ≠ -1 ∧
        (ret = 0 ∨ ret = -1)) := by
  obtain ⟨rfl, ⟨hs, rfl, rfl⟩ | ⟨hleft, rfl, rfl⟩ | ⟨-, -, rfl, rfl⟩⟩ := openDevice_returns h
  · exact ⟨rfl, rfl, rfl, Or.inr ⟨rfl, hs.1, Or.inl rfl⟩⟩
  · exact ⟨rfl, rfl, rfl, Or.inr ⟨rfl, hleft.1, Or.inr rfl⟩⟩
  · exact ⟨rfl, rfl, rfl, Or.inl ⟨rfl, rfl⟩⟩

/-- **What each way out of `registerDevice` leaves.** -/
theorem registerDevice_returns {p p' : Platform} {gettid : ℕ} {dev dev' : Device} {sId ret : ℤ}
    {ans : RegisterAnswers} (h : p.registerDevice gettid dev sId ans = .ok (ret, dev', p')) :
    dev' = { dev with sessionId := sId, deviceFileId := ans.perfEventOpen } ∧
    ((ans.Succeeds ∧ ret = 0 ∧ p' = p.registered gettid dev sId ans.perfEventOpen) ∨
      (ans.LeavesOpen ∧ ret = -1 ∧ p' = p.leftOpen ans.perfEventOpen) ∨
      (¬ ans.Succeeds ∧ ¬ ans.LeavesOpen ∧ ret = -1 ∧ p' = p)) := by
  unfold registerDevice at h
  cases hopen : p.openDevice dev sId ans with
  | error e =>
    rw [hopen] at h
    cases h
  | ok opened =>
    obtain ⟨r, d, q⟩ := opened
    rw [hopen] at h
    obtain ⟨rfl, ⟨hs, rfl, rfl⟩ | ⟨hleft, rfl, rfl⟩ | ⟨hs, hleft, rfl, rfl⟩⟩ :=
      openDevice_returns hopen
    · -- only now are the two entries made
      obtain ⟨rfl, rfl, rfl⟩ : 0 = ret ∧ _ = dev' ∧ _ = p' := by simpa using h
      exact ⟨rfl, Or.inl ⟨hs, rfl, rfl⟩⟩
    · obtain ⟨rfl, rfl, rfl⟩ : -1 = ret ∧ _ = dev' ∧ _ = p' := by simpa using h
      exact ⟨rfl, Or.inr (Or.inl ⟨hleft, rfl, rfl⟩)⟩
    · obtain ⟨rfl, rfl, rfl⟩ : -1 = ret ∧ _ = dev' ∧ _ = p' := by simpa using h
      exact ⟨rfl, Or.inr (Or.inr ⟨hs, hleft, rfl, rfl⟩)⟩

/-- What a successful `registerDevice` leaves: the device is in the map under its
fresh handle, and the handle is open. -/
structure Registered (p : Platform) (gettid : ℕ) (dev : Device) (sId : ℤ)
    (ans : RegisterAnswers) (p' : Platform) : Prop where
  fd_ne : ans.perfEventOpen ≠ -1
  deviceMap : p'.deviceMap = p.deviceMap.insert (gettid, ans.perfEventOpen)
    { dev with sessionId := sId, deviceFileId := ans.perfEventOpen }
  openFds : p'.kernel.openFds = ans.perfEventOpen :: p.kernel.openFds

namespace Registered

variable {p p' : Platform} {gettid : ℕ} {dev : Device} {sId : ℤ} {ans : RegisterAnswers}

theorem getDevice_self (h : Registered p gettid dev sId ans p') :
    p'.getDevice gettid ans.perfEventOpen
      = some { dev with sessionId := sId, deviceFileId := ans.perfEventOpen } := by
  rw [getDevice, h.deviceMap]
  exact AList.lookup_insert _

theorem getDevice_ne (h : Registered p gettid dev sId ans p') {t : ℕ} {fd : ℤ}
    (hk : (t, fd) ≠ (gettid, ans.perfEventOpen)) : p'.getDevice t fd = p.getDevice t fd := by
  rw [getDevice, h.deviceMap]
  exact AList.lookup_insert_ne hk

end Registered

/-- **Every way `registerDevice` can return.** It registers the device, or it
fails with the maps as they were; a failure may leave the handle open. -/
theorem registerDevice_cases {p p' : Platform} {gettid : ℕ} {dev dev' : Device} {sId ret : ℤ}
    {ans : RegisterAnswers} (h : p.registerDevice gettid dev sId ans = .ok (ret, dev', p')) :
    (ret = 0 ∧ dev'.deviceFileId = ans.perfEventOpen ∧ Registered p gettid dev sId ans p') ∨
    (ret = -1 ∧ p'.deviceMap = p.deviceMap ∧
      (p'.kernel.openFds = p.kernel.openFds ∨
        p'.kernel.openFds = ans.perfEventOpen :: p.kernel.openFds)) := by
  obtain ⟨rfl, ⟨hs, rfl, rfl⟩ | ⟨-, rfl, rfl⟩ | ⟨-, -, rfl, rfl⟩⟩ := registerDevice_returns h
  · exact Or.inl ⟨rfl, rfl, ⟨hs.1, rfl, rfl⟩⟩
  · exact Or.inr ⟨rfl, rfl, Or.inr rfl⟩
  · exact Or.inr ⟨rfl, rfl, Or.inl rfl⟩

theorem unRegisterDevice_returns {p p' : Platform} {fd : ℤ} {ans : RemoveAnswers}
    (h : p.unRegisterDevice fd ans = .ok p') :
    p' = { p with kernel := ⟨p.kernel.openFds.erase fd, p.kernel.mappedBuffers.erase fd⟩ } := by
  rcases ans with ⟨munmapOk, closeOk⟩
  unfold unRegisterDevice at h
  -- both checks end the process
  cases munmapOk with
  | false => cases h
  | true =>
    cases closeOk with
    | false => cases h
    | true => exact (Except.ok.inj h).symm

/-- **Every way `removeDevice` can return.** There is no device, or it is removed. -/
theorem removeDevice_returns {p p' : Platform} {gettid : ℕ} {fd : ℤ} {b : Bool}
    {ans : RemoveAnswers} (h : p.removeDevice gettid fd b ans = .ok p') :
    (p.getDevice gettid fd = none ∧ p' = p) ∨
    ∃ dev, p.getDevice gettid fd = some dev ∧ p' = p.removed gettid fd b dev := by
  unfold removeDevice at h
  cases hdev : p.getDevice gettid fd with
  | none =>
    rw [hdev] at h
    exact Or.inl ⟨rfl, (Except.ok.inj h).symm⟩
  | some dev =>
    rw [hdev] at h
    refine Or.inr ⟨dev, rfl, ?_⟩
    -- `end_device` marks the device before its entry goes, which leaves no trace
    have herase : (p.deviceMap.insert (gettid, fd) dev.endDevice).erase (gettid, fd)
        = p.deviceMap.erase (gettid, fd) := by
      ext1
      exact List.kerase_cons_eq rfl
    dsimp only at h
    split at h
    · cases h
    · next q hq =>
      obtain rfl := unRegisterDevice_returns hq
      obtain rfl := Except.ok.inj h
      unfold removed
      rw [← herase]
      cases b <;> rfl

/-- Removing a device returns when `munmap` and `close` succeed. -/
theorem removeDevice_succeeds {ans : RemoveAnswers}
    (hans : ans.munmapOk = true ∧ ans.closeOk = true) (p : Platform) (t : ℕ) (fd : ℤ) (b : Bool) :
    ∃ p', p.removeDevice t fd b ans = .ok p' := by
  unfold removeDevice
  cases p.getDevice t fd with
  | none => exact ⟨p, rfl⟩
  | some dev => simp [unRegisterDevice, hans]

/-- The device is gone from the map and its handle closed, or there was none. -/
theorem removeDevice_cases {p p' : Platform} {gettid : ℕ} {fd : ℤ} {b : Bool}
    {ans : RemoveAnswers} (h : p.removeDevice gettid fd b ans = .ok p') :
    (p.getDevice gettid fd = none ∧ p' = p) ∨
    (p.getDevice gettid fd ≠ none ∧ p'.deviceMap = p.deviceMap.erase (gettid, fd) ∧
      p'.kernel.openFds = p.kernel.openFds.erase fd) := by
  rcases removeDevice_returns h with hnone | ⟨dev, hdev, rfl⟩
  · exact Or.inl hnone
  · exact Or.inr ⟨fun hnone => Option.some_ne_none dev (hdev.symm.trans hnone), rfl, rfl⟩

/-- After `removeDevice` the key holds no device, the others what they held. -/
theorem removeDevice_getDevice {p p' : Platform} {gettid : ℕ} {fd : ℤ} {b : Bool}
    {ans : RemoveAnswers} (h : p.removeDevice gettid fd b ans = .ok p') (t : ℕ) (fd' : ℤ) :
    p'.getDevice t fd' = if (t, fd') = (gettid, fd) then none else p.getDevice t fd' := by
  -- the key of the device, then every other one
  split
  · next hk =>
    obtain ⟨rfl, rfl⟩ := Prod.mk.inj hk
    rcases removeDevice_cases h with ⟨hnone, rfl⟩ | ⟨-, hmap, -⟩
    · exact hnone
    · rw [getDevice, hmap]
      exact AList.lookup_erase _ _
  · next hk =>
    rcases removeDevice_cases h with ⟨-, rfl⟩ | ⟨-, hmap, -⟩
    · rfl
    · rw [getDevice, hmap]
      exact AList.lookup_erase_ne hk

end Platform

/-- A platform without devices. -/
def Platform.idle : Platform where
  deviceMap := ∅
  deviceSessionMultiMap := []
  sessionKey := fun _ => 0
  kernel := { openFds := [], mappedBuffers := [] }

end Kognizance
