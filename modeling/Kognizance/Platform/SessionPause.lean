import Kognizance.Platform.MapsAgree

/-!
# Pausing and resuming a session

`pause_devices_by_session` and `resume_devices_by_session` take the handles of the
session from `deviceSessionMultiMap` and look each of them up under the thread that
makes the call. `kvm__disableEBSDevicesThisSession` is given a thread and may be
called from another one, which finds none of its devices.

* `Platform.Due` are the devices of a session that a pause or a resume is for.
* `session_reached_iff` says which calls reach exactly these.
-/

namespace Kognizance

open Process

namespace Platform

/-- The device under this key belongs to the session and is not marked disabled. -/
def Due (p : Platform) (s : ℤ) (k : ℕ × ℤ) : Prop :=
  ∃ dev, p.getDevice k.1 k.2 = some dev ∧ dev.sessionId = s ∧ dev.isDisabled = false

instance (p : Platform) (s : ℤ) (k : ℕ × ℤ) : Decidable (p.Due s k) :=
  decidable_of_iff
    ((p.getDevice k.1 k.2).any fun dev => dev.sessionId = s && !dev.isDisabled) <| by
      cases h : p.getDevice k.1 k.2 <;> simp [Due, h]

theorem isEnabled_iff {p : Platform} {k : ℕ × ℤ} :
    p.isEnabled k = true ↔ ∃ dev, p.getDevice k.1 k.2 = some dev ∧ dev.isDisabled = false := by
  unfold isEnabled
  cases h : p.deviceMap.lookup k <;> simp [getDevice, h]

/-- What the loops of a session call find: the handles of the session that the caller
itself holds an enabled device under. -/
theorem mem_pauseDevicesBySession {p : Platform} {gettid : ℕ} {s : ℤ} {k : ℕ × ℤ} :
    k ∈ p.pauseDevicesBySession gettid s ↔
      k.1 = gettid ∧ (s, k.2) ∈ p.deviceSessionMultiMap ∧ p.isEnabled k = true := by
  obtain ⟨t, fd⟩ := k
  simp only [pauseDevicesBySession, List.mem_filter, List.mem_map, Prod.mk.injEq,
    mem_sessionDevices]
  constructor
  · rintro ⟨⟨fd', hfd, rfl, rfl⟩, hen⟩
    exact ⟨rfl, hfd, hen⟩
  · rintro ⟨rfl, hfd, hen⟩
    exact ⟨⟨fd, hfd, rfl, rfl⟩, hen⟩

theorem pauseDevicesBySession_nodup {p : Platform} (h : p.deviceSessionMultiMap.Nodup)
    (gettid : ℕ) (s : ℤ) : (p.pauseDevicesBySession gettid s).Nodup :=
  ((sessionDevices_nodup h s).map fun _ _ hab => (Prod.mk.inj hab).2).filter _

/-- The two calls act on the same devices. -/
theorem resumeDevicesBySession_eq (p : Platform) (gettid : ℕ) (s : ℤ) :
    p.resumeDevicesBySession gettid s = p.pauseDevicesBySession gettid s := rfl

end Platform

namespace Registry

variable {ownerOf : ℤ → ℕ} {st : Registry}

/-- In agreeing maps a session call acts on the devices due that are the caller's own
and completely registered. -/
theorem Agree.mem_pause (h : Agree ownerOf st) {gettid : ℕ} {s : ℤ} {k : ℕ × ℤ} :
    k ∈ st.platform.pauseDevicesBySession gettid s ↔
      st.platform.Due s k ∧ k.1 = gettid ∧ (gettid, k.2, s) ∉ st.registering := by
  rw [Platform.mem_pauseDevicesBySession, Platform.isEnabled_iff, h.index.mem]
  constructor
  · rintro ⟨rfl, ⟨t, ht, hlate⟩, dev, hdev, hen⟩
    -- the handle has one holder, so the pair and the device are about the same key
    obtain rfl := h.index.unique t k.1 k.2 s dev.sessionId ht
      (Platform.sessionOf_eq_some.mpr ⟨dev, hdev, rfl⟩)
    obtain ⟨dev', hdev', hs⟩ := Platform.sessionOf_eq_some.mp ht
    obtain rfl := Option.some.inj (hdev'.symm.trans hdev)
    exact ⟨⟨dev', hdev, hs, hen⟩, rfl, hlate⟩
  · rintro ⟨⟨dev, hdev, hs, hen⟩, rfl, hlate⟩
    exact ⟨rfl, ⟨k.1, Platform.sessionOf_eq_some.mpr ⟨dev, hdev, hs⟩, hlate⟩, dev, hdev, hen⟩

/-- **Which calls reach the whole session.** In every state a run reaches, a pause and
a resume of session `s` act on no device twice, and they act on exactly the enabled
devices of `s` when the calling thread registered all of these itself and none of
them is still being registered. -/
theorem session_reached_iff (ownerOf : ℤ → ℕ) (getpid : ℕ) (p : Platform) (fOwnerEx : ℤ → ℕ)
    (ops : List SessionOp) (st : Registry)
    (hused : Along (step getpid) (Used ownerOf) (init p fOwnerEx) ops)
    (hrun : exec (step getpid) (init p fOwnerEx) ops = .running () st) (gettid : ℕ) (s : ℤ) :
    (st.platform.pauseDevicesBySession gettid s).Nodup ∧
    (st.platform.resumeDevicesBySession gettid s).Nodup ∧
    (((∀ k, k ∈ st.platform.pauseDevicesBySession gettid s ↔ st.platform.Due s k) ∧
        ∀ k, k ∈ st.platform.resumeDevicesBySession gettid s ↔ st.platform.Due s k) ↔
      ∀ k, st.platform.Due s k → k.1 = gettid ∧ (gettid, k.2, s) ∉ st.registering) := by
  have h := agree_of_run hused hrun
  have hnodup := Platform.pauseDevicesBySession_nodup h.index.nodup gettid s
  refine ⟨hnodup, hnodup, ?_⟩
  rw [Platform.resumeDevicesBySession_eq, and_self_iff]
  simp only [h.mem_pause]
  exact ⟨fun hall k hk => ((hall k).mpr hk).2, fun hown k => ⟨And.left, fun hk => ⟨hk, hown k hk⟩⟩⟩

/-- Thread 5 pauses session 0, and thread 6 has a device in another one: the device of thread 5
is due and is reached, once, and the other one is not. -/
theorem session_reached_twoDevices :
    (5, 7) ∈ twoDevicesRegistry.platform.pauseDevicesBySession 5 0 ∧
      (twoDevicesRegistry.platform.pauseDevicesBySession 5 0).Nodup ∧
      (6, 8) ∉ twoDevicesRegistry.platform.pauseDevicesBySession 5 0 := by
  obtain ⟨hnodup, -, hreached⟩ := session_reached_iff ownerOfTwo 5
    ⟨∅, [], fun _ => 0, ⟨[], []⟩⟩ (fun _ => 0) twoDevices twoDevicesRegistry used_twoDevices rfl 5 0
  -- the devices of session 0 are those of thread 5
  have hown : ∀ k, twoDevicesRegistry.platform.Due 0 k →
      k.1 = 5 ∧ (5, k.2, (0 : ℤ)) ∉ twoDevicesRegistry.registering := by
    rintro k ⟨dev, hdev, hs, -⟩
    have howner := (agree_of_run used_twoDevices rfl).owner k.1 k.2 0
      (Platform.sessionOf_eq_some.mpr ⟨dev, hdev, hs⟩)
    exact ⟨howner.symm, List.not_mem_nil⟩
  obtain ⟨hpaused, -⟩ := hreached.mpr hown
  refine ⟨(hpaused (5, 7)).mpr (by decide), hnodup, fun hother => ?_⟩
  exact absurd ((hpaused (6, 8)).mp hother) (by decide)

/-- Another thread pauses session 0: the device is due and is not found. -/
theorem session_missed :
    Along (step 5) (Used fun _ => 5) (init ⟨∅, [], fun _ => 0, ⟨[], []⟩⟩ fun _ => 0) oneDevice ∧
    ¬ ((∀ k, k ∈ (oneDeviceRegistry 5).platform.pauseDevicesBySession 6 0 ↔
          (oneDeviceRegistry 5).platform.Due 0 k) ∧
        ∀ k, k ∈ (oneDeviceRegistry 5).platform.resumeDevicesBySession 6 0 ↔
          (oneDeviceRegistry 5).platform.Due 0 k) := by
  refine ⟨.cons ⟨rfl, List.not_mem_nil⟩ rfl (.cons trivial rfl trivial), fun h => ?_⟩
  have hdue : (oneDeviceRegistry 5).platform.Due 0 (5, 7) := by decide
  have hmissed : (5, 7) ∉ (oneDeviceRegistry 5).platform.pauseDevicesBySession 6 0 := by decide
  exact hmissed ((h.1 (5, 7)).mpr hdue)

end Registry

end Kognizance
