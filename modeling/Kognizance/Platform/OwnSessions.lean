import Kognizance.Platform.MapsAgree
import Mathlib.Algebra.Ring.Int.Defs
import Mathlib.Algebra.Ring.Nat

/-!
# The sessions of a tool

A tool runs one session on each thread. `tool_sessionInit` draws a key for the thread, the
devices of the session are registered with it, and `tool_sessionExit` removes the devices of the
key. In between the handlers register, change and remove devices of their own thread.

* `exists_ownerOf`: fewer than 2^32 keys are drawn for one thread each.
* `OwnSessions`: a thread has devices in a session only, and all of them are registered with the
  key of that session.
* `newSession`, `registerDevice`, `setDevice`, `removeDevice` and `sessionExit` keep it, in this
  order what a session consists of.
-/

namespace Kognizance

open Process

/-- All calls of `registerDevice` succeed. -/
def RegisterAnswers.accepted (ans : RegisterAnswers) : Bool :=
  ans.perfEventOpen ≠ -1 && ans.mmapOk && ans.setFlOk && ans.sigactionOk && ans.setSigOk &&
    ans.setOwnOk

theorem RegisterAnswers.accepted_iff {ans : RegisterAnswers} :
    ans.accepted = true ↔ ans.Succeeds := by
  simp [accepted, Succeeds, and_assoc]

theorem RegisterAnswers.accepted_handle {ans : RegisterAnswers} (h : ans.accepted = true) :
    ans.perfEventOpen ≠ -1 :=
  (accepted_iff.mp h).1

/-! ### A registration, and a removal -/

section Register

variable {p p' : Platform} {gettid : ℕ} {dev dev' : Device} {sId ret : ℤ} {ans : RegisterAnswers}

namespace Platform

theorem registerDevice_accepted (hr : p.registerDevice gettid dev sId ans = .ok (ret, dev', p')) :
    (ret = 0 ↔ ans.accepted = true) ∧ p'.sessionKey = p.sessionKey := by
  rw [RegisterAnswers.accepted_iff]
  obtain ⟨-, ⟨hs, rfl, rfl⟩ | ⟨hleft, rfl, rfl⟩ | ⟨hs, -, rfl, rfl⟩⟩ := registerDevice_returns hr
  · exact ⟨iff_of_true rfl hs, rfl⟩
  · exact ⟨iff_of_false (by decide) hleft.not_succeeds, rfl⟩
  · exact ⟨iff_of_false (by decide) hs, rfl⟩

/-- **What a registration does to the map.** -/
theorem getDevice_registerDevice
    (hr : p.registerDevice gettid dev sId ans = .ok (ret, dev', p')) (t : ℕ) (fd : ℤ) :
    p'.getDevice t fd =
      if ans.accepted = true ∧ t = gettid ∧ fd = ans.perfEventOpen then
        some { dev with sessionId := sId, deviceFileId := ans.perfEventOpen }
      else p.getDevice t fd := by
  have hacc := (registerDevice_accepted hr).1
  rcases Platform.registerDevice_cases hr with ⟨hret, -, hreg⟩ | ⟨hret, hmap, -⟩
  · by_cases hk : t = gettid ∧ fd = ans.perfEventOpen
    · obtain ⟨rfl, rfl⟩ := hk
      rw [if_pos ⟨hacc.mp hret, rfl, rfl⟩]
      exact hreg.getDevice_self
    · rw [if_neg fun e => hk e.2]
      exact hreg.getDevice_ne fun e => hk (Prod.mk.inj e)
  · -- a registration that fails leaves the map as it was
    have hno : ans.accepted ≠ true := by
      intro e
      rw [hacc.mpr e] at hret
      exact absurd hret (by decide)
    rw [if_neg fun e => hno e.1, Platform.getDevice, hmap]
    rfl

/-- A device that is there after a registration is the new one, or was there before. -/
theorem device_of_registerDevice
    (hr : p.registerDevice gettid dev sId ans = .ok (ret, dev', p')) {t : ℕ} {fd : ℤ} {d : Device}
    (hd : p'.getDevice t fd = some d) :
    (ans.accepted = true ∧ t = gettid ∧ fd = ans.perfEventOpen ∧
      d = { dev with sessionId := sId, deviceFileId := ans.perfEventOpen }) ∨
    p.getDevice t fd = some d := by
  rw [getDevice_registerDevice hr] at hd
  split at hd
  next hnew => exact Or.inl ⟨hnew.1, hnew.2.1, hnew.2.2, (Option.some.inj hd).symm⟩
  · exact Or.inr hd

/-- Other threads have the devices they had. -/
theorem getDevice_registerDevice_ne
    (hr : p.registerDevice gettid dev sId ans = .ok (ret, dev', p')) {t : ℕ} (ht : t ≠ gettid)
    (fd : ℤ) : p'.getDevice t fd = p.getDevice t fd := by
  rw [getDevice_registerDevice hr, if_neg fun hnew => ht hnew.2.1]

end Platform

namespace Registry

variable {ownerOf : ℤ → ℕ}

/-- `registerDevice` is the two halves of a registration, with nothing in between. -/
theorem Agree.registerDevice (h : Agree ownerOf ⟨p, [], fun _ => 0⟩) (hown : ownerOf sId = gettid)
    (hfresh : ans.perfEventOpen ∉ p.kernel.openFds)
    (hr : p.registerDevice gettid dev sId ans = .ok (ret, dev', p')) :
    Agree ownerOf ⟨p', [], fun _ => 0⟩ := by
  -- nobody asks for the owner of a handle here
  have hmove : ∀ {q : Platform} {f g : ℤ → ℕ}, Agree ownerOf ⟨q, [], f⟩ →
      Agree ownerOf ⟨q, [], g⟩ := fun hq => ⟨hq.index, hq.isOpen, hq.openNodup, hq.owner⟩
  unfold Platform.registerDevice at hr
  cases hopen : p.openDevice dev sId ans with
  | error e => simp [hopen] at hr
  | ok opened =>
    obtain ⟨r, d, q⟩ := opened
    by_cases hret : r = 0
    · obtain ⟨rfl, rfl, rfl⟩ : _ = ret ∧ _ = dev' ∧ _ = p' := by simpa [hopen, hret] using hr
      have hadd : Registry.step 0 ⟨p, [], fun _ => 0⟩ (.addNewDevice gettid dev sId ans)
          = .running () ⟨q.addNewDevice gettid d.deviceFileId d, [(gettid, d.deviceFileId, sId)],
            Function.update (fun _ => 0) d.deviceFileId 0⟩ := by
        simp only [Registry.step, hopen, if_pos hret]
        rfl
      have hsettle : Registry.step 0 ⟨q.addNewDevice gettid d.deviceFileId d,
            [(gettid, d.deviceFileId, sId)], Function.update (fun _ => 0) d.deviceFileId 0⟩
            (.addNewDeviceToSession gettid d.deviceFileId sId)
          = .running () ⟨(q.addNewDevice gettid d.deviceFileId d).addNewDeviceToSession
            d.deviceFileId sId, [], Function.update (fun _ => 0) d.deviceFileId 0⟩ := by
        simp [Registry.step]
      exact hmove ((h.addNewDevice hown hfresh hadd).addNewDeviceToSession hsettle)
    · obtain ⟨rfl, rfl, rfl⟩ : _ = ret ∧ _ = dev' ∧ _ = p' := by simpa [hopen, hret] using hr
      have hfail : Registry.step 0 ⟨p, [], fun _ => 0⟩ (.addNewDevice gettid dev sId ans)
          = .running () ⟨q, [], fun _ => 0⟩ := by
        simp only [Registry.step, hopen, if_neg hret]
      exact h.addNewDevice hown hfresh hfail

/-- A handle that is not open is under no key. -/
theorem Agree.getDevice_fresh (h : Agree ownerOf ⟨p, [], fun _ => 0⟩) {fd : ℤ}
    (hfresh : fd ∉ p.kernel.openFds) (t : ℕ) : p.getDevice t fd = none := by
  cases hdev : p.getDevice t fd with
  | none => rfl
  | some dev =>
    exact absurd (h.isOpen t _ _ (Platform.sessionOf_eq_some.mpr ⟨dev, hdev, rfl⟩)) hfresh

end Registry

end Register

/-! ### The owners of the keys -/

section Owners

variable {σ ι α : Type} {step : σ → ι → Outcome σ α} {key : σ → ℤ} {draws : ι → Option ℕ}

/-- The counter names the place of the next draw among all of them. -/
theorem along_owner {owners : List ℕ} {first : ℤ} (hfew : owners.length ≤ 2 ^ 32)
    (hkey : ∀ s i a s', step s i = .running a s' →
      key s' = if (draws i).isSome then (key s + 1).bmod (2 ^ 32) else key s)
    {is : List ι} {drawn : List ℕ} {s : σ} (howners : owners = drawn ++ is.filterMap draws)
    (hs : (key s - first) % 2 ^ 32 = drawn.length % 2 ^ 32) :
    Along step (fun s i => ∀ t ∈ draws i,
      owners.getD ((key s - first) % 2 ^ 32).toNat 0 = t) s is := by
  -- over the operations, with the threads that have drawn a key so far
  induction is generalizing drawn s with
  | nil => trivial
  | cons i is ih =>
    cases hdraw : draws i with
    | none =>
      rw [List.filterMap_cons_none hdraw] at howners
      refine ⟨fun t ht => ?_, fun a s' hstep => ih howners ?_⟩
      · rw [hdraw] at ht
        exact absurd ht.symm (Option.some_ne_none t)
      · rw [hkey s i a s' hstep, hdraw]
        exact hs
    | some t =>
      rw [List.filterMap_cons_some hdraw] at howners
      have hlen : drawn.length < 2 ^ 32 := by
        rw [howners, List.length_append, List.length_cons] at hfew
        omega
      refine ⟨fun t' ht' => ?_, fun a s' hstep => @ih (drawn ++ [t]) s' ?_ ?_⟩
      · obtain rfl := Option.some.inj (hdraw.symm.trans ht')
        -- all places are below `2 ^ 32`, so the counter has not come round to an earlier one
        have hplace : ((key s - first) % 2 ^ 32).toNat = drawn.length := by omega
        rw [hplace, howners, List.getD_eq_getElem?_getD, List.getElem?_append_right le_rfl,
          Nat.sub_self]
        rfl
      · rw [howners, List.append_assoc, List.singleton_append]
      · rw [hkey s i a s' hstep, hdraw, List.length_append, List.length_singleton,
          Option.isSome_some, if_pos rfl, Int.bmod_def]
        omega

/-- **Every key has an owner.** Keys are drawn from a counter of 32 bits, each for the thread
that `draws` names. As long as it does not come round, no two threads get the same one. -/
theorem exists_ownerOf
    (hkey : ∀ s i a s', step s i = .running a s' →
      key s' = if (draws i).isSome then (key s + 1).bmod (2 ^ 32) else key s)
    {s : σ} {is : List ι} (hfew : (is.filterMap draws).length ≤ 2 ^ 32) :
    ∃ ownerOf : ℤ → ℕ, Along step (fun s i => ∀ t ∈ draws i, ownerOf (key s) = t) s is := by
  refine ⟨fun k => (is.filterMap draws).getD ((k - key s) % 2 ^ 32).toNat 0, ?_⟩
  exact along_owner hfew hkey (List.nil_append _).symm (by simp)

end Owners

/-! ### Threads and their sessions -/

/-- The threads that are `live` are in a session. Every device is one of its thread's session, and
the two maps agree. -/
structure OwnSessions (ownerOf : ℤ → ℕ) (live : ℕ → Bool) (p : Platform) : Prop where
  agree : Registry.Agree ownerOf ⟨p, [], fun _ => 0⟩
  handle : ∀ t fd dev, p.getDevice t fd = some dev → fd ≠ -1
  owner : ∀ t, live t = true → ownerOf (p.sessionKey t) = t
  session : ∀ t fd dev, p.getDevice t fd = some dev →
    live t = true ∧ dev.sessionId = p.sessionKey t

namespace OwnSessions

variable {ownerOf : ℤ → ℕ} {live : ℕ → Bool} {p p' : Platform} {gettid : ℕ}

/-- Nothing is registered, and nobody is in a session. -/
theorem empty (hmap : p.deviceMap = ∅) (hlist : p.deviceSessionMultiMap = [])
    (hopen : p.kernel.openFds.Nodup) : OwnSessions ownerOf (fun _ => false) p := by
  have hnone : ∀ t fd, p.getDevice t fd = none := by
    intro t fd
    rw [Platform.getDevice, hmap]
    rfl
  have hsession : ∀ t fd, p.sessionOf t fd = none := by
    intro t fd
    rw [Platform.sessionOf, hnone]
    rfl
  refine ⟨⟨?_, fun t fd s h => ?_, hopen, fun t fd s h => ?_⟩, fun t fd dev h => ?_,
    fun t ht => absurd ht Bool.false_ne_true, fun t fd dev h => ?_⟩
  · change Indexes _ _ p.deviceSessionMultiMap
    rw [hlist]
    exact Indexes.empty.congr hsession
  · exact absurd (h.symm.trans (hsession t fd)) (Option.some_ne_none s)
  · exact absurd (h.symm.trans (hsession t fd)) (Option.some_ne_none s)
  · exact absurd (h.symm.trans (hnone t fd)) (Option.some_ne_none dev)
  · exact absurd (h.symm.trans (hnone t fd)) (Option.some_ne_none dev)

/-- A thread outside of a session has no device. -/
theorem getDevice_idle (h : OwnSessions ownerOf live p) (hidle : live gettid = false) (fd : ℤ) :
    p.getDevice gettid fd = none := by
  cases hdev : p.getDevice gettid fd with
  | none => rfl
  | some dev => exact absurd (hidle.symm.trans (h.session gettid fd dev hdev).1) nofun

/-- A thread draws a key. -/
theorem newSession (h : OwnSessions ownerOf live p) (hidle : live gettid = false) {s : ℤ}
    (hown : ownerOf s = gettid) :
    OwnSessions ownerOf (Function.update live gettid true)
      { p with sessionKey := Function.update p.sessionKey gettid s } where
  agree := ⟨h.agree.index, h.agree.isOpen, h.agree.openNodup, h.agree.owner⟩
  handle := h.handle
  owner := by
    intro t ht
    show ownerOf (Function.update p.sessionKey gettid s t) = t
    by_cases htt : t = gettid
    · subst htt
      rw [Function.update_self]
      exact hown
    · rw [Function.update_of_ne htt] at ht ⊢
      exact h.owner t ht
  session := by
    intro t fd dev hdev
    obtain ⟨hlive, hkey⟩ := h.session t fd dev hdev
    -- the thread of the new session has no device yet
    have htt : t ≠ gettid := by
      rintro rfl
      exact absurd (hidle.symm.trans hlive) nofun
    show _ ∧ dev.sessionId = Function.update p.sessionKey gettid s t
    rw [Function.update_of_ne htt, Function.update_of_ne htt]
    exact ⟨hlive, hkey⟩

/-- A device is registered for the session of its thread, or that fails. -/
theorem registerDevice (h : OwnSessions ownerOf live p) (hlive : live gettid = true)
    {dev dev' : Device} {ret : ℤ} {ans : RegisterAnswers}
    (hfresh : ans.perfEventOpen ∉ p.kernel.openFds)
    (hr : p.registerDevice gettid dev (p.sessionKey gettid) ans = .ok (ret, dev', p')) :
    OwnSessions ownerOf live p' := by
  have hkey := (Platform.registerDevice_accepted hr).2
  refine ⟨h.agree.registerDevice (h.owner gettid hlive) hfresh hr, fun t fd d hd => ?_, ?_,
    fun t fd d hd => ?_⟩
  · rcases Platform.device_of_registerDevice hr hd with ⟨hacc, -, rfl, -⟩ | hold
    · exact RegisterAnswers.accepted_handle hacc
    · exact h.handle t fd d hold
  · rw [hkey]
    exact h.owner
  · rw [hkey]
    rcases Platform.device_of_registerDevice hr hd with ⟨-, rfl, -, rfl⟩ | hold
    · exact ⟨hlive, rfl⟩
    · exact h.session t fd d hold

/-- A call through the pointer of a device, which stays in its session. -/
theorem setDevice (h : OwnSessions ownerOf live p) {fd : ℤ} {dev dev' : Device}
    (hdev : p.getDevice gettid fd = some dev) (hsame : dev'.sessionId = dev.sessionId) :
    OwnSessions ownerOf live (p.setDevice gettid fd dev') := by
  -- whatever the call does, the device stays in its session
  have hmap : ∀ t f d, (p.setDevice gettid fd dev').getDevice t f = some d →
      ∃ d', p.getDevice t f = some d' ∧ d.sessionId = d'.sessionId := by
    intro t f d hd
    by_cases hk : (t, f) = (gettid, fd)
    · obtain ⟨rfl, rfl⟩ := Prod.mk.inj hk
      rw [Platform.getDevice_setDevice] at hd
      obtain rfl := Option.some.inj hd
      exact ⟨dev, hdev, hsame⟩
    · rw [Platform.getDevice_setDevice_ne _ _ _ _ hk] at hd
      exact ⟨d, hd, rfl⟩
  refine ⟨?_, fun t f d hd => ?_, h.owner, fun t f d hd => ?_⟩
  · have hagree := h.agree.withDevice (gettid, fd) (fun d => { dev' with sessionId := d.sessionId })
      fun _ => rfl
    unfold Registry.withDevice at hagree
    dsimp only at hagree
    rw [hdev] at hagree
    dsimp only at hagree
    rw [← hsame] at hagree
    exact hagree
  · obtain ⟨d', hd', -⟩ := hmap t f d hd
    exact h.handle t f d' hd'
  · obtain ⟨d', hd', hs⟩ := hmap t f d hd
    rw [hs]
    exact h.session t f d' hd'

/-- `remove_device`, which takes the pair of the session too. -/
theorem removeDevice (h : OwnSessions ownerOf live p) {fd : ℤ} {ans : RemoveAnswers}
    (hr : p.removeDevice gettid fd true ans = .ok p') : OwnSessions ownerOf live p' := by
  have hmap : ∀ t f d, p'.getDevice t f = some d → p.getDevice t f = some d := by
    intro t f d hd
    rw [Platform.removeDevice_getDevice hr] at hd
    split at hd
    · cases hd
    · exact hd
  have hkey := Platform.sessionKey_removeDevice hr
  refine ⟨?_, fun t f d hd => h.handle t f d (hmap t f d hd), ?_, fun t f d hd => ?_⟩
  · refine h.agree.removeDevice (fun _ hm => nomatch hm)
      (show Registry.step 0 _ (.removeDevice gettid fd ans) = _ from ?_)
    simp only [Registry.step, hr]
  · rw [hkey]
    exact h.owner
  · rw [hkey]
    exact h.session t f d (hmap t f d hd)

/-- **The end of a session** takes all devices of the thread, and no others. -/
theorem sessionExit (h : OwnSessions ownerOf live p) (hlive : live gettid = true)
    {ans : ℤ → RemoveAnswers} {calls : List DeviceCall}
    (hr : p.removeDeviceBySession gettid (p.sessionKey gettid) ans = .ok (calls, p')) :
    OwnSessions ownerOf (Function.update live gettid false) p' ∧
      (∀ fd, p'.getDevice gettid fd = none) ∧
      ∀ t, t ≠ gettid → ∀ fd, p'.getDevice t fd = p.getDevice t fd := by
  have hown := h.owner gettid hlive
  have hgone := (h.agree.sessionRemoved hown (fun _ _ hm => nomatch hm) hr).1.getDevice
  have hkey := Platform.sessionKey_removeDeviceBySession hr
  -- all devices of the thread belong to the session, and no others do
  have hself : ∀ fd, p'.getDevice gettid fd = none := by
    intro fd
    rw [hgone]
    cases hdev : p.getDevice gettid fd with
    | none => exact ite_self none
    | some dev =>
      rw [if_pos]
      exact Platform.sessionOf_eq_some.mpr ⟨dev, hdev, (h.session gettid fd dev hdev).2⟩
  have hother : ∀ t, t ≠ gettid → ∀ fd, p'.getDevice t fd = p.getDevice t fd := by
    intro t ht fd
    rw [hgone, if_neg]
    intro hs
    exact ht ((h.agree.owner t fd _ hs).symm.trans hown)
  have hdevs : ∀ t fd dev, p'.getDevice t fd = some dev →
      t ≠ gettid ∧ p.getDevice t fd = some dev := by
    intro t fd dev hdev
    have ht : t ≠ gettid := by
      rintro rfl
      rw [hself] at hdev
      cases hdev
    exact ⟨ht, hother t ht fd ▸ hdev⟩
  refine ⟨⟨?_, fun t fd dev hdev => h.handle t fd dev (hdevs t fd dev hdev).2, fun t ht => ?_,
    fun t fd dev hdev => ?_⟩, hself, hother⟩
  · refine h.agree.removeDeviceBySession hown (fun _ _ hm => nomatch hm)
      (show Registry.step 0 _ (.removeDeviceBySession gettid _ ans) = _ from ?_)
    simp only [Registry.step, hr]
  · rw [hkey]
    by_cases htt : t = gettid
    · exact htt ▸ hown
    · rw [Function.update_of_ne htt] at ht
      exact h.owner t ht
  · obtain ⟨ht, hold⟩ := hdevs t fd dev hdev
    rw [hkey, Function.update_of_ne ht]
    exact h.session t fd dev hold

end OwnSessions

end Kognizance
