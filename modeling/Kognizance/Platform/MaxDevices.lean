import Kognizance.Platform.MapsAgree

/-!
# What a failed registration leaves

`Device::registerDevice` opens a handle, maps its buffer, asks for a signal and enters the device
into both maps. `getMaxDevices` registers devices until one fails, and then removes its session.

* `unchanged_registerDevice_iff`: a failure leaves everything as it was, or the handle open.
* `Probed` is what the loop of `getMaxDevices` has registered, and `Probed.removed` what is left
  when the session is removed.
* `nothing_left_iff`: nothing is left iff neither `sigaction` nor the owner fails.
-/

namespace Kognizance

open Process

/-! ### `registerDevice` -/

namespace Platform

/-- The handles, the buffers and both maps are what they were. -/
structure Unchanged (p p' : Platform) : Prop where
  openFds : p'.kernel.openFds = p.kernel.openFds
  mappedBuffers : p'.kernel.mappedBuffers = p.kernel.mappedBuffers
  getDevice : ∀ t fd, p'.getDevice t fd = p.getDevice t fd
  multiMap : p'.deviceSessionMultiMap = p.deviceSessionMultiMap

theorem Unchanged.refl (p : Platform) : Unchanged p p := ⟨rfl, rfl, fun _ _ => rfl, rfl⟩

/-- A failed registration leaves nothing behind iff it does not fail after the buffer is
mapped. -/
theorem unchanged_registerDevice_iff {p p' : Platform} {gettid : ℕ} {dev dev' : Device} {sId : ℤ}
    {ans : RegisterAnswers} (h : p.registerDevice gettid dev sId ans = .ok (-1, dev', p')) :
    Unchanged p p' ↔ ¬ ans.LeavesOpen := by
  rcases (registerDevice_returns h).2 with ⟨-, hret, -⟩ | ⟨hopen, -, rfl⟩ | ⟨-, hopen, -, rfl⟩
  · exact absurd hret (by decide)
  · refine iff_of_false (fun hsame => ?_) (not_not.mpr hopen)
    exact List.cons_ne_self _ _ hsame.openFds
  · exact iff_of_true (Unchanged.refl _) hopen

end Platform

/-! ### `getMaxDevices` -/

/-- `MAX_POSSIBLE_DEVICES` -/
def maxPossibleDevices : ℕ := 128

/-- What is answered while `getMaxDevices` runs. -/
structure ProbeAnswers where
  gettid : ℕ
  /-- the key of the session it generates -/
  sKey : ℤ
  /-- the address of `dummyWP` -/
  dummyWP : UInt64
  register : ℕ → RegisterAnswers
  remove : ℤ → RemoveAnswers

/-- The device types by number. -/
def deviceTypeOf (deviceType : ℤ) : Option DeviceType :=
  if deviceType = 1 then some .ebsDevice
  else if deviceType = 2 then some .pebsDevice
  else if deviceType = 3 then some .bpDevice
  else none

/-- The device of one turn of the loop. -/
def probeDevice (dummyWP : UInt64) (count : ℕ) : DeviceType → Device
  | .bpDevice => BPDevice 1 2 (dummyWP + 4 * UInt64.ofNat count)
  | deviceType => ⟨-1, -1, deviceType, false, 0, 0, 0⟩

/-- The loop of `getMaxDevices`, and whether it returns from the function. -/
def probe (deviceType : ℤ) (ans : ProbeAnswers) : ℕ → ℕ → Platform →
    Except Halt (Bool × ℕ × Platform)
  | 0, count, p => .ok (false, count, p)
  | n + 1, count, p =>
    match deviceTypeOf deviceType with
    | none => .ok (true, count, p)
    | some t =>
      match p.registerDevice ans.gettid (probeDevice ans.dummyWP count t) ans.sKey
          (ans.register count) with
      | .error h => .error h
      | .ok (ret, _, p) =>
        if ret = 0 then probe deviceType ans n (count + 1) p else .ok (false, count, p)

/-- `getMaxDevices` -/
def Platform.getMaxDevices (p : Platform) (deviceType : ℤ) (ans : ProbeAnswers) :
    Except Halt (ℕ × Platform) :=
  let p := { p with sessionKey := Function.update p.sessionKey ans.gettid ans.sKey }
  match probe deviceType ans maxPossibleDevices 0 p with
  | .error h => .error h
  | .ok (true, count, p) => .ok (count, p)
  | .ok (false, count, p) =>
    match p.removeDeviceBySession ans.gettid ans.sKey ans.remove with
    | .error h => .error h
    | .ok (_, p) => .ok (count, p)

/-! ### What the loop registers -/

namespace ProbeAnswers

variable (ans : ProbeAnswers)

/-- The kernel hands out handles that are not open, in the first `n` turns from `count` on. -/
def HandsOutFresh (n count : ℕ) (p : Platform) : Prop :=
  ∀ i < n, (∀ j < i, (ans.register (count + j)).Succeeds) →
    (ans.register (count + i)).perfEventOpen ≠ -1 →
    (ans.register (count + i)).perfEventOpen ∉ p.kernel.openFds ∧
    ∀ j < i, (ans.register (count + j)).perfEventOpen ≠ (ans.register (count + i)).perfEventOpen

/-- The registration that fails leaves its handle open. -/
def StopsOpen (n count : ℕ) : Prop :=
  ∃ i < n, (∀ j < i, (ans.register (count + j)).Succeeds) ∧ (ans.register (count + i)).LeavesOpen

variable {ans} {n count : ℕ} {p : Platform}

theorem HandsOutFresh.head (h : ans.HandsOutFresh (n + 1) count p)
    (hfd : (ans.register count).perfEventOpen ≠ -1) :
    (ans.register count).perfEventOpen ∉ p.kernel.openFds :=
  (h 0 n.succ_pos (fun _ hj => absurd hj (Nat.not_lt_zero _)) hfd).1

/-- After a registration the kernel goes on with fresh handles. -/
theorem HandsOutFresh.tail (h : ans.HandsOutFresh (n + 1) count p) {p' : Platform}
    (hs : (ans.register count).Succeeds)
    (hfds : p'.kernel.openFds = (ans.register count).perfEventOpen :: p.kernel.openFds) :
    ans.HandsOutFresh n (count + 1) p' := by
  intro i hi hbefore hfd
  simp only [Nat.add_assoc, Nat.add_comm 1] at hbefore hfd ⊢
  have hall : ∀ j < i + 1, (ans.register (count + j)).Succeeds := by
    rintro (_ | j) hj
    · exact hs
    · exact hbefore j (Nat.lt_of_succ_lt_succ hj)
  obtain ⟨hnot, hne⟩ := h (i + 1) (Nat.succ_lt_succ hi) hall hfd
  refine ⟨?_, fun j hj => hne (j + 1) (Nat.succ_lt_succ hj)⟩
  rw [hfds, List.mem_cons, not_or]
  exact ⟨(hne 0 i.succ_pos).symm, hnot⟩

theorem stopsOpen_succ : ans.StopsOpen (n + 1) count ↔
    (ans.register count).LeavesOpen ∨
    (ans.register count).Succeeds ∧ ans.StopsOpen n (count + 1) := by
  unfold StopsOpen
  simp only [Nat.add_assoc, Nat.add_comm 1]
  constructor
  · rintro ⟨_ | i, hi, hbefore, hopen⟩
    · exact Or.inl hopen
    · exact Or.inr ⟨hbefore 0 i.succ_pos, i, Nat.lt_of_succ_lt_succ hi,
        fun j hj => hbefore (j + 1) (Nat.succ_lt_succ hj), hopen⟩
  · rintro (hopen | ⟨hs, i, hi, hbefore, hopen⟩)
    · exact ⟨0, n.succ_pos, fun _ hj => absurd hj (Nat.not_lt_zero _), hopen⟩
    · refine ⟨i + 1, Nat.succ_lt_succ hi, ?_, hopen⟩
      rintro (_ | j) hj
      · exact hs
      · exact hbefore j (Nat.lt_of_succ_lt_succ hj)

end ProbeAnswers

/-- **What the loop has registered**: the handles `fds`, the first one first, in a session of the
thread. -/
structure Probed (p : Platform) (gettid : ℕ) (sId : ℤ) (fds : List ℤ) (q : Platform) : Prop where
  fresh : ∀ fd ∈ fds, fd ∉ p.kernel.openFds
  nodup : fds.Nodup
  openFds : q.kernel.openFds = fds.reverse ++ p.kernel.openFds
  mappedBuffers : q.kernel.mappedBuffers = fds.reverse ++ p.kernel.mappedBuffers
  multiMap : q.deviceSessionMultiMap = p.deviceSessionMultiMap ++ fds.map fun fd => (sId, fd)
  held : ∀ fd ∈ fds, q.getDevice gettid fd ≠ none
  others : ∀ t fd, ¬ (t = gettid ∧ fd ∈ fds) → q.getDevice t fd = p.getDevice t fd

namespace Probed

variable {p q r : Platform} {gettid : ℕ} {sId fd : ℤ} {fds : List ℤ}

theorem nil (p : Platform) : Probed p gettid sId [] p where
  fresh := fun _ h => absurd h List.not_mem_nil
  nodup := List.nodup_nil
  openFds := rfl
  mappedBuffers := rfl
  multiMap := (List.append_nil _).symm
  held := fun _ h => absurd h List.not_mem_nil
  others := fun _ _ _ => rfl

/-- A registration, and then those that follow it. -/
theorem cons {dev : Device} (hfd : fd ∉ p.kernel.openFds)
    (h : Probed (p.registered gettid dev sId fd) gettid sId fds r) :
    Probed p gettid sId (fd :: fds) r := by
  -- the handles that follow are new, and none is the first one
  have hafter : ∀ fd' ∈ fds, fd' ≠ fd ∧ fd' ∉ p.kernel.openFds := by
    intro fd' hmem
    have hnot := h.fresh fd' hmem
    exact ⟨fun heq => hnot (heq ▸ List.mem_cons_self), fun hold => hnot (.tail _ hold)⟩
  have hnew : fd ∉ fds := fun hmem => (hafter fd hmem).1 rfl
  constructor
  · exact List.forall_mem_cons.mpr ⟨hfd, fun fd' hmem => (hafter fd' hmem).2⟩
  · exact List.nodup_cons.mpr ⟨hnew, h.nodup⟩
  · rw [h.openFds, List.reverse_cons, List.append_assoc]
    rfl
  · rw [h.mappedBuffers, List.reverse_cons, List.append_assoc]
    rfl
  · rw [h.multiMap]
    exact List.append_assoc p.deviceSessionMultiMap [(sId, fd)] _
  · -- no later registration is under the first handle
    refine List.forall_mem_cons.mpr ⟨?_, h.held⟩
    rw [h.others gettid fd fun hk => hnew hk.2]
    exact fun hnone => Option.some_ne_none _ ((AList.lookup_insert _).symm.trans hnone)
  · intro t fd' hk
    rw [h.others t fd' fun hk' => hk ⟨hk'.1, List.mem_cons_of_mem _ hk'.2⟩]
    refine AList.lookup_insert_ne fun he => ?_
    obtain ⟨rfl, rfl⟩ := Prod.mk.inj he
    exact hk ⟨rfl, List.mem_cons_self⟩

end Probed

/-- **The loop** registers devices, until there are enough of them or one fails. -/
theorem probe_spec {deviceType : ℤ} {ans : ProbeAnswers} {t : DeviceType}
    (htype : deviceTypeOf deviceType = some t) {n count c : ℕ} {p q : Platform} {b : Bool}
    (hfresh : ans.HandsOutFresh n count p)
    (h : probe deviceType ans n count p = .ok (b, c, q)) :
    b = false ∧ ∃ fds r, Probed p ans.gettid ans.sKey fds r ∧
      ((¬ ans.StopsOpen n count ∧ q = r) ∨
        ans.StopsOpen n count ∧ ∃ fd, fd ∉ r.kernel.openFds ∧ q = r.leftOpen fd) := by
  -- over the turns; a registration that fails is the last
  induction n generalizing count p with
  | zero =>
    obtain ⟨rfl, rfl, rfl⟩ : false = b ∧ count = c ∧ p = q := by simpa [probe] using h
    refine ⟨rfl, [], p, .nil p, Or.inl ⟨?_, rfl⟩⟩
    rintro ⟨i, hi, -⟩
    exact absurd hi (Nat.not_lt_zero i)
  | succ n ih =>
    rw [probe, htype] at h
    dsimp only at h
    cases hreg : p.registerDevice ans.gettid (probeDevice ans.dummyWP count t) ans.sKey
        (ans.register count) with
    | error e => simp [hreg] at h
    | ok returned =>
      obtain ⟨ret, dev', p'⟩ := returned
      rw [hreg] at h
      dsimp only at h
      rw [ProbeAnswers.stopsOpen_succ]
      rcases (Platform.registerDevice_returns hreg).2 with
        ⟨hs, rfl, rfl⟩ | ⟨hopen, rfl, rfl⟩ | ⟨hs, hopen, rfl, rfl⟩
      · -- one more device
        rw [if_pos rfl] at h
        have hfd := hfresh.head hs.1
        obtain ⟨rfl, fds, r, hprobed, hlast⟩ := ih (hfresh.tail hs rfl) h
        refine ⟨rfl, _ :: fds, r, hprobed.cons hfd, ?_⟩
        have hopen : ¬ (ans.register count).LeavesOpen := fun hl => hl.not_succeeds hs
        simpa only [hs, hopen, false_or, true_and] using hlast
      · -- the last registration leaves its handle open, and enters nothing
        rw [if_neg (by decide)] at h
        obtain ⟨rfl, rfl, rfl⟩ : false = b ∧ count = c ∧ p.leftOpen _ = q := by simpa using h
        exact ⟨rfl, [], p, .nil p, Or.inr ⟨Or.inl hopen, _, hfresh.head hopen.1, rfl⟩⟩
      · -- the last registration leaves nothing
        rw [if_neg (by decide)] at h
        obtain ⟨rfl, rfl, rfl⟩ : false = b ∧ count = c ∧ p' = q := by simpa using h
        exact ⟨rfl, [], p', .nil p', Or.inl ⟨by simp [hs, hopen], rfl⟩⟩

/-! ### What is left when the session is removed -/

namespace Platform

theorem removeDevice_mappedBuffers {p p' : Platform} {t : ℕ} {fd : ℤ} {b : Bool} {dev : Device}
    {ans : RemoveAnswers} (hdev : p.getDevice t fd = some dev)
    (h : p.removeDevice t fd b ans = .ok p') :
    p'.kernel.mappedBuffers = p.kernel.mappedBuffers.erase fd := by
  rcases removeDevice_returns h with ⟨hnone, -⟩ | ⟨-, -, rfl⟩
  · exact absurd (hdev.symm.trans hnone) (Option.some_ne_none dev)
  · rfl

theorem removeDevices_mappedBuffers {p p' : Platform} {t : ℕ} {ans : ℤ → RemoveAnswers}
    {fds : List ℤ} {calls : List DeviceCall} (hnodup : fds.Nodup)
    (hreg : ∀ fd ∈ fds, p.getDevice t fd ≠ none)
    (h : p.removeDevices t ans fds = .ok (calls, p')) :
    p'.kernel.mappedBuffers = p.kernel.mappedBuffers.diff fds := by
  refine removeDevices_rule (R := fun p fds _ p' =>
    p'.kernel.mappedBuffers = p.kernel.mappedBuffers.diff fds) ?_ ?_ hnodup hreg h
  · intro p
    rfl
  · intro p q p' fd fds calls dev _ hdev hone hall
    rw [hall, removeDevice_mappedBuffers hdev hone, List.diff_cons]

end Platform

theorem append_diff_self {α : Type} [DecidableEq α] (l m : List α) : (l ++ m).diff l = m := by
  induction l with
  | nil => rfl
  | cons a l ih => rw [List.cons_append, List.diff_cons, List.erase_cons_head, ih]

/-- What was put in front, newest first, goes again. -/
theorem reverse_append_diff {α : Type} [DecidableEq α] (l m : List α) :
    (l.reverse ++ m).diff l = m := by
  calc (l.reverse ++ m).diff l
      = (l.reverse ++ m).diff l.reverse := (List.Perm.diff_left _ l.reverse_perm).symm
    _ = m := append_diff_self _ _

namespace Probed

variable {p q r p' : Platform} {gettid : ℕ} {sId : ℤ} {fds : List ℤ} {ans : ℤ → RemoveAnswers}
  {calls : List DeviceCall}

theorem sessionDevices (h : Probed p gettid sId fds r)
    (hkey : ∀ sd ∈ p.deviceSessionMultiMap, sd.1 ≠ sId) : r.sessionDevices sId = fds := by
  have hold : p.deviceSessionMultiMap.filter (fun sd => decide (sd.1 = sId)) = [] :=
    List.filter_eq_nil_iff.mpr fun sd hsd => by simpa using hkey sd hsd
  have hnew : (fds.map fun fd => (sId, fd)).filter (fun sd => decide (sd.1 = sId)) =
      fds.map fun fd => (sId, fd) := List.filter_eq_self.mpr (by simp)
  rw [Platform.sessionDevices, h.multiMap, List.filter_append, hold, hnew, List.nil_append,
    List.map_map]
  exact List.map_id fds

/-- **The new session is removed whole**, whatever handles are open besides. -/
theorem removed (h : Probed p gettid sId fds r)
    (hkey : ∀ sd ∈ p.deviceSessionMultiMap, sd.1 ≠ sId)
    (hopen : ∀ t fd, p.getDevice t fd ≠ none → fd ∈ p.kernel.openFds)
    (hmap : q.deviceMap = r.deviceMap) (hmm : q.deviceSessionMultiMap = r.deviceSessionMultiMap)
    (hr : q.removeDeviceBySession gettid sId ans = .ok (calls, p')) :
    p'.kernel.openFds = q.kernel.openFds.diff fds ∧
    p'.kernel.mappedBuffers = q.kernel.mappedBuffers.diff fds ∧
    (∀ t fd, p'.getDevice t fd = p.getDevice t fd) ∧
    p'.deviceSessionMultiMap = p.deviceSessionMultiMap := by
  have hget : ∀ t fd, q.getDevice t fd = r.getDevice t fd := fun t fd => by
    rw [Platform.getDevice, hmap, ← Platform.getDevice]
  -- the key is new, so the session is what the loop has registered
  have hsession : q.sessionDevices sId = fds := by
    rw [Platform.sessionDevices, hmm, ← Platform.sessionDevices, h.sessionDevices hkey]
  have hheld : ∀ fd ∈ fds, q.getDevice gettid fd ≠ none := fun fd hfd => by
    rw [hget]
    exact h.held fd hfd
  obtain ⟨q', hloop, rfl⟩ := Platform.removeDeviceBySession_returns hr
  rw [hsession] at hloop
  have hall := Platform.removeDevices_spec h.nodup hheld hloop
  have hbuffers := Platform.removeDevices_mappedBuffers h.nodup hheld hloop
  refine ⟨hall.openFds, hbuffers, ?_, ?_⟩
  · intro t fd
    refine (hall.getDevice t fd).trans ?_
    split_ifs with hk
    · -- the handle was not open before, so no thread had a device under it
      obtain ⟨rfl, hmem⟩ := hk
      by_contra hne
      exact h.fresh fd hmem (hopen t fd (Ne.symm hne))
    · rw [hget, h.others t fd hk]
  · -- the pairs of other sessions stay, and all of the new one go
    have hold : p.deviceSessionMultiMap.filter (fun sd => decide (sd.1 ≠ sId)) =
        p.deviceSessionMultiMap := List.filter_eq_self.mpr fun sd hsd => by
      simpa using hkey sd hsd
    have hnew : (fds.map fun fd => (sId, fd)).filter (fun sd => decide (sd.1 ≠ sId)) = [] :=
      List.filter_eq_nil_iff.mpr (by simp)
    calc q'.deviceSessionMultiMap.filter (fun sd => decide (sd.1 ≠ sId))
        = (p.deviceSessionMultiMap ++ fds.map fun fd => (sId, fd)).filter
            (fun sd => decide (sd.1 ≠ sId)) := by rw [hall.multiMap, hmm, h.multiMap]
      _ = p.deviceSessionMultiMap := by rw [List.filter_append, hold, hnew, List.append_nil]

end Probed

/-- The device type is none of the three, or the key is new and the registration that fails
gives its handle back. -/
def ProbeAnswers.Clean (ans : ProbeAnswers) (deviceType : ℤ) (p : Platform) : Prop :=
  deviceTypeOf deviceType = none ∨
    (∀ sd ∈ p.deviceSessionMultiMap, sd.1 ≠ ans.sKey) ∧ ¬ ans.StopsOpen maxPossibleDevices 0

/-- The pairs of the probing session do not survive it. -/
theorem Platform.removeDeviceBySession_multiMap {p p' : Platform} {t : ℕ} {s : ℤ}
    {ans : ℤ → RemoveAnswers} {calls : List DeviceCall}
    (h : p.removeDeviceBySession t s ans = .ok (calls, p')) :
    ∀ sd ∈ p'.deviceSessionMultiMap, sd.1 ≠ s := by
  obtain ⟨q, -, rfl⟩ := removeDeviceBySession_returns h
  intro sd hsd
  simpa using (List.mem_filter.mp hsd).2

/-- Removing the session undoes the loop, if its key is new and no other handle is open. -/
theorem Probed.unchanged_iff {p p' q r : Platform} {gettid : ℕ} {sId : ℤ} {fds : List ℤ}
    {ans : ℤ → RemoveAnswers} {calls : List DeviceCall} {stopsOpen : Prop}
    (h : Probed p gettid sId fds r)
    (hopen : ∀ t fd, p.getDevice t fd ≠ none → fd ∈ p.kernel.openFds)
    (hlast : (¬ stopsOpen ∧ q = r) ∨
      stopsOpen ∧ ∃ fd, fd ∉ r.kernel.openFds ∧ q = r.leftOpen fd)
    (hremove : q.removeDeviceBySession gettid sId ans = .ok (calls, p')) :
    Platform.Unchanged p p' ↔ (∀ sd ∈ p.deviceSessionMultiMap, sd.1 ≠ sId) ∧ ¬ stopsOpen := by
  by_cases hkey : ∀ sd ∈ p.deviceSessionMultiMap, sd.1 ≠ sId
  · rcases hlast with ⟨hstop, rfl⟩ | ⟨hstop, fd, hfd, rfl⟩
    · -- what was registered is what is removed
      obtain ⟨hfds, hbuffers, hget, hmm⟩ := h.removed hkey hopen rfl rfl hremove
      refine iff_of_true ⟨?_, ?_, hget, hmm⟩ ⟨hkey, hstop⟩
      · rw [hfds, h.openFds, reverse_append_diff]
      · rw [hbuffers, h.mappedBuffers, reverse_append_diff]
    · -- one handle more than the session knows of
      refine iff_of_false (fun hsame => ?_) fun hboth => hboth.2 hstop
      rw [h.openFds, List.mem_append, not_or, List.mem_reverse] at hfd
      have hstays : fd ∈ p'.kernel.openFds := by
        rw [(h.removed hkey hopen (q := r.leftOpen fd) rfl rfl hremove).1]
        exact List.mem_diff_of_mem List.mem_cons_self hfd.1
      rw [hsame.openFds] at hstays
      exact hfd.2 hstays
  · -- an old session of that key goes too
    refine iff_of_false (fun hsame => hkey ?_) fun hboth => hkey hboth.1
    rw [← hsame.multiMap]
    exact Platform.removeDeviceBySession_multiMap hremove

/-- `getMaxDevices` returns from its loop, or it removes its session. -/
theorem Platform.getMaxDevices_cases {p p' : Platform} {deviceType : ℤ} {ans : ProbeAnswers}
    {ret : ℕ} (h : p.getMaxDevices deviceType ans = .ok (ret, p')) :
    ∃ b q, probe deviceType ans maxPossibleDevices 0
        { p with sessionKey := Function.update p.sessionKey ans.gettid ans.sKey } =
          .ok (b, ret, q) ∧
      (b = true ∧ p' = q ∨ b = false ∧ ∃ calls,
        q.removeDeviceBySession ans.gettid ans.sKey ans.remove = .ok (calls, p')) := by
  unfold getMaxDevices at h
  dsimp only at h
  cases hprobe : probe deviceType ans maxPossibleDevices 0
      { p with sessionKey := Function.update p.sessionKey ans.gettid ans.sKey } with
  | error e => simp [hprobe] at h
  | ok probed =>
    obtain ⟨b, count, q⟩ := probed
    rw [hprobe] at h
    cases b with
    -- a device type that is none of the three returns from the loop itself
    | true =>
      obtain ⟨rfl, rfl⟩ : count = ret ∧ q = p' := by simpa using h
      exact ⟨true, q, rfl, Or.inl ⟨rfl, rfl⟩⟩
    | false =>
      cases hremove : q.removeDeviceBySession ans.gettid ans.sKey ans.remove with
      | error e => simp [hremove] at h
      | ok removed =>
        obtain ⟨rfl, rfl⟩ : count = ret ∧ removed.2 = p' := by simpa [hremove] using h
        exact ⟨false, q, rfl, Or.inr ⟨rfl, removed.1, hremove⟩⟩

/-- **`getMaxDevices` leaves nothing behind** iff its probing is clean. -/
theorem unchanged_getMaxDevices_iff {p p' : Platform} {deviceType : ℤ} {ans : ProbeAnswers}
    {ret : ℕ} (hopen : ∀ t fd, p.getDevice t fd ≠ none → fd ∈ p.kernel.openFds)
    (hfresh : ans.HandsOutFresh maxPossibleDevices 0 p)
    (h : p.getMaxDevices deviceType ans = .ok (ret, p')) :
    Platform.Unchanged p p' ↔ ans.Clean deviceType p := by
  obtain ⟨b, q, hprobe, hend⟩ := Platform.getMaxDevices_cases h
  -- the new key of the thread is in none of the maps
  let p₁ : Platform := { p with sessionKey := Function.update p.sessionKey ans.gettid ans.sKey }
  have hkeyOnly : Platform.Unchanged p p' ↔ Platform.Unchanged p₁ p' :=
    ⟨fun h => ⟨h.openFds, h.mappedBuffers, h.getDevice, h.multiMap⟩,
      fun h => ⟨h.openFds, h.mappedBuffers, h.getDevice, h.multiMap⟩⟩
  rw [hkeyOnly, ProbeAnswers.Clean]
  cases htype : deviceTypeOf deviceType with
  | none =>
    -- the function returns from the first turn
    have hfirst : probe deviceType ans maxPossibleDevices 0 p₁ = .ok (true, 0, p₁) := by
      rw [maxPossibleDevices, probe, htype]
    obtain ⟨rfl, -, rfl⟩ : true = b ∧ 0 = ret ∧ p₁ = q := by
      simpa using hfirst.symm.trans hprobe
    rcases hend with ⟨-, rfl⟩ | ⟨hfalse, -⟩
    · exact iff_of_true (.refl _) (Or.inl rfl)
    · cases hfalse
  | some t =>
    obtain ⟨rfl, fds, r, hprobed, hlast⟩ := probe_spec (p := p₁) htype hfresh hprobe
    obtain ⟨hfalse, -⟩ | ⟨-, calls, hremove⟩ := hend
    · cases hfalse
    · rw [hprobed.unchanged_iff hopen hlast hremove]
      exact (or_iff_right (Option.some_ne_none t)).symm

/-- **What failed registrations leave.** A registration that returns `-1` leaves the handles, the
buffers and the maps as they were iff it does not fail at `sigaction` or at the owner; and
`getMaxDevices`, in every state that a run of the registry reaches, iff its probing is clean. -/
theorem nothing_left_iff (ownerOf : ℤ → ℕ) (getpid : ℕ) (p₀ : Platform) (fOwnerEx : ℤ → ℕ)
    (ops : List SessionOp) (st : Registry)
    (hused : Along (Registry.step getpid) (Registry.Used ownerOf) (.init p₀ fOwnerEx) ops)
    (hrun : exec (Registry.step getpid) (.init p₀ fOwnerEx) ops = .running () st) :
    (∀ (p : Platform) gettid dev sId ans dev' p',
      p.registerDevice gettid dev sId ans = .ok (-1, dev', p') →
      (Platform.Unchanged p p' ↔ ¬ ans.LeavesOpen)) ∧
    ∀ deviceType (ans : ProbeAnswers) ret p',
      ans.HandsOutFresh maxPossibleDevices 0 st.platform →
      st.platform.getMaxDevices deviceType ans = .ok (ret, p') →
      (Platform.Unchanged st.platform p' ↔ ans.Clean deviceType st.platform) := by
  refine ⟨fun p gettid dev sId ans dev' p' h => Platform.unchanged_registerDevice_iff h, ?_⟩
  intro deviceType ans ret p' hfresh h
  refine unchanged_getMaxDevices_iff (fun t fd hfd => ?_) hfresh h
  -- the handles of the map are open
  obtain ⟨dev, hdev⟩ := Option.ne_none_iff_exists'.mp hfd
  have hagree := Registry.agree_of_run hused hrun
  exact hagree.isOpen t fd dev.sessionId (Platform.sessionOf_eq_some.mpr ⟨dev, hdev, rfl⟩)

/-- Four breakpoints can be had. The fifth fails as `last` says. -/
def fourProbes (last : RegisterAnswers) : ProbeAnswers where
  gettid := 5
  sKey := 1
  dummyWP := 0x7000
  register := fun count =>
    if count < 4 then ⟨10 + count, true, true, true, true, true, true⟩ else last
  remove := fun _ => ⟨true, true⟩

/-- **A handle is left** when `sigaction` fails, by one registration and by the probing. -/
theorem sigactionFails_leavesOpen :
    (∃ dev' p', Platform.idle.registerDevice 5 (BPDevice 1 2 0x7000) 0
        ⟨14, true, true, true, false, true, true⟩ = .ok (-1, dev', p') ∧
      p'.kernel = ⟨[14], [14]⟩ ∧ ¬ Platform.Unchanged .idle p') ∧
    ∃ p', Platform.idle.getMaxDevices 3 (fourProbes ⟨14, true, true, true, false, true, true⟩) =
        .ok (4, p') ∧
      p'.kernel = ⟨[14], [14]⟩ ∧ ¬ Platform.Unchanged .idle p' :=
  ⟨⟨_, _, rfl, rfl, fun h => absurd h.openFds (by decide)⟩,
    ⟨_, rfl, rfl, fun h => absurd h.openFds (by decide)⟩⟩

/-- A thread with one device asks how many more there can be. -/
theorem nothing_left_fourProbes : ∃ p',
    (Registry.oneDeviceRegistry 5).platform.getMaxDevices 3
        (fourProbes ⟨-1, true, true, true, true, true, true⟩) = .ok (4, p') ∧
      Platform.Unchanged (Registry.oneDeviceRegistry 5).platform p' := by
  obtain ⟨p', hprobe⟩ : ∃ p', (Registry.oneDeviceRegistry 5).platform.getMaxDevices 3
      (fourProbes ⟨-1, true, true, true, true, true, true⟩) = .ok (4, p') := ⟨_, rfl⟩
  have hfresh : (fourProbes ⟨-1, true, true, true, true, true, true⟩).HandsOutFresh
      maxPossibleDevices 0 (Registry.oneDeviceRegistry 5).platform := by
    intro i _ _ hfd
    have hopened : (Registry.oneDeviceRegistry 5).platform.kernel.openFds = [7] := rfl
    simp only [fourProbes, Nat.zero_add, hopened, List.mem_singleton] at hfd ⊢
    split_ifs at hfd ⊢ with hi
    · refine ⟨by dsimp only; omega, fun j hj => ?_⟩
      rw [if_pos (Nat.lt_trans hj hi)]
      dsimp only
      omega
    · exact absurd rfl hfd
  refine ⟨p', hprobe, ((nothing_left_iff (fun _ => 5) 5 ⟨∅, [], fun _ => 0, ⟨[], []⟩⟩ (fun _ => 0)
    Registry.oneDevice _ (.cons ⟨rfl, List.not_mem_nil⟩ rfl (.cons trivial rfl trivial)) rfl).2
      3 _ 4 p' hfresh hprobe).mpr (Or.inr ⟨by decide, ?_⟩)⟩
  -- the fifth gets no handle
  rintro ⟨i, -, -, hopen⟩
  simp only [fourProbes, Nat.zero_add] at hopen
  split_ifs at hopen
  · exact hopen.not_succeeds ⟨by dsimp only; omega, rfl, rfl, rfl, rfl, rfl⟩
  · exact hopen.1 rfl

end Kognizance
