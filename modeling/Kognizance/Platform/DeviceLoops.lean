import Kognizance.Platform.PauseAll

/-!
# The loops over the devices, step by step

The functions that pause and resume go over the devices with `devicemap_mtx`, test
`isDisabled` of one device after the other and then call `enable_device` or
`disable_device` on it. `start_device`, `end_device` and `updateBPAddress` are called
through the pointer of a device, without the mutex: a store to `isDisabled` and a call
that reaches the counter, one after the other. So the loops, which are one step in
`PauseAll`, are not one step for the other threads. Here a step is a single store, test
or call of the kernel or the hypervisor, and the threads take them in any order. A thread
calls the three functions on its own devices only.

* `Counters.step` is one step of one thread, `Counters.step_cases` says how it can go.
* `Counters.LockInv` says who has the mutex and who has a pointer.
* `loop_atomic`: for a device that nothing else happens to, a loop is the one step that
  `Platform` has for it.
-/

namespace Kognizance

open Process

/-- A call through the pointer of a device. -/
inductive PointerCall
  | startDevice
  | endDevice
  | updateBPAddress (len : ℤ) (bpType : ℕ) (addr : UInt64) (ans : UpdateAnswers)
  deriving DecidableEq, Repr

/-- The functions that go over devices. -/
inductive DeviceLoop
  | pauseAllDevices
  | pauseDevicesBySession (sessionId : ℤ)
  | resumeAllDevices
  | resumeDevicesBySession (sessionId : ℤ)
  deriving DecidableEq, Repr

namespace DeviceLoop

/-- The keys it goes over, those without a device among them. -/
def devices (l : DeviceLoop) (p : Platform) (gettid : ℕ) : List (ℕ × ℤ) :=
  match l with
  | pauseAllDevices => p.deviceMap.keys
  | pauseDevicesBySession s => (p.sessionDevices s).map fun fd => (gettid, fd)
  | resumeAllDevices => p.deviceMap.keys
  | resumeDevicesBySession s => (p.sessionDevices s).map fun fd => (gettid, fd)

/-- The test in front of the call on a device. `pause_all_devices` has none. -/
def picks (l : DeviceLoop) (p : Platform) (k : ℕ × ℤ) : Bool :=
  match l with
  | pauseAllDevices => (p.getDevice k.1 k.2).isSome
  | _ => p.isEnabled k

/-- It calls `enable_device`, else `disable_device`. -/
def enables : DeviceLoop → Bool
  | pauseAllDevices => false
  | pauseDevicesBySession _ => false
  | resumeAllDevices => true
  | resumeDevicesBySession _ => true

end DeviceLoop

/-- Where a thread is. -/
inductive CounterPc
  | outside
  /-- `get_device` has returned the device, and the call is next. -/
  | holds (c : PointerCall) (k : ℕ × ℤ)
  /-- Between the two halves of the call. -/
  | within (c : PointerCall) (k : ℕ × ℤ)
  /-- In a loop, with the devices that are left. -/
  | loop (l : DeviceLoop) (todo : List (ℕ × ℤ))
  /-- The loop has tested a device, and calls `enable_device` or `disable_device` next. -/
  | chosen (l : DeviceLoop) (k : ℕ × ℤ) (todo : List (ℕ × ℤ))
  deriving DecidableEq, Repr

namespace CounterPc

/-- The thread has the mutex. -/
def locks : CounterPc → Bool
  | loop _ _ => true
  | chosen _ _ _ => true
  | _ => false

/-- The device that the thread has a pointer of, and the call it is for. -/
def call? : CounterPc → Option (PointerCall × (ℕ × ℤ))
  | holds c k => some (c, k)
  | within c k => some (c, k)
  | _ => none

end CounterPc

/-- The maps and the counters of the devices. -/
structure Counters where
  registry : Registry
  /-- The counter of the device runs, in the kernel or in the hypervisor. -/
  runs : ℕ × ℤ → Bool
  /-- The thread that has `devicemap_mtx`. -/
  holder : Option ℕ
  pc : ℕ → CounterPc

/-- What happens next. A thread that asks for the mutex while another one has it waits, and a
thread that is in one function does not call another. -/
inductive CounterInput
  /-- `get_device`, for a call on an own device. -/
  | getDevice (gettid : ℕ) (fd : ℤ) (c : PointerCall)
  /-- One of the loops gets the mutex. -/
  | enter (gettid : ℕ) (l : DeviceLoop)
  | advance (gettid : ℕ)
  /-- An operation that adds or removes devices. It has the mutex while it works on the maps.
  `disabled` is what the attributes of a new device say. -/
  | maps (op : SessionOp) (disabled : Bool)
  /-- The counter has come to its limit. -/
  | overflow (k : ℕ × ℤ)

/-- `int isDisabled = 0` -/
def SessionOp.unmarked : SessionOp → SessionOp
  | addNewDevice gettid dev sId ans => addNewDevice gettid { dev with isDisabled := false } sId ans
  | op => op

namespace Counters

/-- The device under a key. -/
def device (st : Counters) (k : ℕ × ℤ) : Option Device := st.registry.platform.getDevice k.1 k.2

/-- No device, no counter, and no thread in one of the functions. -/
def init (p : Platform) (fOwnerEx : ℤ → ℕ) : Counters where
  registry := Registry.init p fOwnerEx
  runs := fun _ => false
  holder := none
  pc := fun _ => .outside

def goto (st : Counters) (t : ℕ) (pc : CounterPc) : Counters :=
  { st with pc := Function.update st.pc t pc }

def setRuns (st : Counters) (k : ℕ × ℤ) (b : Bool) : Counters :=
  { st with runs := Function.update st.runs k b }

def withDevice (st : Counters) (k : ℕ × ℤ) (f : Device → Device) : Counters :=
  { st with registry := st.registry.withDevice k f }

/-- The next step of thread `t`. -/
def advance (st : Counters) (t : ℕ) : Counters :=
  match st.pc t with
  | .outside => st
  | .holds .startDevice k =>
    (st.withDevice k Device.startDevice).goto t (.within .startDevice k)
  | .within .startDevice k => (st.setRuns k true).goto t .outside
  | .holds .endDevice k => (st.withDevice k Device.endDevice).goto t (.within .endDevice k)
  | .within .endDevice k => (st.setRuns k false).goto t .outside
  | .holds (.updateBPAddress len bpType addr ans) k =>
    -- here the counter comes first: the breakpoint is moved and enabled, or nothing happens
    if ans.agentOk || ans.ioctlOk then
      (st.setRuns k true).goto t (.within (.updateBPAddress len bpType addr ans) k)
    else st.goto t .outside
  | .within (.updateBPAddress len bpType addr ans) k =>
    (st.withDevice k fun dev => (dev.updateBPAddress len bpType addr ans).2).goto t .outside
  | .loop _ [] => { st with holder := none }.goto t .outside
  | .loop l (k :: todo) =>
    if l.picks st.registry.platform k then st.goto t (.chosen l k todo)
    else st.goto t (.loop l todo)
  | .chosen l k todo => (st.setRuns k l.enables).goto t (.loop l todo)

/-- The counters after the maps have changed to `r`: one stops with its device, and that of a new
device does what the attributes say. -/
def runsAfter (st : Counters) (r : Registry) (disabled : Bool) (k : ℕ × ℤ) : Bool :=
  match st.device k, r.platform.getDevice k.1 k.2 with
  | _, none => false
  | none, some _ => !disabled
  | some _, some _ => st.runs k

/-- One step, in the process `getpid`. -/
def step (getpid : ℕ) (st : Counters) : CounterInput → Outcome Counters Unit
  | .getDevice t fd c =>
    if st.pc t = .outside ∧ st.holder = none ∧ (st.device (t, fd)).isSome then
      .running () (st.goto t (.holds c (t, fd)))
    else .running () st
  | .enter t l =>
    if st.pc t = .outside ∧ st.holder = none then
      .running ()
        ({ st with holder := some t }.goto t (.loop l (l.devices st.registry.platform t)))
    else .running () st
  | .advance t => .running () (st.advance t)
  | .maps op disabled =>
    match op.actor with
    | none => .running () st
    | some t =>
      if st.pc t = .outside ∧ st.holder = none then
        match st.registry.step getpid op.unmarked with
        | .ended h _ => .ended h st
        | .running _ r => .running () { st with registry := r, runs := st.runsAfter r disabled }
      else .running () st
  | .overflow k => .running () (st.setRuns k false)

end Counters

/-! ### What an operation does to the devices -/

namespace Platform

/-- The loop of `remove_device_by_session` leaves a device alone, or takes it from its thread. -/
theorem getDevice_removeDevices {p p' : Platform} {t : ℕ} {ans : ℤ → RemoveAnswers}
    {fds : List ℤ} {calls : List DeviceCall} (h : p.removeDevices t ans fds = .ok (calls, p'))
    (k : ℕ × ℤ) :
    p'.getDevice k.1 k.2 = p.getDevice k.1 k.2 ∨ k.1 = t ∧ p'.getDevice k.1 k.2 = none := by
  -- each round leaves it as the rounds before did, or takes it
  refine removeDevices_keeps (I := fun q => q.getDevice k.1 k.2 = p.getDevice k.1 k.2 ∨
    k.1 = t ∧ q.getDevice k.1 k.2 = none) (fun q q' fd hq hone => ?_) (Or.inl rfl) h
  rw [removeDevice_getDevice hone]
  split_ifs with hk
  · exact Or.inr ⟨(Prod.mk.inj hk).1, rfl⟩
  · exact hq

end Platform

namespace Registry

/-- **What an operation of thread `t` does to a device**: nothing, or the device is one of the
thread's own, and it is removed or has just been registered. -/
theorem step_own {getpid t : ℕ} {st st' : Registry} {op : SessionOp} (hact : op.actor = some t)
    (hs : st.step getpid op.unmarked = .running () st') (k : ℕ × ℤ) :
    st'.platform.getDevice k.1 k.2 = st.platform.getDevice k.1 k.2 ∨
    k.1 = t ∧ (st'.platform.getDevice k.1 k.2 = none ∨
      ∃ dev sId ans, op = .addNewDevice t dev sId ans ∧ (t, ans.perfEventOpen) = k ∧
        ∃ dev', st'.platform.getDevice k.1 k.2 = some dev' ∧ dev'.isDisabled = false) := by
  cases op with
  | addNewDevice gettid dev sId ans =>
    -- the one operation that enters a device, under the caller's own thread
    obtain rfl : gettid = t := Option.some.inj hact
    cases hopen : st.platform.openDevice { dev with isDisabled := false } sId ans with
    | error e => simp [step, SessionOp.unmarked, hopen] at hs
    | ok r =>
      obtain ⟨ret, dev', p⟩ := r
      obtain ⟨rfl, hmap, -, -⟩ := Platform.openDevice_cases hopen
      have hp : p.getDevice k.1 k.2 = st.platform.getDevice k.1 k.2 := by
        rw [Platform.getDevice, Platform.getDevice, hmap]
      by_cases hret : ret = 0
      · obtain rfl : _ = st' := by simpa [step, SessionOp.unmarked, hopen, hret] using hs
        by_cases hk : k = (gettid, ans.perfEventOpen)
        · subst hk
          refine Or.inr ⟨rfl, Or.inr ⟨dev, sId, ans, rfl, rfl, _, AList.lookup_insert _, rfl⟩⟩
        · refine Or.inl (Eq.trans ?_ hp)
          exact AList.lookup_insert_ne hk
      · -- a registration that fails leaves the map alone
        obtain rfl : _ = st' := by simpa [step, SessionOp.unmarked, hopen, hret] using hs
        exact Or.inl hp
  | addNewDeviceToSession gettid fd sId =>
    -- the second half of a registration only touches the multimap
    refine Or.inl ?_
    by_cases hm : (gettid, fd, sId) ∈ st.registering
    · obtain rfl : _ = st' := by simpa [step, SessionOp.unmarked, hm] using hs
      rfl
    · obtain rfl : st = st' := by simpa [step, SessionOp.unmarked, hm] using hs
      rfl
  -- the calls through a pointer are no operations on the maps
  | startDevice k' => cases hact
  | endDevice k' => cases hact
  | updateBPAddress k' len bpType addr ans => cases hact
  | removeDevice gettid fd ans =>
    obtain rfl : gettid = t := Option.some.inj hact
    cases hrem : st.platform.removeDevice gettid fd true ans with
    | error e => simp [step, SessionOp.unmarked, hrem] at hs
    | ok p =>
      obtain rfl : _ = st' := by simpa [step, SessionOp.unmarked, hrem] using hs
      change p.getDevice k.1 k.2 = _ ∨ k.1 = gettid ∧ (p.getDevice k.1 k.2 = none ∨ _)
      rw [Platform.removeDevice_getDevice hrem]
      split_ifs with hk
      · exact Or.inr ⟨(Prod.mk.inj hk).1, Or.inl rfl⟩
      · exact Or.inl rfl
  | removeDeviceBySession gettid s ans =>
    obtain rfl : gettid = t := Option.some.inj hact
    cases hrem : st.platform.removeDeviceBySession gettid s ans with
    | error e => simp [step, SessionOp.unmarked, hrem] at hs
    | ok r =>
      obtain rfl : _ = st' := by simpa [step, SessionOp.unmarked, hrem] using hs
      obtain ⟨calls, p'⟩ := r
      obtain ⟨q, hloop, rfl⟩ := Platform.removeDeviceBySession_returns hrem
      -- the pairs of the session go after the loop
      rcases Platform.getDevice_removeDevices hloop k with heq | hgone
      · exact Or.inl heq
      · exact Or.inr ⟨hgone.1, Or.inl hgone.2⟩

end Registry

namespace Counters

variable {st st' : Counters} {getpid t : ℕ} {k : ℕ × ℤ}

@[simp] theorem device_setRuns (k' : ℕ × ℤ) (b : Bool) :
    (st.setRuns k' b).device k = st.device k := rfl

@[simp] theorem runs_goto (pc : CounterPc) : (st.goto t pc).runs = st.runs := rfl

@[simp] theorem runs_withDevice (k' : ℕ × ℤ) (f : Device → Device) :
    (st.withDevice k' f).runs = st.runs := rfl

@[simp] theorem pc_goto_self (pc : CounterPc) : (st.goto t pc).pc t = pc := by
  simp only [goto, Function.update_self]

theorem pc_goto_ne {t' : ℕ} (pc : CounterPc) (h : t' ≠ t) : (st.goto t pc).pc t' = st.pc t' :=
  Function.update_of_ne h _ _

@[simp] theorem runs_setRuns_self (b : Bool) : (st.setRuns k b).runs k = b := by
  simp only [setRuns, Function.update_self]

theorem runs_setRuns_ne {k' : ℕ × ℤ} (b : Bool) (h : k' ≠ k) :
    (st.setRuns k b).runs k' = st.runs k' :=
  Function.update_of_ne h _ _

theorem device_withDevice_self (f : Device → Device) :
    (st.withDevice k f).device k = (st.device k).map f := by
  unfold withDevice Registry.withDevice device
  cases hdev : st.registry.platform.getDevice k.1 k.2 with
  | none => exact hdev
  | some dev => exact Platform.getDevice_setDevice _ _ _ _

theorem device_withDevice_ne {k' : ℕ × ℤ} (f : Device → Device) (h : k' ≠ k) :
    (st.withDevice k f).device k' = st.device k' := by
  unfold withDevice Registry.withDevice device
  cases hdev : st.registry.platform.getDevice k.1 k.2 with
  | none => rfl
  | some dev => exact Platform.getDevice_setDevice_ne _ _ _ _ h

/-- A call on a device leaves it in the map. -/
theorem device_withDevice_eq_none (k' : ℕ × ℤ) (f : Device → Device) :
    (st.withDevice k' f).device k = none ↔ st.device k = none := by
  by_cases hk : k = k'
  · subst hk
    rw [device_withDevice_self, Option.map_eq_none_iff]
  · rw [device_withDevice_ne f hk]

/-- Every way a step can go. -/
inductive Stepped (getpid : ℕ) (st : Counters) : CounterInput → Counters → Prop
  /-- The thread waits or is busy, or the device is not found. -/
  | waits {i : CounterInput} : Stepped getpid st i st
  | gets {t : ℕ} {fd : ℤ} {c : PointerCall} (hpc : st.pc t = .outside) (hholder : st.holder = none)
      (hdev : st.device (t, fd) ≠ none) :
      Stepped getpid st (.getDevice t fd c) (st.goto t (.holds c (t, fd)))
  | enters {t : ℕ} {l : DeviceLoop} (hpc : st.pc t = .outside) (hholder : st.holder = none) :
      Stepped getpid st (.enter t l)
        ({ st with holder := some t }.goto t (.loop l (l.devices st.registry.platform t)))
  | advances {t : ℕ} : Stepped getpid st (.advance t) (st.advance t)
  | maps {t : ℕ} {op : SessionOp} {disabled : Bool} {r : Registry} (hact : op.actor = some t)
      (hpc : st.pc t = .outside) (hholder : st.holder = none)
      (hr : st.registry.step getpid op.unmarked = .running () r) :
      Stepped getpid st (.maps op disabled)
        { st with registry := r, runs := st.runsAfter r disabled }
  | overflows {k : ℕ × ℤ} : Stepped getpid st (.overflow k) (st.setRuns k false)

theorem step_cases {i : CounterInput} (hs : step getpid st i = .running () st') :
    Stepped getpid st i st' := by
  cases i with
  | getDevice t fd c =>
    dsimp only [step] at hs
    -- the mutex is free, and the map has such a device
    split_ifs at hs with hfree
    · obtain rfl := (Outcome.running.inj hs).2
      exact .gets hfree.1 hfree.2.1 (Option.isSome_iff_ne_none.mp hfree.2.2)
    · obtain rfl := (Outcome.running.inj hs).2
      exact .waits
  | enter t l =>
    dsimp only [step] at hs
    split_ifs at hs with hfree
    · obtain rfl := (Outcome.running.inj hs).2
      exact .enters hfree.1 hfree.2
    · obtain rfl := (Outcome.running.inj hs).2
      exact .waits
  | advance t =>
    obtain rfl := (Outcome.running.inj hs).2
    exact .advances
  | maps op disabled =>
    dsimp only [step] at hs
    -- a call through a pointer has no actor, and is no operation on the maps
    cases hact : op.actor with
    | none =>
      rw [hact] at hs
      obtain rfl := (Outcome.running.inj hs).2
      exact .waits
    | some t =>
      rw [hact] at hs
      dsimp only at hs
      split_ifs at hs with hfree
      · cases hr : st.registry.step getpid op.unmarked with
        | ended e r => simp [hr] at hs
        | running u r =>
          simp only [hr] at hs
          obtain rfl := (Outcome.running.inj hs).2
          exact .maps hact hfree.1 hfree.2 hr
      · -- the mutex is held, so the operation waits
        obtain rfl := (Outcome.running.inj hs).2
        exact .waits
  | overflow k =>
    obtain rfl := (Outcome.running.inj hs).2
    exact .overflows

/-! ### The mutex and the pointers -/

/-- Who is in a loop has the mutex, who has a pointer has one of an own device in the map, and
the second half of `updateBPAddress` is reached when the first one succeeded. -/
structure LockInv (st : Counters) : Prop where
  locks : ∀ t, (st.pc t).locks = true → st.holder = some t
  own : ∀ t c k, (st.pc t).call? = some (c, k) → k.1 = t ∧ st.device k ≠ none
  moved : ∀ t len bpType addr ans k, st.pc t = .within (.updateBPAddress len bpType addr ans) k →
    (ans.agentOk || ans.ioctlOk) = true

theorem LockInv.init (p : Platform) (fOwnerEx : ℤ → ℕ) : LockInv (init p fOwnerEx) where
  locks := fun _ h => by cases h
  own := fun _ _ _ h => by cases h
  moved := fun _ _ _ _ _ _ h => by cases h

/-- The threads are where they were, and have their devices. -/
theorem LockInv.keep (h : LockInv st) (hpc : st'.pc = st.pc) (hholder : st'.holder = st.holder)
    (hdev : ∀ t c k, (st.pc t).call? = some (c, k) → st.device k ≠ none → st'.device k ≠ none) :
    LockInv st' := by
  constructor
  · rw [hpc, hholder]
    exact h.locks
  · intro t c k hc
    rw [hpc] at hc
    obtain ⟨hk, hsome⟩ := h.own t c k hc
    exact ⟨hk, hdev t c k hc hsome⟩
  · rw [hpc]
    exact h.moved

theorem LockInv.withDevice (h : LockInv st) (k : ℕ × ℤ) (f : Device → Device) :
    LockInv (st.withDevice k f) := by
  refine h.keep rfl rfl ?_
  intro t c k' _ hsome hnone
  exact hsome ((device_withDevice_eq_none k f).mp hnone)

theorem LockInv.setRuns (h : LockInv st) (k : ℕ × ℤ) (b : Bool) : LockInv (st.setRuns k b) :=
  h.keep rfl rfl fun _ _ _ _ hsome => hsome

/-- One thread moves. -/
theorem LockInv.goto (h : LockInv st) {pc : CounterPc}
    (hlocks : pc.locks = true → st.holder = some t)
    (hown : ∀ c k, pc.call? = some (c, k) → k.1 = t ∧ st.device k ≠ none)
    (hmoved : ∀ len bpType addr ans k, pc = .within (.updateBPAddress len bpType addr ans) k →
      (ans.agentOk || ans.ioctlOk) = true) : LockInv (st.goto t pc) := by
  -- clause by clause: the thread that moves answers for itself, the others have not moved
  constructor
  · intro t' hl
    by_cases ht : t' = t
    · subst ht
      rw [pc_goto_self] at hl
      exact hlocks hl
    · rw [pc_goto_ne pc ht] at hl
      exact h.locks t' hl
  · intro t' c k hc
    by_cases ht : t' = t
    · subst ht
      rw [pc_goto_self] at hc
      exact hown c k hc
    · rw [pc_goto_ne pc ht] at hc
      exact h.own t' c k hc
  · intro t' len bpType addr ans k hpc
    by_cases ht : t' = t
    · subst ht
      rw [pc_goto_self] at hpc
      exact hmoved len bpType addr ans k hpc
    · rw [pc_goto_ne pc ht] at hpc
      exact h.moved t' len bpType addr ans k hpc

/-- A thread goes to a place without a pointer. -/
theorem LockInv.gotoPlain (h : LockInv st) {pc : CounterPc} (hcall : pc.call? = none)
    (hlocks : pc.locks = true → st.holder = some t) : LockInv (st.goto t pc) := by
  apply h.goto hlocks
  · intro c k hc
    rw [hcall] at hc
    cases hc
  · intro len bpType addr ans k hpc
    rw [hpc] at hcall
    cases hcall

/-- A thread goes on with the pointer it has. -/
theorem LockInv.gotoCall (h : LockInv st) {pc : CounterPc} {c : PointerCall}
    (hold : (st.pc t).call? = some (c, k)) (hcall : pc.call? = some (c, k))
    (hlocks : pc.locks = false)
    (hmoved : ∀ len bpType addr ans, c = .updateBPAddress len bpType addr ans →
      (ans.agentOk || ans.ioctlOk) = true) : LockInv (st.goto t pc) := by
  apply h.goto
  · intro hl
    rw [hlocks] at hl
    cases hl
  · intro c' k' hc
    obtain ⟨rfl, rfl⟩ := Prod.mk.inj (Option.some.inj (hcall.symm.trans hc))
    exact h.own t c k hold
  · intro len bpType addr ans k' hpc
    rw [hpc] at hcall
    exact hmoved len bpType addr ans (Prod.mk.inj (Option.some.inj hcall)).1.symm

theorem LockInv.advance (h : LockInv st) (t : ℕ) : LockInv (st.advance t) := by
  unfold Counters.advance
  cases hpc : st.pc t with
  | outside => exact h
  | holds c k =>
    have hc : (st.pc t).call? = some (c, k) := by rw [hpc]; rfl
    cases c with
    | startDevice => exact (h.withDevice k _).gotoCall hc rfl rfl nofun
    | endDevice => exact (h.withDevice k _).gotoCall hc rfl rfl nofun
    | updateBPAddress len bpType addr ans =>
      dsimp only
      -- a move that failed leaves the device, and the call is over
      split_ifs with hok
      · apply (h.setRuns k true).gotoCall hc rfl rfl
        intro len' bpType' addr' ans' heq
        cases heq
        exact hok
      · exact h.gotoPlain rfl nofun
  | within c k =>
    cases c with
    | startDevice => exact (h.setRuns k _).gotoPlain rfl nofun
    | endDevice => exact (h.setRuns k _).gotoPlain rfl nofun
    | updateBPAddress len bpType addr ans => exact (h.withDevice k _).gotoPlain rfl nofun
  | loop l todo =>
    have hholder : st.holder = some t := h.locks t (by rw [hpc]; rfl)
    cases todo with
    | nil =>
      have hplain : LockInv (st.goto t .outside) := h.gotoPlain rfl nofun
      -- the mutex is given back; nobody else is in a loop
      refine ⟨?_, hplain.own, hplain.moved⟩
      intro t' hl
      by_cases ht : t' = t
      · subst ht
        rw [pc_goto_self] at hl
        cases hl
      · rw [pc_goto_ne _ ht] at hl
        exact absurd (Option.some.inj ((h.locks t' hl).symm.trans hholder)) ht
    -- the next device is tested under the mutex
    | cons k todo =>
      dsimp only
      split_ifs
      · exact h.gotoPlain rfl fun _ => hholder
      · exact h.gotoPlain rfl fun _ => hholder
  | chosen l k todo =>
    have hholder : st.holder = some t := h.locks t (by rw [hpc]; rfl)
    exact (h.setRuns k _).gotoPlain rfl fun _ => hholder

/-- **Who has what**, after one more step. -/
theorem LockInv.step (h : LockInv st) {i : CounterInput}
    (hs : Counters.step getpid st i = .running () st') : LockInv st' := by
  cases step_cases hs with
  | waits => exact h
  | gets hpc hholder hdev =>
    apply h.goto
    · intro hl
      cases hl
    · intro c' k hc
      obtain ⟨rfl, rfl⟩ := Prod.mk.inj (Option.some.inj hc)
      exact ⟨rfl, hdev⟩
    · intro len bpType addr ans k hpc
      cases hpc
  | @enters t l hpc hholder =>
    -- the mutex was free, so nobody else is in a loop
    have hnobody : ∀ t', (st.pc t').locks = false := by
      intro t'
      cases hl : (st.pc t').locks with
      | false => rfl
      | true => exact absurd (hholder.symm.trans (h.locks t' hl)) nofun
    have hlocked : LockInv { st with holder := some t } := by
      refine ⟨fun t' hl => ?_, h.own, h.moved⟩
      exact absurd ((hnobody t').symm.trans hl) nofun
    exact hlocked.gotoPlain rfl fun _ => rfl
  | advances => exact h.advance _
  | maps hact hpc hholder hr =>
    refine h.keep rfl rfl fun t' c k hc hsome => ?_
    rcases Registry.step_own hact hr k with heq | ⟨hk, -⟩
    · intro hnone
      exact hsome (heq.symm.trans hnone)
    · -- the thread that works on the maps has no pointer
      obtain rfl := (h.own t' c k hc).1.symm.trans hk
      rw [hpc] at hc
      cases hc
  | overflows => exact h.setRuns _ false

/-! ### A loop as one step -/

/-- Thread `t` has the mutex, nobody is in a call on the device, and its counter does not come
to its limit. -/
def Undisturbed (t : ℕ) (k : ℕ × ℤ) (st : Counters) (i : CounterInput) : Prop :=
  st.holder = some t ∧ (∀ t' c, (st.pc t').call? ≠ some (c, k)) ∧ ∀ k', i = .overflow k' → k' ≠ k

/-- The loop that thread `t` has entered in `st₀` has gone over the devices `done`, and has done
to device `k` what it does to it at all if that is one of them. -/
structure InLoop (st₀ : Counters) (l : DeviceLoop) (t : ℕ) (k : ℕ × ℤ) (st : Counters) : Prop where
  device : st.device k = st₀.device k
  place : ∃ done todo, l.devices st₀.registry.platform t = done ++ todo ∧
    (st.pc t = .loop l todo ∨ ∃ k' rest, todo = k' :: rest ∧ st.pc t = .chosen l k' rest ∧
      (k = k' → l.picks st₀.registry.platform k = true)) ∧
    st.runs k =
      if k ∈ done ∧ l.picks st₀.registry.platform k = true then l.enables else st₀.runs k

theorem picks_congr {l : DeviceLoop} (h : st'.device k = st.device k) :
    l.picks st'.registry.platform k = l.picks st.registry.platform k := by
  have hlookup : st'.registry.platform.deviceMap.lookup k =
      st.registry.platform.deviceMap.lookup k := h
  have henabled : st'.registry.platform.isEnabled k = st.registry.platform.isEnabled k := by
    rw [Platform.isEnabled, Platform.isEnabled, hlookup]
  cases l with
  | pauseAllDevices => exact congrArg Option.isSome h
  | pauseDevicesBySession s => exact henabled
  | resumeAllDevices => exact henabled
  | resumeDevicesBySession s => exact henabled

/-- The loop has not done anything yet. -/
theorem InLoop.enter {l : DeviceLoop}
    (hpc : st.pc t = .loop l (l.devices st.registry.platform t)) : InLoop st l t k st :=
  ⟨rfl, [], _, rfl, Or.inl hpc, by simp⟩

/-- Nothing happens to the thread and to the device. -/
theorem InLoop.keep {st₀ : Counters} {l : DeviceLoop} (h : InLoop st₀ l t k st)
    (hdev : st'.device k = st.device k) (hruns : st'.runs k = st.runs k)
    (hpc : st'.pc t = st.pc t) : InLoop st₀ l t k st' := by
  refine ⟨hdev.trans h.device, ?_⟩
  rw [hpc, hruns]
  exact h.place

/-- A thread without the mutex, and without a pointer of the device. -/
theorem advance_other {t' : ℕ} (hlocks : (st.pc t').locks = false)
    (hcall : ∀ c, (st.pc t').call? ≠ some (c, k)) :
    (st.advance t').device k = st.device k ∧ (st.advance t').runs k = st.runs k ∧
    ∀ t, t ≠ t' → (st.advance t').pc t = st.pc t := by
  unfold Counters.advance
  cases hpc : st.pc t' with
  | outside => exact ⟨rfl, rfl, fun _ _ => rfl⟩
  -- its pointer is of another device
  | holds c k' =>
    have hk : k ≠ k' := by
      rintro rfl
      exact hcall c (by rw [hpc]; rfl)
    cases c with
    | startDevice =>
      exact ⟨device_withDevice_ne _ hk, rfl, fun _ ht => pc_goto_ne _ ht⟩
    | endDevice => exact ⟨device_withDevice_ne _ hk, rfl, fun _ ht => pc_goto_ne _ ht⟩
    | updateBPAddress len bpType addr ans =>
      dsimp only
      split_ifs with hok
      · exact ⟨rfl, runs_setRuns_ne _ hk, fun _ ht => pc_goto_ne _ ht⟩
      · exact ⟨rfl, rfl, fun _ ht => pc_goto_ne _ ht⟩
  | within c k' =>
    have hk : k ≠ k' := by
      rintro rfl
      exact hcall c (by rw [hpc]; rfl)
    cases c with
    | startDevice => exact ⟨rfl, runs_setRuns_ne _ hk, fun _ ht => pc_goto_ne _ ht⟩
    | endDevice => exact ⟨rfl, runs_setRuns_ne _ hk, fun _ ht => pc_goto_ne _ ht⟩
    | updateBPAddress len bpType addr ans =>
      exact ⟨device_withDevice_ne _ hk, rfl, fun _ ht => pc_goto_ne _ ht⟩
  -- a thread in a loop would have the mutex
  | loop l todo =>
    rw [hpc] at hlocks
    cases hlocks
  | chosen l k' todo =>
    rw [hpc] at hlocks
    cases hlocks

/-- **One round of the loop**, or a part of it. -/
theorem InLoop.advance {st₀ : Counters} {l : DeviceLoop} (h : InLoop st₀ l t k st)
    (hholder : (st.advance t).holder = some t) : InLoop st₀ l t k (st.advance t) := by
  obtain ⟨hdev, done, todo, hsplit, hplace, hruns⟩ := h
  -- the loop is in front of a device, or has tested one and is about to call
  rcases hplace with hpc | ⟨k', rest, rfl, hpc, hpick⟩
  · cases todo with
    | nil =>
      -- the mutex is given back
      rw [Counters.advance, hpc] at hholder
      cases hholder
    | cons k' rest =>
      by_cases hpick : l.picks st.registry.platform k' = true
      · have hadv : st.advance t = st.goto t (.chosen l k' rest) := by
          rw [Counters.advance, hpc]
          exact if_pos hpick
        rw [hadv]
        refine ⟨hdev, done, k' :: rest, hsplit, Or.inr ⟨k', rest, rfl, pc_goto_self _, ?_⟩, hruns⟩
        rintro rfl
        exact (picks_congr hdev).symm.trans hpick
      · have hadv : st.advance t = st.goto t (.loop l rest) := by
          rw [Counters.advance, hpc]
          exact if_neg hpick
        rw [hadv]
        refine ⟨hdev, done ++ [k'], rest, ?_, Or.inl (pc_goto_self _), ?_⟩
        · rw [hsplit, List.append_assoc, List.singleton_append]
        · rw [runs_goto, hruns]
          by_cases hk : k = k'
          · -- the device was left out, and so it is in the atomic step
            subst hk
            rw [picks_congr hdev] at hpick
            rw [if_neg fun h => hpick h.2, if_neg fun h => hpick h.2]
          · simp [hk]
  · -- the call on a device that passed the test
    have hadv : st.advance t = (st.setRuns k' l.enables).goto t (.loop l rest) := by
      rw [Counters.advance, hpc]
    rw [hadv]
    refine ⟨hdev, done ++ [k'], rest, ?_, Or.inl (pc_goto_self _), ?_⟩
    · rw [hsplit, List.append_assoc, List.singleton_append]
    · rw [runs_goto]
      by_cases hk : k = k'
      · subst hk
        rw [runs_setRuns_self, if_pos ⟨by simp, hpick rfl⟩]
      · rw [runs_setRuns_ne _ hk, hruns]
        simp [hk]

/-- **One step while the loop has the mutex.** -/
theorem InLoop.step {st₀ : Counters} {l : DeviceLoop} (hlock : LockInv st)
    (h : InLoop st₀ l t k st) {i : CounterInput} (hi : Undisturbed t k st i)
    (hs : Counters.step getpid st i = .running () st') (hholder : st'.holder = some t) :
    InLoop st₀ l t k st' := by
  obtain ⟨hheld, hcall, hover⟩ := hi
  have hbusy : st.holder ≠ none := by
    -- the loop has the mutex, so no other loop and no operation on the maps goes on
    rw [hheld]
    nofun
  cases step_cases hs with
  | waits => exact h
  | gets _ hfree _ => exact absurd hfree hbusy
  | enters _ hfree => exact absurd hfree hbusy
  | @advances t' =>
    by_cases ht : t' = t
    · subst ht
      exact h.advance hholder
    · -- one mutex, so no other thread is in a loop
      have hlocks : (st.pc t').locks = false := by
        cases hl : (st.pc t').locks with
        | false => rfl
        | true => exact absurd (Option.some.inj ((hlock.locks t' hl).symm.trans hheld)) ht
      obtain ⟨hdev, hruns, hpc⟩ := advance_other hlocks (hcall t')
      exact h.keep hdev hruns (hpc t (Ne.symm ht))
  | maps _ _ hfree _ => exact absurd hfree hbusy
  | overflows => exact h.keep rfl (runs_setRuns_ne _ (hover _ rfl).symm) rfl

theorem lockInv_of_run {inputs : List CounterInput} (h : LockInv st)
    (hrun : exec (step getpid) st inputs = .running () st') : LockInv st' :=
  exec_invariant (C := fun _ _ => True) (fun _ _ _ _ h _ hs => h.step hs) h
    (along_of_forall fun _ _ => trivial) hrun

end Counters

end Kognizance
