import Kognizance.Platform.DeviceLoops

/-!
# Devices that were ended

`end_device` marks a device as disabled and then stops its counter. A loop that resumes
devices tests the mark first and enables the counter then, so it enables a device that is
ended between the two.

* `Counters.Late`: a resume has tested the device and is to enable it.
* `Counters.Held` is what every step keeps that does not mark a device then, and
  `Counters.Stays` what is left of a device that nobody starts again.
* `ended_stays_off`: a device that was ended stays off, unless it was ended while a resume
  was late for it.
-/

namespace Kognizance

open Process

namespace Counters

variable {st st' : Counters} {getpid t : ℕ} {k : ℕ × ℤ}

/-! ### Devices that are marked -/

/-- The device is marked disabled. -/
def Marked (st : Counters) (k : ℕ × ℤ) : Prop :=
  ∃ dev, st.device k = some dev ∧ dev.isDisabled = true

/-- A resume has found the device enabled, and calls `enable_device` on it next. -/
def Late (st : Counters) (k : ℕ × ℤ) : Prop :=
  ∃ t l todo, st.pc t = .chosen l k todo ∧ l.enables = true

/-- The device is marked and no call on it is half done. -/
def Ended (st : Counters) (k : ℕ × ℤ) : Prop := st.Marked k ∧ ∀ c, st.pc k.1 ≠ .within c k

/-- A device that is marked is not enabled by anyone, and its counter runs during a call only. -/
def Held (st : Counters) (k : ℕ × ℤ) : Prop :=
  st.Marked k → ¬ st.Late k ∧ st.pc k.1 ≠ .within .startDevice k ∧
    (st.runs k = true → ∃ c, st.pc k.1 = .within c k)

/-- The step does not mark the device while a resume is late for it. -/
def EndsInTime (k : ℕ × ℤ) (st : Counters) : CounterInput → Prop
  | .advance t => st.pc t = .holds .endDevice k → ¬ st.Late k
  | _ => True

theorem marked_congr (h : st'.device k = st.device k) : st'.Marked k ↔ st.Marked k := by
  unfold Marked
  rw [h]

/-- The counter of a device that stays in the map is left alone. -/
theorem runs_of_runsAfter {r : Registry} {disabled : Bool}
    (h : r.platform.getDevice k.1 k.2 = st.device k) (hruns : st.runsAfter r disabled k = true) :
    st.runs k = true := by
  unfold runsAfter at hruns
  rw [h] at hruns
  cases hdev : st.device k with
  | none => simp [hdev] at hruns
  | some dev => simpa [hdev] using hruns

/-- What is tested in front of `enable_device`. -/
theorem not_marked_of_picks {l : DeviceLoop} (hl : l.enables = true)
    (h : l.picks st.registry.platform k = true) : ¬ st.Marked k := by
  rintro ⟨dev, hdev, hmark⟩
  have hlookup : st.registry.platform.deviceMap.lookup k = some dev := hdev
  have hoff : st.registry.platform.isEnabled k = false := by
    rw [Platform.isEnabled, hlookup]
    simp [hmark]
  cases l with
  | pauseAllDevices => cases hl
  | pauseDevicesBySession s => cases hl
  | resumeAllDevices => exact Bool.false_ne_true (hoff.symm.trans h)
  | resumeDevicesBySession s => exact Bool.false_ne_true (hoff.symm.trans h)

theorem Held.keep (h : Held st k) (hmark : st'.Marked k → st.Marked k)
    (hlate : st'.Late k → st.Late k)
    (hcall : ∀ c, st'.pc k.1 = .within c k ↔ st.pc k.1 = .within c k)
    (hruns : st'.runs k = true → st.runs k = true) : Held st' k := by
  intro hm
  obtain ⟨hnot, hstart, hoff⟩ := h (hmark hm)
  refine ⟨fun hl => hnot (hlate hl), fun hs => hstart ((hcall _).mp hs), fun hr => ?_⟩
  obtain ⟨c, hc⟩ := hoff (hruns hr)
  exact ⟨c, (hcall c).mpr hc⟩

/-- A thread moves, and is in the middle of a call on the device neither before nor after. -/
theorem Held.goto (h : Held st k) {pc : CounterPc} (hold : ∀ c, st.pc t ≠ .within c k)
    (hnew : ∀ c, pc ≠ .within c k)
    (hchosen : ∀ l todo, pc = .chosen l k todo → l.enables = true → ¬ st.Marked k) :
    Held (st.goto t pc) k := by
  by_cases hm : st.Marked k
  · -- the move makes no resume late, and begins and ends no call on the device
    refine h.keep id ?_ ?_ id
    · rintro ⟨t', l, todo, hpc, hl⟩
      by_cases ht : t' = t
      · subst ht
        rw [pc_goto_self] at hpc
        exact absurd hm (hchosen l todo hpc hl)
      · rw [pc_goto_ne pc ht] at hpc
        exact ⟨t', l, todo, hpc, hl⟩
    · intro c
      by_cases ht : k.1 = t
      · subst ht
        rw [pc_goto_self]
        exact iff_of_false (hnew c) (hold c)
      · rw [pc_goto_ne pc ht]
  · exact fun hm' => absurd hm' hm

/-- The counter of another device, or of this one stopped. -/
theorem Held.setRuns (h : Held st k) {k' : ℕ × ℤ} {b : Bool} (hk : k = k' → b = false) :
    Held (st.setRuns k' b) k := by
  refine h.keep id id (fun _ => Iff.rfl) ?_
  intro hr
  by_cases hkk : k = k'
  · obtain rfl := hk hkk
    rw [hkk, runs_setRuns_self] at hr
    cases hr
  · rwa [runs_setRuns_ne b hkk] at hr

theorem Held.withDevice (h : Held st k) {k' : ℕ × ℤ} (f : Device → Device) (hk : k ≠ k') :
    Held (st.withDevice k' f) k :=
  h.keep (marked_congr (device_withDevice_ne f hk)).mp id (fun _ => Iff.rfl) id

/-- What a device that is not marked does is free. -/
theorem held_of_not_marked (h : ¬ st.Marked k) : Held st k := fun hm => absurd hm h

theorem not_marked_withDevice {f : Device → Device} (hf : ∀ dev, (f dev).isDisabled = false) :
    ¬ (st.withDevice k f).Marked k := by
  rintro ⟨dev, hdev, hmark⟩
  rw [device_withDevice_self, Option.map_eq_some_iff] at hdev
  obtain ⟨dev', -, rfl⟩ := hdev
  exact absurd ((hf dev').symm.trans hmark) nofun

theorem late_goto {pc : CounterPc} (h : (st.goto t pc).Late k)
    (hpc : ∀ l k todo, pc ≠ .chosen l k todo) : st.Late k := by
  obtain ⟨t', l, todo, hchosen, hl⟩ := h
  by_cases ht : t' = t
  · subst ht
    rw [pc_goto_self] at hchosen
    exact absurd hchosen (hpc l k todo)
  · rw [pc_goto_ne pc ht] at hchosen
    exact ⟨t', l, todo, hchosen, hl⟩

theorem not_within {pc : CounterPc} (hpc : st.pc t = pc) (h : ∀ c, pc ≠ .within c k) :
    ∀ c, st.pc t ≠ .within c k :=
  fun c hc => h c (hpc.symm.trans hc)

/-- A call on another device goes on. -/
theorem Held.elsewhere (h : Held st k) {c : PointerCall} {k' : ℕ × ℤ} (hk : k ≠ k')
    (hpc : st.pc t = .holds c k' ∨ st.pc t = .within c k') : Held (st.advance t) k := by
  have hnew : ∀ c c' : PointerCall, CounterPc.within c k' ≠ .within c' k := by
    intro c c' h'
    cases h'
    exact hk rfl
  have hoff : ∀ {b : Bool}, k = k' → b = false := fun he => absurd he hk
  unfold Counters.advance
  rcases hpc with hpc | hpc
  · -- the call begins with its store or its counter, both of another device
    have hold := not_within hpc (k := k) nofun
    rw [hpc]
    cases c with
    | startDevice => exact (h.withDevice _ hk).goto hold (hnew _) nofun
    | endDevice => exact (h.withDevice _ hk).goto hold (hnew _) nofun
    | updateBPAddress len bpType addr ans =>
      dsimp only
      split_ifs with hok
      · exact (h.setRuns hoff).goto hold (hnew _) nofun
      · exact h.goto hold nofun nofun
  · -- and it ends with the other one of the two
    have hold := not_within hpc (hnew c)
    rw [hpc]
    cases c with
    | startDevice => exact (h.setRuns hoff).goto hold nofun nofun
    | endDevice => exact (h.setRuns hoff).goto hold nofun nofun
    | updateBPAddress len bpType addr ans => exact (h.withDevice _ hk).goto hold nofun nofun

/-- A call on the device begins: `end_device` marks it, and a call that enables it unmarks it or
comes to the counter first. -/
theorem Held.begins (hlock : LockInv st) (h : Held st k) {c : PointerCall}
    (hpc : st.pc t = .holds c k) (hend : c = .endDevice → ¬ st.Late k) :
    Held (st.advance t) k := by
  have hold := not_within hpc (k := k) nofun
  have hown : k.1 = t := (hlock.own t c k (by rw [hpc]; rfl)).1
  unfold Counters.advance
  rw [hpc]
  cases c with
  | startDevice => exact held_of_not_marked (not_marked_withDevice fun _ => rfl)
  -- the mark is set; no resume is late for it, and the counter is stopped by the thread's next step
  | endDevice =>
    intro _
    refine ⟨fun hl => hend rfl (late_goto hl nofun), ?_, fun _ => ⟨.endDevice, ?_⟩⟩
    · rw [hown, pc_goto_self]
      nofun
    · rw [hown, pc_goto_self]
  | updateBPAddress len bpType addr ans =>
    dsimp only
    split_ifs with hok
    · -- a moved breakpoint runs before its mark is cleared, which the thread does next
      intro hm
      refine ⟨fun hl => (h hm).1 (late_goto hl nofun), ?_,
        fun _ => ⟨.updateBPAddress len bpType addr ans, ?_⟩⟩
      · rw [hown, pc_goto_self]
        nofun
      · rw [hown, pc_goto_self]
    · exact h.goto hold nofun nofun

/-- The second half of a call on the device: the counter is stopped, or nothing is marked. -/
theorem Held.finishes (hlock : LockInv st) (h : Held st k) {c : PointerCall}
    (hpc : st.pc t = .within c k) : Held (st.advance t) k := by
  have hown : k.1 = t := (hlock.own t c k (by rw [hpc]; rfl)).1
  unfold Counters.advance
  rw [hpc]
  cases c with
  | startDevice =>
    -- the device was marked again by nobody
    have hnot : ¬ st.Marked k := fun hm => (h hm).2.1 (hown.symm ▸ hpc)
    exact held_of_not_marked hnot
  | endDevice =>
    intro hm
    refine ⟨fun hl => (h hm).1 (late_goto hl nofun), ?_, fun hr => ?_⟩
    · rw [hown, pc_goto_self]
      nofun
    · rw [runs_goto, runs_setRuns_self] at hr
      cases hr
  | updateBPAddress len bpType addr ans =>
    have hok := hlock.moved t len bpType addr ans k hpc
    apply held_of_not_marked
    exact not_marked_withDevice fun dev => by rw [Device.updateBPAddress, if_pos hok]

/-- A loop goes on with this device or another one. -/
theorem Held.loops (h : Held st k) {l : DeviceLoop} {todo : List (ℕ × ℤ)}
    (hpc : st.pc t = .loop l todo) : Held (st.advance t) k := by
  have hold := not_within hpc (k := k) nofun
  unfold Counters.advance
  rw [hpc]
  cases todo with
  | nil =>
    have hheld : Held { st with holder := none } k := h
    exact hheld.goto hold nofun nofun
  | cons k' todo =>
    dsimp only
    split_ifs with hpick
    · refine h.goto hold nofun ?_
      rintro l' todo' heq hl
      cases heq
      exact not_marked_of_picks hl hpick
    · exact h.goto hold nofun nofun

/-- A loop comes to the counter of a device that it has tested. -/
theorem Held.chooses (h : Held st k) {l : DeviceLoop} {k' : ℕ × ℤ} {todo : List (ℕ × ℤ)}
    (hpc : st.pc t = .chosen l k' todo) : Held (st.advance t) k := by
  have hold := not_within hpc (k := k) nofun
  unfold Counters.advance
  rw [hpc]
  by_cases hm : st.Marked k
  · refine (h.setRuns ?_).goto hold nofun nofun
    rintro rfl
    -- a resume that has come here is late for the device
    cases hl : l.enables with
    | false => rfl
    | true => exact absurd ⟨t, l, todo, hpc, hl⟩ (h hm).1
  · exact held_of_not_marked hm

theorem Held.advance (hlock : LockInv st) (h : Held st k) {t : ℕ}
    (hend : st.pc t = .holds .endDevice k → ¬ st.Late k) : Held (st.advance t) k := by
  cases hpc : st.pc t with
  | outside =>
    unfold Counters.advance
    rw [hpc]
    exact h
  -- of the calls only those on this device have to be looked at
  | holds c k' =>
    by_cases hk : k = k'
    · subst hk
      exact h.begins hlock hpc fun hc => hend (hc ▸ hpc)
    · exact h.elsewhere hk (.inl hpc)
  | within c k' =>
    by_cases hk : k = k'
    · subst hk
      exact h.finishes hlock hpc
    · exact h.elsewhere hk (.inr hpc)
  | loop l todo => exact h.loops hpc
  | chosen l k' todo => exact h.chooses hpc

/-- **One step**, if it does not mark the device while a resume is late for it. -/
theorem Held.step (hlock : LockInv st) (h : Held st k) {i : CounterInput}
    (hend : EndsInTime k st i) (hs : Counters.step getpid st i = .running () st') :
    Held st' k := by
  cases step_cases hs with
  | waits => exact h
  | gets hpc hholder hdev => exact h.goto (not_within hpc nofun) nofun nofun
  | @enters t l hpc hholder =>
    have hheld : Held { st with holder := some t } k := h
    exact hheld.goto (not_within hpc nofun) nofun nofun
  | advances => exact h.advance hlock hend
  -- an operation on the maps may remove the device, or register another one under its key
  | @maps t op disabled r hact hpc hholder hr =>
    rcases Registry.step_own hact hr k with heq | ⟨-, hnone | ⟨-, -, -, -, -, dev, hdev, hoff⟩⟩
    · have hdev : device { st with registry := r, runs := st.runsAfter r disabled } k =
          st.device k := heq
      exact h.keep (marked_congr hdev).mp id (fun _ => Iff.rfl) (runs_of_runsAfter heq)
    · apply held_of_not_marked
      rintro ⟨dev, hdev, -⟩
      exact absurd (hnone.symm.trans hdev) nofun
    · apply held_of_not_marked
      -- a device that has just been registered is not disabled
      rintro ⟨dev', hdev', hmark⟩
      obtain rfl := Option.some.inj (hdev.symm.trans hdev')
      exact absurd (hoff.symm.trans hmark) nofun
  | overflows => exact h.setRuns fun _ => rfl

/-! ### Devices that nobody starts again -/

/-- The input starts no other call on the device than `end_device`, and registers no other one
under its key. -/
def Keeps (k : ℕ × ℤ) : CounterInput → Prop
  | .getDevice t fd c => (t, fd) = k → c = .endDevice
  | .maps (.addNewDevice t _ _ ans) _ => (t, ans.perfEventOpen) ≠ k
  | _ => True

/-- The device is marked or gone, and only `end_device` is under way on it. -/
def Stays (st : Counters) (k : ℕ × ℤ) : Prop :=
  (st.device k = none ∨ st.Marked k) ∧ ∀ t c, (st.pc t).call? = some (c, k) → c = .endDevice

theorem Stays.goto (h : Stays st k) {pc : CounterPc}
    (hcall : ∀ c, pc.call? = some (c, k) → c = .endDevice) : Stays (st.goto t pc) k := by
  refine ⟨h.1, fun t' c hc => ?_⟩
  by_cases ht : t' = t
  · subst ht
    rw [pc_goto_self] at hc
    exact hcall c hc
  · rw [pc_goto_ne pc ht] at hc
    exact h.2 t' c hc

theorem Stays.keep (h : Stays st k) (hpc : st'.pc = st.pc) (hdev : st'.device k = st.device k) :
    Stays st' k := by
  unfold Stays
  rw [hpc, hdev, marked_congr hdev]
  exact h

theorem Stays.endDevice (h : Stays st k) (k' : ℕ × ℤ) :
    Stays (st.withDevice k' Device.endDevice) k := by
  by_cases hk : k = k'
  · subst hk
    refine ⟨?_, h.2⟩
    cases hdev : st.device k with
    | none => exact Or.inl ((device_withDevice_eq_none k _).mpr hdev)
    | some dev => exact Or.inr ⟨dev.endDevice, by rw [device_withDevice_self, hdev]; rfl, rfl⟩
  · exact h.keep rfl (device_withDevice_ne _ hk)

/-- A call other than `end_device` is about another device. -/
theorem Stays.ne (h : Stays st k) {k' : ℕ × ℤ} {c : PointerCall}
    (hpc : (st.pc t).call? = some (c, k')) (hc : c ≠ .endDevice) : k ≠ k' := by
  rintro rfl
  exact hc (h.2 t c hpc)

theorem Stays.advance (h : Stays st k) (t : ℕ) : Stays (st.advance t) k := by
  unfold Counters.advance
  cases hpc : st.pc t with
  | outside => exact h
  | holds c k' =>
    have hcall : (st.pc t).call? = some (c, k') := by rw [hpc]; rfl
    cases c with
    | startDevice =>
      -- `start_device` and a move are on other devices here
      have hk := h.ne hcall nofun
      refine (h.keep rfl (device_withDevice_ne _ hk) :
        Stays (st.withDevice k' Device.startDevice) k).goto ?_
      intro c hc
      exact absurd (Prod.mk.inj (Option.some.inj hc)).2.symm hk
    | endDevice =>
      -- `end_device` only marks
      refine (h.endDevice k').goto ?_
      intro c hc
      exact (Prod.mk.inj (Option.some.inj hc)).1.symm
    | updateBPAddress len bpType addr ans =>
      have hk := h.ne hcall nofun
      dsimp only
      split_ifs with hok
      · refine (h.keep rfl rfl : Stays (st.setRuns k' true) k).goto ?_
        intro c hc
        exact absurd (Prod.mk.inj (Option.some.inj hc)).2.symm hk
      · exact h.goto nofun
  | within c k' =>
    have hcall : (st.pc t).call? = some (c, k') := by rw [hpc]; rfl
    cases c with
    | startDevice => exact (h.keep rfl rfl : Stays (st.setRuns k' true) k).goto nofun
    | endDevice => exact (h.keep rfl rfl : Stays (st.setRuns k' false) k).goto nofun
    | updateBPAddress len bpType addr ans =>
      have hk := h.ne hcall nofun
      exact (h.keep rfl (device_withDevice_ne _ hk) : Stays (st.withDevice k' _) k).goto nofun
  | loop l todo =>
    -- a loop goes on, and marks nothing
    cases todo with
    | nil => exact (h.keep rfl rfl : Stays { st with holder := none } k).goto nofun
    | cons k' todo =>
      dsimp only
      split_ifs
      · exact h.goto nofun
      · exact h.goto nofun
  | chosen l k' todo => exact (h.keep rfl rfl : Stays (st.setRuns k' l.enables) k).goto nofun

theorem Stays.step (h : Stays st k) {i : CounterInput} (hkeep : Keeps k i)
    (hs : Counters.step getpid st i = .running () st') : Stays st' k := by
  cases step_cases hs with
  | waits => exact h
  | gets hpc hholder hdev =>
    refine h.goto fun c' hc => ?_
    obtain ⟨rfl, hk⟩ := Prod.mk.inj (Option.some.inj hc)
    exact hkeep hk
  | @enters t l hpc hholder =>
    have hstays : Stays { st with holder := some t } k := h
    exact hstays.goto nofun
  | advances => exact h.advance _
  | maps hact hpc hholder hr =>
    rcases Registry.step_own hact hr k with heq | ⟨-, hnone | ⟨dev, sId, ans, rfl, hk, -⟩⟩
    · exact h.keep rfl heq
    · exact ⟨Or.inl hnone, h.2⟩
    · exact absurd hk hkeep
  | overflows => exact h.keep rfl rfl

theorem Held.off (h : Held st k) (hended : st.Ended k) : st.runs k = false := by
  cases hr : st.runs k with
  | false => rfl
  | true =>
    obtain ⟨c, hc⟩ := (h hended.1).2.2 hr
    exact absurd hc (hended.2 c)

end Counters

end Kognizance
