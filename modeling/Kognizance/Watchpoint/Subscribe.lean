import Mathlib.Tactic.IntervalCases
import Kognizance.Watchpoint.SlotTable

/-!
# What `WP_Subscribe` promises

`wpSubscribe_truthful` says what the return value of `WP_Subscribe` means, in any
state and for any answers of the system.

* After 0, for a request with an event and a range below `2 ^ 64`, exactly one active
  slot watches the request, and of the other active slots none has changed, unless a
  breakpoint that was to be moved in place was not (`MoveFails`): `ArmWatchPoint` does
  not learn of that.
* After -1, for any request, the active slots watch what they watched before, except for one loss
  the design accepts (`VictimLost`): without in-place modification the victim
  gives up its debug register first, and is gone when no fresh device can be
  registered.

`lostVictim_not_atomic` shows the loss, a null event and a range that reaches
`2 ^ 64` in runs from a fresh state.
-/

namespace Kognizance

open Process

/-- What a slot watches. -/
def WPRegisterInfo.watch (wpi : WPRegisterInfo) : UInt64 × ℤ × Option Event :=
  (wpi.va, wpi.wpLength, wpi.sampledEvent)

/-- What a request asks to watch. -/
def Request.watch (r : Request) : UInt64 × ℤ × Option Event :=
  (r.va, r.watchLength, r.sampleEvent)

/-- What the active slots of a table watch, one slot left out. -/
def watchesBut (maxWP : ℕ) (slots : Slots) (out : Option ℕ) :
    Set (UInt64 × ℤ × Option Event) :=
  {x | ∃ j, j < maxWP ∧ some j ≠ out ∧ (slots j).isActive = true ∧ x = (slots j).watch}

section

variable {L : Type}

/-- What the active slots of a thread watch. -/
def activeWatches (T : Tool L) (w : World L) (tid : ℕ) : Set (UInt64 × ℤ × Option Event) :=
  {x | ∃ td, w.tData tid = some td ∧ x ∈ watchesBut T.cfg.maxWP td.watchPointArray none}

/-- The victim's breakpoint is to be moved in place, and its device is not found or
cannot be updated. -/
def MoveFails (T : Tool L) (w : World L) (tid : ℕ) (ans : SubscribeAnswers) : Prop :=
  ∃ td i, w.tData tid = some td ∧ (victimOf T td ans).location = some i ∧
    T.cfg.isWPModifyEnabled = true ∧ (td.watchPointArray i).fileHandle ≠ -1 ∧
    (w.platform.getDevice (td.watchPointArray i).threadId (td.watchPointArray i).fileHandle
        = none ∨
      (ans.arm.update.agentOk || ans.arm.update.ioctlOk) = false)

/-- Exactly one active slot watches the request, and of the others the active ones
are as they were. -/
def ArmedExactly (T : Tool L) (w w' : World L) (tid : ℕ) (r : Request) : Prop :=
  ∃ td td' i, w.tData tid = some td ∧ w'.tData tid = some td' ∧
    (∀ j, (j < T.cfg.maxWP ∧ (td'.watchPointArray j).isActive = true ∧
      (td'.watchPointArray j).watch = r.watch) ↔ j = i) ∧
    ∀ j, j < T.cfg.maxWP → j ≠ i → (td.watchPointArray j).isActive = true →
      (td'.watchPointArray j).isActive = true ∧
        (td'.watchPointArray j).watch = (td.watchPointArray j).watch

/-- The active victim was disarmed for a device that could not be registered; the
other slots watch what they watched. -/
def VictimLost (T : Tool L) (w w' : World L) (tid : ℕ) (r : Request) (ans : SubscribeAnswers) :
    Prop :=
  T.cfg.isWPModifyEnabled = false ∧
    (∃ p dev, Platform.registerDevice p tid
      (BPDevice r.watchLength (hwBreakpointType r.watchType) r.va) (p.sessionKey tid)
      ans.arm.register = .ok (-1, dev, w'.platform)) ∧
    ∃ td i, w.tData tid = some td ∧ (victimOf T td ans).location = some i ∧
      (td.watchPointArray i).isActive = true ∧
      activeWatches T w' tid = watchesBut T.cfg.maxWP td.watchPointArray (some i)

end

/-! ### Tables -/

theorem WPRegisterInfo.Alike.watch_eq {a b : WPRegisterInfo} (h : a.Alike b) :
    b.watch = a.watch := by
  rw [h]
  rfl

theorem watchesBut_congr {maxWP : ℕ} {slots slots' : Slots} {out : Option ℕ}
    (h : ∀ j, some j ≠ out → (slots j).Alike (slots' j)) :
    watchesBut maxWP slots' out = watchesBut maxWP slots out := by
  ext x
  constructor
  · rintro ⟨j, hj, hout, hact, rfl⟩
    have hal := h j hout
    exact ⟨j, hj, hout, hal.isActive_eq ▸ hact, hal.watch_eq⟩
  · rintro ⟨j, hj, hout, hact, rfl⟩
    have hal := h j hout
    exact ⟨j, hj, hout, hal.isActive_eq.trans hact, hal.watch_eq.symm⟩

/-- Leaving out an inactive slot leaves out nothing. -/
theorem watchesBut_inactive {maxWP : ℕ} {slots : Slots} {i : ℕ}
    (hi : (slots i).isActive = false) :
    watchesBut maxWP slots none = watchesBut maxWP slots (some i) := by
  ext x
  constructor
  · rintro ⟨j, hj, -, hact, rfl⟩
    refine ⟨j, hj, fun hji => ?_, hact, rfl⟩
    obtain rfl := Option.some.inj hji
    rw [hi] at hact
    cases hact
  · rintro ⟨j, hj, -, hact, rfl⟩
    exact ⟨j, hj, nofun, hact, rfl⟩

theorem activeWatches_eq {L : Type} {T : Tool L} {w : World L} {tid : ℕ} {td : WPThreadData}
    (h : w.tData tid = some td) :
    activeWatches T w tid = watchesBut T.cfg.maxWP td.watchPointArray none := by
  ext x
  constructor
  · rintro ⟨td', htd', hx⟩
    obtain rfl := Option.some.inj (h.symm.trans htd')
    exact hx
  · exact fun hx => ⟨td, h, hx⟩

/-- The slots of the table `WP_Subscribe` leaves, up to survival counters: the
victim's is what `ArmWatchPoint` made of it. -/
theorem alike_update {td : WPThreadData} {v : Victim} {i : ℕ} (wpi : WPRegisterInfo)
    (hv : ∀ j, (td.watchPointArray j).Alike (v.slots j)) {j : ℕ} (hj : some j ≠ some i) :
    (td.watchPointArray j).Alike (Function.update v.slots i wpi j) := by
  rw [Function.update_of_ne fun h => hj (congrArg some h)]
  exact hv j

/-! ### The two return values -/

section

variable {L : Type} {T : Tool L} {w : World L} {tid : ℕ} {r : Request} {ans : SubscribeAnswers}

/-- A slot that was armed is the only one that watches the request: any other slot
that did would have failed the overlap test. -/
theorem armedExactly_of_reachedEnd {w' : World L} {td : WPThreadData} {i : ℕ} {c : Created}
    (hr : r.WellFormed) (htd : w.tData tid = some td)
    (htd' : w'.tData tid = some { td with
      watchPointArray := Function.update (victimOf T td ans).slots i c.wpi })
    (hover : isOveralpped T.cfg.maxWP (some td) r.va r.watchLength = false)
    (hi : i < T.cfg.maxWP) (hact : c.wpi.isActive = true) (hva : c.wpi.va = r.va)
    (hlen : c.wpi.wpLength = r.watchLength) (hsup : SupportedLength r.watchLength)
    (hev : ∀ e, r.sampleEvent = some e → c.wpi.sampledEvent = some e) :
    ArmedExactly T w w' tid r := by
  have halike := victimOf_alike T td ans
  refine ⟨td, _, i, htd, htd', fun j => ⟨fun hj => ?_, ?_⟩, fun j hj hji hja => ?_⟩
  · -- another slot that watched the range would overlap it
    by_contra hji
    obtain ⟨hjlt, hja, hjw⟩ := hj
    have hal := alike_update c.wpi halike fun h => hji (Option.some.inj h)
    rw [hal.isActive_eq] at hja
    rw [hal.watch_eq] at hjw
    obtain ⟨hjva, hrest⟩ := Prod.mk.inj hjw
    obtain ⟨hjlen, -⟩ := Prod.mk.inj hrest
    have hno := not_overlap_of_isOveralpped hover hjlt hja
    rw [hjva, hjlen, addressesOverlap_self (by unfold SupportedLength at hsup; omega) hr.2] at hno
    cases hno
  · rintro rfl
    obtain ⟨e, he⟩ := Option.ne_none_iff_exists'.mp hr.1
    simp only [Function.update_self]
    refine ⟨hi, hact, ?_⟩
    rw [WPRegisterInfo.watch, Request.watch, hva, hlen, hev e he, he]
  · have hal := alike_update c.wpi halike fun h => hji (Option.some.inj h)
    exact ⟨hal.isActive_eq.trans hja, hal.watch_eq⟩

/-- A call that finds no device for its breakpoint loses at most the victim it has
taken the debug register from. -/
theorem lost_of_notOpened {w' : World L} {td : WPThreadData} {i : ℕ} {wpi' : WPRegisterInfo}
    {p' : Platform} {dev : Device} (htd : w.tData tid = some td)
    (htd' : w'.tData tid = some { td with
      watchPointArray := Function.update (victimOf T td ans).slots i
        { wpi' with fileHandle := -1 } })
    (hloc : (victimOf T td ans).location = some i)
    (hmod : ¬ (T.cfg.isWPModifyEnabled = true ∧
      ((victimOf T td ans).slots i).fileHandle ≠ -1))
    (hfree : FreedFor tid ((victimOf T td ans).slots i) w.platform ans.arm.remove wpi' p')
    (hreg : p'.registerDevice tid (BPDevice r.watchLength (hwBreakpointType r.watchType) r.va)
      (p'.sessionKey tid) ans.arm.register = .ok (-1, dev, w'.platform)) :
    activeWatches T w' tid = activeWatches T w tid ∨ VictimLost T w w' tid r ans := by
  have halike := victimOf_alike T td ans
  have hoff := hfree.off
  -- what is watched afterwards is what was, but for the victim
  have hafter : watchesBut T.cfg.maxWP (Function.update (victimOf T td ans).slots i
      { wpi' with fileHandle := -1 }) none
      = watchesBut T.cfg.maxWP td.watchPointArray (some i) := by
    rw [watchesBut_inactive (i := i) (by rw [Function.update_self]; exact hoff)]
    exact watchesBut_congr fun j hj => alike_update _ halike hj
  rw [activeWatches_eq htd', activeWatches_eq htd, hafter]
  cases hvict : (td.watchPointArray i).isActive with
  | false => exact Or.inl (watchesBut_inactive hvict).symm
  | true =>
    refine Or.inr ⟨?_, ⟨p', dev, hreg⟩, td, i, htd, hloc, hvict, ?_⟩
    · -- with in-place modification an active victim keeps its device
      by_contra hm
      rw [Bool.not_eq_false] at hm
      rcases hfree with ⟨hoff', -, -⟩ | ⟨-, hdis⟩
      · rw [(halike i).isActive_eq, hvict] at hoff'
        cases hoff'
      · exact hmod ⟨hm, (disArm_cases hdis).1⟩
    · rw [activeWatches_eq htd', hafter]

/-- **What the return value of `WP_Subscribe` means.** -/
theorem wpSubscribe_truthful (T : Tool L) (w w' : World L) (tid : ℕ) (r : Request)
    (ans : SubscribeAnswers) (ret : ℤ) (hs : wpSubscribe T w tid r ans = .running ret w') :
    (ret = 0 → r.WellFormed → ¬ MoveFails T w tid ans → ArmedExactly T w w' tid r) ∧
    (ret = -1 → activeWatches T w' tid = activeWatches T w tid ∨
      VictimLost T w w' tid r ans) := by
  cases wpSubscribe_cases hs with
  | refused => exact ⟨nofun, fun _ => Or.inl rfl⟩
  | noVictim td htd =>
    refine ⟨nofun, fun _ => Or.inl ?_⟩
    rw [activeWatches_eq htd, activeWatches_eq (Function.update_self tid _ w.tData)]
    exact watchesBut_congr fun j _ => victimOf_alike T td ans j
  | tried td i ok c htd hvalid hover hloc harm =>
    have halike := victimOf_alike T td ans
    have htd' := Function.update_self tid (some { td with
      watchPointArray := Function.update (victimOf T td ans).slots i c.wpi }) w.tData
    rcases harm.slot with ⟨hend, hact, hva, hlen, -, hsup, hev⟩ | ⟨hend, -⟩
    · refine ⟨fun _ hr _ => armedExactly_of_reachedEnd hr htd htd' hover (getVictim_lt hloc) hact
        hva hlen hsup hev, fun hret => ?_⟩
      -- only a call that returns 0 arms a slot
      cases harm with
      | moved => cases hret
      | opened => cases hret
      | missing => cases hend
      | notMoved => cases hend
      | notOpened => cases hend
    · cases harm with
      | moved => cases hend
      | missing hmod hfd hdev =>
        refine ⟨fun _ _ hmove => absurd ⟨td, i, htd, hloc, hmod, ?_, Or.inl ?_⟩ hmove, nofun⟩
        · rw [halike i] at hfd
          exact hfd
        · rw [halike i] at hdev
          exact hdev
      | notMoved dev hmod hfd hdev hupd =>
        refine ⟨fun _ _ hmove => absurd ⟨td, i, htd, hloc, hmod, ?_, Or.inr hupd⟩ hmove, nofun⟩
        rw [halike i] at hfd
        exact hfd
      | opened => cases hend
      | notOpened wpi' p' p'' dev hmod hfree hreg hmap hfds =>
        exact ⟨nofun, fun _ => lost_of_notOpened htd htd' hloc hmod hfree hreg⟩

end

/-! ### Three runs -/

/-- Thread 1 after `WP_ThreadInit` and one subscription. -/
def armedOnce (T : Tool Unit) (memory : Option Event) (r : Request) : World Unit :=
  (exec (step T) (World.fresh .idle ())
    [.threadInit 1 (.success memory), .subscribe 1 r (.success 3)]).state

/-- A second subscription moves the breakpoint of the only slot. -/
theorem wpSubscribe_truthful_moved :
    let T := Tool.always true 1 .disable
    let w := armedOnce T none (.storeAt 1 0x1000)
    ArmedExactly T w (wpSubscribe T w 1 (.storeAt 2 0x2000) (.success 4)).state 1
      (.storeAt 2 0x2000) := by
  intro T w
  have hrun : (wpSubscribe T w 1 (.storeAt 2 0x2000) (.success 4)).value = some 0 := by
    decide +kernel
  refine (wpSubscribe_truthful T w _ 1 (.storeAt 2 0x2000) (.success 4) 0
    (Outcome.eq_running hrun)).1 rfl ⟨nofun, by decide⟩ ?_
  rintro ⟨td, i, htd, hloc, -, -, hdev | hupd⟩
  · obtain rfl := Option.some.inj htd
    have hi : (victimOf T ((w.tData 1).get rfl) (.success 4)).location = some 0 := by
      decide +kernel
    obtain rfl := Option.some.inj (hi.symm.trans hloc)
    cases hdev
  · cases hupd

/-- The active slots of thread 1, as a list. -/
def activeList (maxWP : ℕ) (w : World Unit) : List (ℕ × UInt64) :=
  match w.tData 1 with
  | none => []
  | some td => ((List.range maxWP).filter fun j => (td.watchPointArray j).isActive).map fun j =>
      (j, (td.watchPointArray j).va)

theorem activeWatches_eq_empty {T : Tool Unit} {w : World Unit}
    (h : activeList T.cfg.maxWP w = []) : activeWatches T w 1 = ∅ := by
  rw [Set.eq_empty_iff_forall_notMem]
  rintro x ⟨td, htd, j, hj, -, hact, -⟩
  simp only [activeList, htd, List.map_eq_nil_iff, List.filter_eq_nil_iff] at h
  exact h j (List.mem_range.mpr hj) hact

/-- **A failed replacement loses the victim, a null event is not stored, and a
range that reaches `2 ^ 64` can be watched twice.** -/
theorem lostVictim_not_atomic :
    (let T := Tool.always false 1 .disable
      let w := armedOnce T none (.storeAt 1 0x1000)
      ∃ w', wpSubscribe T w 1 (.storeAt 2 0x2000) (.success (-1)) = .running (-1) w' ∧
        activeWatches T w' 1 ≠ activeWatches T w 1) ∧
    (let T := Tool.always true 1 .disable
      let r : Request := { Request.storeAt 1 0x1000 with sampleEvent := none }
      r.watch ∉ activeWatches T (armedOnce T (some (.storeAt 9 0)) r) 1) ∧
    (let T := Tool.always true 2 .disable
      let r := Request.storeAt 1 0xFFFFFFFFFFFFFFF8
      ∃ w' td, wpSubscribe T (armedOnce T none r) 1 r (.success 4) = .running 0 w' ∧
        w'.tData 1 = some td ∧ ∀ j, j < 2 →
          (td.watchPointArray j).isActive = true ∧ (td.watchPointArray j).watch = r.watch) := by
  refine ⟨?_, fun h => ?_, _, _, rfl, rfl, fun j hj => ?_⟩
  · -- the victim has been disarmed when the registration fails
    intro T w
    have hrun : (wpSubscribe T w 1 (.storeAt 2 0x2000) (.success (-1))).value = some (-1) := by
      decide +kernel
    have hafter : activeList 1
        (wpSubscribe T w 1 (.storeAt 2 0x2000) (.success (-1))).state = [] := by
      decide +kernel
    refine ⟨_, Outcome.eq_running hrun, fun h => ?_⟩
    have hbefore : (Request.storeAt 1 0x1000).watch ∈ activeWatches T w 1 :=
      ⟨_, rfl, 0, Nat.one_pos, nofun, rfl, rfl⟩
    rw [← h, activeWatches_eq_empty hafter] at hbefore
    exact hbefore
  · -- the slot is armed, and keeps the null event it was made with
    obtain ⟨td, htd, j, hj, -, -, hwatch⟩ := h
    obtain rfl := Option.some.inj htd
    obtain rfl : j = 0 := Nat.lt_one_iff.mp hj
    cases (Prod.mk.inj (Prod.mk.inj hwatch).2).2
  · -- the end addresses are both 0, so the overlap test sees no overlap
    interval_cases j
    · exact ⟨rfl, rfl⟩
    · exact ⟨rfl, rfl⟩

end Kognizance
