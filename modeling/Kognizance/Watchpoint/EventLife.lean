import Kognizance.Watchpoint.SlotTable

/-!
# The life of a sampled event

`OnWatchPoint` deletes the event of the slot that fired and leaves the pointer in
the slot. It follows the pointers of active slots only, with two exceptions: the
message before the search follows slot 0's, and the report about a trigger that
matches no slot follows every slot's.

* `Sound` reads the ghost record: every pointer followed was stored in that slot
  by a subscription and its event had not been deleted, and no event was deleted
  twice.
* `sound_of_run`: the record of a run is sound when every event handed over is a
  new object (`HandsOver`) and the two unguarded reads find slots whose last
  subscription is still alive (`ReadsLive`). Everything the search, the callback
  and the cleanup do is sound by the invariant `EventInv`.
* `deref_after_delete` is a run of two subscriptions and two triggers whose
  second trigger reads the event the first one deleted.
-/

namespace Kognizance

open Process

/-! ### The record -/

/-- The object of `e` has been deleted. -/
def Deleted (effects : List Effect) (e : Event) : Prop :=
  ∃ d, Effect.delete d ∈ effects ∧ d.self = e.self

/-- A subscription stored `e` in slot `i` of a thread. -/
def Stored (effects : List Effect) (tid i : ℕ) (e : Event) : Prop :=
  ∃ r, Effect.arm tid i r ∈ effects ∧ r.sampleEvent = some e

/-- The pointer `ev` of slot `i` leads to an event that was stored there and is
not deleted. -/
def Live (effects : List Effect) (tid i : ℕ) (ev : Option Event) : Prop :=
  ∃ e, ev = some e ∧ Stored effects tid i e ∧ ¬ Deleted effects e

/-- Every pointer followed was live, and no event was deleted twice. -/
def Sound : List Effect → Prop
  | [] => True
  | .deref tid i ev :: es => Live es tid i ev ∧ Sound es
  | .delete e :: es => ¬ Deleted es e ∧ Sound es
  | .arm _ _ _ :: es => Sound es
  | .threadInit _ :: es => Sound es

/-- Entries that follow pointers only. -/
def OnlyDerefs (es : List Effect) : Prop := ∀ x ∈ es, ∃ tid i ev, x = .deref tid i ev

theorem deleted_append_derefs {es effects : List Effect} (hes : OnlyDerefs es) {e : Event} :
    Deleted (es ++ effects) e ↔ Deleted effects e := by
  constructor
  · rintro ⟨d, hd, hself⟩
    rcases List.mem_append.mp hd with hd | hd
    · obtain ⟨tid, i, ev, hx⟩ := hes _ hd
      cases hx
    · exact ⟨d, hd, hself⟩
  · rintro ⟨d, hd, hself⟩
    exact ⟨d, List.mem_append_right es hd, hself⟩

theorem Live.append_derefs {es effects : List Effect} {tid i : ℕ} {ev : Option Event}
    (h : Live effects tid i ev) (hes : OnlyDerefs es) : Live (es ++ effects) tid i ev := by
  obtain ⟨e, hev, ⟨r, hr, hre⟩, hdel⟩ := h
  exact ⟨e, hev, ⟨r, List.mem_append_right es hr, hre⟩,
    fun hd => hdel ((deleted_append_derefs hes).mp hd)⟩

/-- Following live pointers is sound. -/
theorem Sound.append_derefs {es effects : List Effect} (h : Sound effects)
    (hes : ∀ x ∈ es, ∃ tid i ev, x = .deref tid i ev ∧ Live effects tid i ev) :
    Sound (es ++ effects) := by
  induction es with
  | nil => exact h
  | cons x es ih =>
    have hrest : ∀ y ∈ es, ∃ tid i ev, y = .deref tid i ev ∧ Live effects tid i ev :=
      fun y hy => hes y (List.mem_cons_of_mem x hy)
    obtain ⟨tid, i, ev, rfl, hlive⟩ := hes x List.mem_cons_self
    refine ⟨hlive.append_derefs fun y hy => ?_, ih hrest⟩
    obtain ⟨t, j, ev', hy, -⟩ := hrest y hy
    exact ⟨t, j, ev', hy⟩

/-- The last subscription of a slot stored `e`, and `e` is not deleted. -/
def LastLive (effects : List Effect) (tid i : ℕ) (e : Event) : Prop :=
  ∃ r, lastArm tid i effects = some r ∧ r.sampleEvent = some e ∧ ¬ Deleted effects e

theorem mem_of_lastArm {tid i : ℕ} {effects : List Effect} {r : Request}
    (h : lastArm tid i effects = some r) : Effect.arm tid i r ∈ effects := by
  induction effects with
  | nil => cases h
  | cons x effects ih =>
    -- the last effect is the first of the list; only an arming of the slot is the one looked for
    cases x with
    | threadInit t =>
      unfold lastArm at h
      split at h
      · cases h
      · exact List.mem_cons_of_mem _ (ih h)
    | arm t j r' =>
      unfold lastArm at h
      split at h
      · next hc =>
        obtain ⟨rfl, rfl⟩ := hc
        obtain rfl := Option.some.inj h
        exact List.mem_cons_self
      · exact List.mem_cons_of_mem _ (ih h)
    | deref t j ev => exact List.mem_cons_of_mem _ (ih h)
    | delete e => exact List.mem_cons_of_mem _ (ih h)

/-! ### What a slot keeps -/

/-- `b` has the event and the thread of `a`. -/
def WPRegisterInfo.Kept (a b : WPRegisterInfo) : Prop :=
  b.sampledEvent = a.sampledEvent ∧ b.threadId = a.threadId

namespace WPRegisterInfo.Kept

theorem refl (a : WPRegisterInfo) : a.Kept a := ⟨rfl, rfl⟩

theorem trans {a b c : WPRegisterInfo} (hab : a.Kept b) (hbc : b.Kept c) : a.Kept c :=
  ⟨hbc.1.trans hab.1, hbc.2.trans hab.2⟩

theorem of_alike {a b : WPRegisterInfo} (h : a.Alike b) : a.Kept b := by
  rw [h]
  exact ⟨rfl, rfl⟩

end WPRegisterInfo.Kept

theorem Disabled.kept {cfg : WPConfig} {tid : ℕ} {wpi wpi' : WPRegisterInfo} {p p' : Platform}
    {ans : RemoveAnswers} (h : Disabled cfg tid wpi p ans wpi' p') : wpi.Kept wpi' := by
  cases h <;> exact ⟨rfl, rfl⟩

theorem FreedFor.kept {tid : ℕ} {wpi wpi' : WPRegisterInfo} {p p' : Platform}
    {ans : RemoveAnswers} (h : FreedFor tid wpi p ans wpi' p') : wpi.Kept wpi' := by
  rcases h with ⟨-, rfl, -⟩ | ⟨-, hdis⟩
  · exact .refl _
  · obtain ⟨-, rfl, -⟩ := disArm_cases hdis
    exact ⟨rfl, rfl⟩

/-- A slot that was not armed keeps its event, and an armed one its thread. -/
theorem Armed.kept {cfg : WPConfig} {tid : ℕ} {wpi : WPRegisterInfo} {r : Request}
    {p : Platform} {ans : ArmAnswers} {ok : Bool} {c : Created}
    (h : Armed cfg tid wpi r p ans ok c) :
    c.wpi.threadId = wpi.threadId ∧
      (c.reachedEnd = false → c.wpi.sampledEvent = wpi.sampledEvent) := by
  cases h with
  | moved => exact ⟨rfl, nofun⟩
  | missing => exact ⟨rfl, fun _ => rfl⟩
  | notMoved => exact ⟨rfl, fun _ => rfl⟩
  | opened wpi' p' p'' hmod hlen hfree hreg => exact ⟨hfree.kept.2, nofun⟩
  | notOpened wpi' p' p'' dev hmod hfree hreg hmap hfds =>
    exact ⟨hfree.kept.2, fun _ => hfree.kept.1⟩

/-! ### Devices are found -/

/-- The platform has a device under this key. -/
def Platform.Has (p : Platform) (t : ℕ) (fd : ℤ) : Prop := p.getDevice t fd ≠ none

theorem Platform.Has.setDevice {p : Platform} {t : ℕ} {fd : ℤ} (h : p.Has t fd) (t' : ℕ)
    (fd' : ℤ) (dev : Device) : (p.setDevice t' fd' dev).Has t fd := by
  by_cases hk : (t, fd) = (t', fd')
  · obtain ⟨rfl, rfl⟩ := Prod.mk.inj hk
    unfold Platform.Has
    rw [Platform.getDevice_setDevice]
    exact Option.some_ne_none dev
  · unfold Platform.Has
    rw [Platform.getDevice_setDevice_ne p t' fd' dev hk]
    exact h

/-- An active slot of the thread has a handle and, with in-place modification, a
device. -/
def SlotReady (cfg : WPConfig) (p : Platform) (wpi : WPRegisterInfo) : Prop :=
  wpi.isActive = true → wpi.fileHandle ≠ -1 ∧
    (cfg.isWPModifyEnabled = true → p.Has wpi.threadId wpi.fileHandle)

theorem slotReady_of_inactive {cfg : WPConfig} {p : Platform} {wpi : WPRegisterInfo}
    (h : wpi.isActive = false) : SlotReady cfg p wpi := by
  intro hact
  rw [h] at hact
  cases hact

theorem SlotReady.mono {cfg : WPConfig} {p p' : Platform} {a b : WPRegisterInfo}
    (h : SlotReady cfg p a) (hab : a.Alike b)
    (hp : cfg.isWPModifyEnabled = true → ∀ t fd, p.Has t fd → p'.Has t fd) :
    SlotReady cfg p' b := by
  rw [hab]
  intro hact
  exact ⟨(h hact).1, fun hmod => hp hmod _ _ ((h hact).2 hmod)⟩

theorem Disabled.has {cfg : WPConfig} {tid : ℕ} {wpi wpi' : WPRegisterInfo} {p p' : Platform}
    {ans : RemoveAnswers} (h : Disabled cfg tid wpi p ans wpi' p')
    (hmod : cfg.isWPModifyEnabled = true) {t : ℕ} {fd : ℤ} (hp : p.Has t fd) : p'.Has t fd := by
  cases h with
  | idle => exact hp
  | missing => exact hp
  | stopped dev => exact hp.setDevice _ _ _
  | removed p' hact hno => exact absurd hmod hno

/-- A disabled slot is off when its device is found. -/
theorem Disabled.off {cfg : WPConfig} {tid : ℕ} {wpi wpi' : WPRegisterInfo} {p p' : Platform}
    {ans : RemoveAnswers} (h : Disabled cfg tid wpi p ans wpi' p')
    (hready : SlotReady cfg p wpi) : wpi'.isActive = false := by
  cases h with
  | idle hact => exact hact
  | missing hact hmod hdev => exact absurd hdev ((hready hact).2 hmod)
  | stopped => rfl
  | removed => rfl

/-- With in-place modification, arming takes no device out of the map. -/
theorem Armed.has {cfg : WPConfig} {tid : ℕ} {wpi : WPRegisterInfo} {r : Request}
    {p : Platform} {ans : ArmAnswers} {ok : Bool} {c : Created}
    (h : Armed cfg tid wpi r p ans ok c) (hmod : cfg.isWPModifyEnabled = true) {t : ℕ} {fd : ℤ}
    (hp : p.Has t fd) : c.platform.Has t fd := by
  -- a slot without a handle has nothing to disarm
  have hfree : ∀ {wpi' p'}, ¬ (cfg.isWPModifyEnabled = true ∧ wpi.fileHandle ≠ -1) →
      FreedFor tid wpi p ans.remove wpi' p' → p' = p := by
    rintro wpi' p' hno (⟨-, -, rfl⟩ | ⟨-, hdis⟩)
    · rfl
    · exact absurd ⟨hmod, (disArm_cases hdis).1⟩ hno
  cases h with
  | moved => exact hp.setDevice _ _ _
  | missing => exact hp
  | notMoved => exact hp.setDevice _ _ _
  | opened wpi' p' p'' hno hlen hf hreg =>
    obtain rfl := hfree hno hf
    unfold Platform.Has
    by_cases hk : (t, fd) = (tid, ans.register.perfEventOpen)
    · obtain ⟨rfl, rfl⟩ := Prod.mk.inj hk
      rw [hreg.getDevice_self]
      exact Option.some_ne_none _
    · rw [hreg.getDevice_ne hk]
      exact hp
  | notOpened wpi' p' p'' dev hno hf hreg hmap hfds =>
    obtain rfl := hfree hno hf
    unfold Platform.Has Platform.getDevice
    rw [hmap]
    exact hp

/-- The slot `ArmWatchPoint` leaves is ready when the one it got was, and belongs
to the thread. -/
theorem Armed.ready {cfg : WPConfig} {tid : ℕ} {wpi : WPRegisterInfo} {r : Request}
    {p : Platform} {ans : ArmAnswers} {ok : Bool} {c : Created}
    (h : Armed cfg tid wpi r p ans ok c) (htid : wpi.threadId = tid)
    (hready : SlotReady cfg p wpi) : SlotReady cfg c.platform c.wpi := by
  cases h with
  -- the device was updated in place, so it is in the map
  | moved dev hmod hfd hlen hdev hupd =>
    refine fun _ => ⟨hfd, fun _ => ?_⟩
    have hhas : p.Has wpi.threadId wpi.fileHandle := by
      unfold Platform.Has
      rw [hdev]
      exact Option.some_ne_none dev
    exact hhas.setDevice _ _ _
  | missing => exact hready
  | notMoved => exact slotReady_of_inactive rfl
  -- the device has just been entered, under the slot's own thread
  | opened wpi' p' p'' hno hlen hf hreg =>
    refine fun _ => ⟨hreg.fd_ne, fun _ => ?_⟩
    change p''.Has wpi'.threadId ans.register.perfEventOpen
    unfold Platform.Has
    rw [hf.kept.2, htid, hreg.getDevice_self]
    exact Option.some_ne_none _
  | notOpened wpi' p' p'' dev hno hf hreg hmap hfds =>
    exact slotReady_of_inactive hf.off

/-! ### The invariant -/

section

variable {L : Type} {T : Tool L}

/-- The record mentions the object of `e`: it was handed over before. -/
def Effect.Mentions (e : Event) : Effect → Prop
  | .arm _ _ r => ∃ e', r.sampleEvent = some e' ∧ e'.self = e.self
  | .delete d => d.self = e.self
  | .deref _ _ _ => False
  | .threadInit _ => False

/-- `e` is a new object. -/
def NewObject (effects : List Effect) (e : Event) : Prop := ∀ x ∈ effects, ¬ x.Mentions e

theorem NewObject.not_deleted {effects : List Effect} {e : Event} (h : NewObject effects e) :
    ¬ Deleted effects e := fun ⟨_, hd, hself⟩ => h _ hd hself

theorem NewObject.self_ne {effects : List Effect} {e e' : Event} {tid i : ℕ}
    (h : NewObject effects e) (hs : LastLive effects tid i e') : e'.self ≠ e.self := by
  obtain ⟨r, hr, hre, -⟩ := hs
  exact fun hself => h _ (mem_of_lastArm hr) ⟨e', hre, hself⟩

/-- An active slot and its event. -/
def ActiveHolds (T : Tool L) (w : World L) (t i : ℕ) (e : Event) : Prop :=
  ∃ td, w.tData t = some td ∧ i < T.cfg.maxWP ∧ (td.watchPointArray i).isActive = true ∧
    (td.watchPointArray i).sampledEvent = some e

/-- Slots keep the event of their last subscription; an active slot has a device,
its event is not deleted, and no other active slot has the same one. -/
structure EventInv (T : Tool L) (w : World L) : Prop where
  thread : ∀ t td i, w.tData t = some td → i < T.cfg.maxWP →
    (td.watchPointArray i).threadId = t
  ready : ∀ t td i, w.tData t = some td → i < T.cfg.maxWP →
    SlotReady T.cfg w.platform (td.watchPointArray i)
  held : ∀ t td i r, w.tData t = some td → i < T.cfg.maxWP → lastArm t i w.effects = some r →
    (td.watchPointArray i).sampledEvent = r.sampleEvent
  live : ∀ t td i, w.tData t = some td → i < T.cfg.maxWP →
    (td.watchPointArray i).isActive = true → ∃ e, LastLive w.effects t i e
  distinct : ∀ t t' i j e e', ActiveHolds T w t i e → ActiveHolds T w t' j e' →
    e.self = e'.self → t = t' ∧ i = j

theorem EventInv.fresh (p : Platform) (logic : L) : EventInv T (World.fresh p logic) where
  thread := fun _ _ _ h => nomatch h
  ready := fun _ _ _ h => nomatch h
  held := fun _ _ _ _ h => nomatch h
  live := fun _ _ _ h => nomatch h
  distinct := fun _ _ _ _ _ _ h => by
    obtain ⟨td, htd, -⟩ := h
    cases htd

/-- The event of an active slot is the live one of its last subscription. -/
theorem EventInv.lastLive {w : World L} (h : EventInv T w) {t i : ℕ} {e : Event}
    (ha : ActiveHolds T w t i e) : LastLive w.effects t i e := by
  obtain ⟨td, htd, hi, hact, he⟩ := ha
  obtain ⟨e', r, hr, hre, hdel⟩ := h.live t td i htd hi hact
  have hheld := h.held t td i r htd hi hr
  rw [hre, he] at hheld
  obtain rfl := Option.some.inj hheld
  exact ⟨r, hr, hre, hdel⟩

/-- What a call makes of slot `i` of thread `t`: it is kept and perhaps lowered, it
belongs to a fresh table, or it is armed with a new object. -/
inductive SlotFate (w w' : World L) (t i : ℕ) (b : WPRegisterInfo)
    (armed : Option (ℕ × ℕ × Event)) : Prop
  | kept (td : WPThreadData) (htd : w.tData t = some td)
      (hkept : (td.watchPointArray i).Kept b) (hlow : (td.watchPointArray i).Lowered b)
      (hlast : lastArm t i w'.effects = lastArm t i w.effects)
  | fresh (hoff : b.isActive = false) (hlast : lastArm t i w'.effects = none)
  | armed (r : Request) (e : Event) (hself : armed = some (t, i, e))
      (hlast : lastArm t i w'.effects = some r) (hr : r.sampleEvent = some e)
      (he : b.sampledEvent = some e) (hnew : NewObject w.effects e)

/-- A slot of which a call changes at most the survival counter. -/
theorem EventInv.carried {w w' : World L} (h : EventInv T w) {t i : ℕ} {td : WPThreadData}
    {b : WPRegisterInfo} {armed : Option (ℕ × ℕ × Event)} (htd : w.tData t = some td)
    (hi : i < T.cfg.maxWP) (hb : (td.watchPointArray i).Alike b)
    (hhas : T.cfg.isWPModifyEnabled = true →
      ∀ t fd, w.platform.Has t fd → w'.platform.Has t fd)
    (hlast : lastArm t i w'.effects = lastArm t i w.effects) :
    b.threadId = t ∧ SlotReady T.cfg w'.platform b ∧ SlotFate w w' t i b armed := by
  have hkept : (td.watchPointArray i).Kept b := .of_alike hb
  exact ⟨hkept.2.trans (h.thread t td i htd hi), (h.ready t td i htd hi).mono hb hhas,
    .kept td htd hkept hb.lowered hlast⟩

/-- The invariant survives a call that deletes no event of a slot it leaves
active. -/
theorem EventInv.evolve {w w' : World L} (h : EventInv T w) (armed : Option (ℕ × ℕ × Event))
    (hfate : ∀ t td i, w'.tData t = some td → i < T.cfg.maxWP →
      (td.watchPointArray i).threadId = t ∧ SlotReady T.cfg w'.platform (td.watchPointArray i) ∧
        SlotFate w w' t i (td.watchPointArray i) armed)
    (hdel : ∀ t i e, ActiveHolds T w' t i e → Deleted w'.effects e → Deleted w.effects e) :
    EventInv T w' := by
  -- an active slot was active before with the same event, or is the armed one
  have hactive : ∀ t i e, ActiveHolds T w' t i e →
      (ActiveHolds T w t i e ∧ lastArm t i w'.effects = lastArm t i w.effects) ∨
        (armed = some (t, i, e) ∧ NewObject w.effects e ∧
          ∃ r, lastArm t i w'.effects = some r ∧ r.sampleEvent = some e) := by
    rintro t i e ⟨td, htd, hi, hact, he⟩
    obtain ⟨-, -, hf⟩ := hfate t td i htd hi
    cases hf with
    | kept td₀ htd₀ hkept hlow hlast =>
      exact Or.inl ⟨⟨td₀, htd₀, hi, (hlow hact).isActive_eq ▸ hact, hkept.1.symm.trans he⟩, hlast⟩
    | fresh hoff hlast =>
      rw [hoff] at hact
      cases hact
    | armed r e₀ hself hlast hr he₀ hnew =>
      obtain rfl := Option.some.inj (he.symm.trans he₀)
      exact Or.inr ⟨hself, hnew, r, hlast, hr⟩
  refine ⟨fun t td i htd hi => (hfate t td i htd hi).1,
    fun t td i htd hi => (hfate t td i htd hi).2.1, fun t td i r htd hi hr => ?_,
    fun t td i htd hi hact => ?_, fun t t' i j e e' ha ha' hself => ?_⟩
  · -- what the slot is for is what its last arming asked for
    obtain ⟨-, -, hf⟩ := hfate t td i htd hi
    cases hf with
    | kept td₀ htd₀ hkept hlow hlast =>
      exact hkept.1.trans (h.held t td₀ i r htd₀ hi (hlast ▸ hr))
    | fresh hoff hlast =>
      rw [hlast] at hr
      cases hr
    | armed r₀ e₀ hself hlast hr₀ he₀ hnew =>
      obtain rfl := Option.some.inj (hlast.symm.trans hr)
      exact he₀.trans hr₀.symm
  · obtain ⟨-, -, hf⟩ := hfate t td i htd hi
    cases hf with
    | kept td₀ htd₀ hkept hlow hlast =>
      have hact₀ : (td₀.watchPointArray i).isActive = true := (hlow hact).isActive_eq ▸ hact
      obtain ⟨e, r, hr, hre, hnot⟩ := h.live t td₀ i htd₀ hi hact₀
      have he : (td.watchPointArray i).sampledEvent = some e :=
        (hkept.1.trans (h.held t td₀ i r htd₀ hi hr)).trans hre
      exact ⟨e, r, hlast.trans hr, hre, fun hd => hnot (hdel t i e ⟨td, htd, hi, hact, he⟩ hd)⟩
    | fresh hoff hlast =>
      rw [hoff] at hact
      cases hact
    | armed r e hself hlast hr he hnew =>
      exact ⟨e, r, hlast, hr, fun hd =>
        hnew.not_deleted (hdel t i e ⟨td, htd, hi, hact, he⟩ hd)⟩
  · -- a new object is none of those that active slots held
    rcases hactive t i e ha with ⟨hold, -⟩ | ⟨harm, hnew, -⟩ <;>
      rcases hactive t' j e' ha' with ⟨hold', -⟩ | ⟨harm', hnew', -⟩
    · exact h.distinct t t' i j e e' hold hold' hself
    · exact absurd hself (hnew'.self_ne (h.lastLive hold))
    · exact absurd hself.symm (hnew.self_ne (h.lastLive hold'))
    · obtain ⟨rfl, hrest⟩ := Prod.mk.inj (Option.some.inj (harm.symm.trans harm'))
      exact ⟨rfl, (Prod.mk.inj hrest).1⟩

/-! ### The calls of a run -/

/-- Every event handed over is a new object, and a subscription hands one over. -/
def HandsOver (w : World L) : Op → Prop
  | .threadInit _ _ => True
  | .subscribe _ r _ => ∃ e, r.sampleEvent = some e ∧ NewObject w.effects e
  | .onWatchPoint _ _ event _ => NewObject w.effects event
  | _ => False

/-- The two unguarded reads of `OnWatchPoint` find slots whose last subscription is
alive: slot 0 for the message, and every slot for the report about a trigger that
matches no active slot. -/
def ReadsLive (T : Tool L) (w : World L) : Op → Prop
  | .onWatchPoint tid fd event _ => ∀ td, w.tData tid = some td →
      0 < T.cfg.maxWP ∧ (∃ e, LastLive w.effects tid 0 e) ∧
        (Unmatched T td.watchPointArray fd event → w.oldBadAddress ≠ T.addrOf event →
          ∀ i, i < T.cfg.maxWP → ∃ e, LastLive w.effects tid i e)
  | _ => True

/-- `WP_ThreadInit` keeps the invariant. -/
theorem EventInv.threadInit {w w' : World L} {tid : ℕ} {ans : InitAnswers} {ret : ℤ}
    (h : EventInv T w) (hs : wpThreadInit T w tid ans = .running ret w') : EventInv T w' := by
  rcases wpThreadInit_cases hs with rfl | rfl
  · exact h
  refine h.evolve none (fun t td i htd hi => ?_) fun t i e _ hd => ?_
  · rcases tData_update_cases htd with ⟨rfl, rfl⟩ | ⟨ht, htd₀⟩
    · -- the initialising loop switches every slot off
      have hoff : (initSlots T.cfg.maxWP t ans.memory i).isActive = false := by
        simp only [initSlots, if_pos hi]
      refine ⟨by simp only [initSlots, if_pos hi], slotReady_of_inactive hoff,
        .fresh hoff (if_pos rfl)⟩
    · exact h.carried htd₀ hi (.refl _) (fun _ _ _ hp => hp) (if_neg fun hc => ht hc.symm)
  · obtain ⟨d, hd, hself⟩ := hd
    rcases List.mem_cons.mp hd with hd | hd
    · cases hd
    · exact ⟨d, hd, hself⟩

/-- `WP_Subscribe` keeps the invariant when it is handed a new object. -/
theorem EventInv.subscribe {w w' : World L} {tid : ℕ} {r : Request} {ans : SubscribeAnswers}
    {ret : ℤ} {e : Event} (h : EventInv T w) (hr : r.sampleEvent = some e)
    (hnew : NewObject w.effects e) (hs : Subscribed T w tid r ans ret w') : EventInv T w' := by
  cases hs with
  | refused => exact h
  | noVictim td htd =>
    have halike := victimOf_alike T td ans
    refine h.evolve none (fun t td' i htd' hi => ?_) fun _ _ _ _ hd => hd
    rcases tData_update_cases htd' with ⟨rfl, rfl⟩ | ⟨-, htd₀⟩
    · exact h.carried htd hi (halike i) (fun _ _ _ hp => hp) rfl
    · exact h.carried htd₀ hi (.refl _) (fun _ _ _ hp => hp) rfl
  | tried td k ok c htd hvalid hover hloc harm =>
    have halike := victimOf_alike T td ans
    have hk : k < T.cfg.maxWP := getVictim_lt hloc
    have hthread : ((victimOf T td ans).slots k).threadId = tid :=
      (WPRegisterInfo.Kept.of_alike (halike k)).2.trans (h.thread tid td k htd hk)
    have hhas : T.cfg.isWPModifyEnabled = true →
        ∀ t fd, w.platform.Has t fd → c.platform.Has t fd := fun hmod _ _ hp => harm.has hmod hp
    have hlast : ∀ t i, ¬ (tid = t ∧ k = i) →
        lastArm t i ((if c.reachedEnd then [.arm tid k r] else []) ++ w.effects)
          = lastArm t i w.effects := by
      intro t i hne
      cases c.reachedEnd with
      | true => exact if_neg hne
      | false => rfl
    -- slot `k` of the thread is armed for the new event, every other slot is carried over
    refine h.evolve (some (tid, k, e)) (fun t td' i htd' hi => ?_) fun _ _ _ _ hd => ?_
    · rcases tData_update_cases htd' with ⟨rfl, rfl⟩ | ⟨ht, htd₀⟩
      · by_cases hik : i = k
        · subst hik
          simp only [Function.update_self]
          refine ⟨harm.kept.1.trans hthread,
            harm.ready hthread ((h.ready t td i htd hi).mono (halike i) fun _ _ _ hp => hp), ?_⟩
          rcases harm.slot with ⟨hend, -, -, -, -, -, hev⟩ | ⟨hend, hlow⟩
          · refine .armed r e rfl ?_ hr (hev e hr) hnew
            simp only [World.note, hend, if_true]
            exact if_pos ⟨rfl, rfl⟩
          · refine .kept td htd ((WPRegisterInfo.Kept.of_alike (halike i)).trans
              ⟨harm.kept.2 hend, harm.kept.1⟩) ((halike i).lowered.trans hlow) ?_
            simp only [World.note, hend, Bool.false_eq_true, if_false]
            rfl
        · simp only [Function.update_of_ne hik]
          exact h.carried htd hi (halike i) hhas (hlast t i fun hc => hik hc.2.symm)
      · exact h.carried htd₀ hi (.refl _) hhas (hlast t i fun hc => ht hc.1.symm)
    · -- a subscription deletes nothing
      obtain ⟨d, hd, hself⟩ := hd
      refine ⟨d, ?_, hself⟩
      rcases List.mem_append.mp hd with hd | hd
      · split_ifs at hd
        · cases List.mem_singleton.mp hd
        · cases hd
      · exact hd

/-! ### What `OnWatchPoint` enters into the record -/

theorem reportUnmatched_seen {tid : ℕ} {slots : Slots} {is : List ℕ} {seen seen' : List Effect}
    {o : Option Halt} (h : reportUnmatched tid slots is seen = (seen', o)) :
    ∀ x ∈ seen', x ∈ seen ∨ ∃ i ∈ is, x = .deref tid i (slots i).sampledEvent := by
  induction is generalizing seen with
  | nil =>
    obtain ⟨rfl, -⟩ := Prod.mk.inj h
    exact fun x hx => Or.inl hx
  -- the slot's event is looked at first, and a null one ends the loop
  | cons i is ih =>
    have hself : ∀ x ∈ Effect.deref tid i (slots i).sampledEvent :: seen, x ∈ seen ∨
        ∃ j ∈ i :: is, x = .deref tid j (slots j).sampledEvent := by
      intro x hx
      rcases List.mem_cons.mp hx with rfl | hx
      · exact Or.inr ⟨i, List.mem_cons_self, rfl⟩
      · exact Or.inl hx
    unfold reportUnmatched at h
    simp only at h
    split at h
    · obtain ⟨rfl, -⟩ := Prod.mk.inj h
      exact hself
    · intro x hx
      rcases ih h x hx with hx | ⟨j, hj, hx⟩
      · exact hself x hx
      · exact Or.inr ⟨j, List.mem_cons_of_mem i hj, hx⟩

/-- The slots whose pointer `OnWatchPoint` may follow. -/
def Follows (T : Tool L) (w : World L) (slots : Slots) (fd : ℤ) (event : Event) (i : ℕ) : Prop :=
  i = 0 ∨ (i < T.cfg.maxWP ∧ (slots i).isActive = true) ∨
    (i < T.cfg.maxWP ∧ Unmatched T slots fd event ∧ w.oldBadAddress ≠ T.addrOf event)

/-- Every entry follows the pointer of such a slot. -/
def AllFollowed (T : Tool L) (w : World L) (tid : ℕ) (slots : Slots) (fd : ℤ) (event : Event)
    (es : List Effect) : Prop :=
  ∀ x ∈ es, ∃ i, Follows T w slots fd event i ∧ x = .deref tid i (slots i).sampledEvent

section Followed

variable {w : World L} {tid : ℕ} {slots : Slots} {fd : ℤ} {event : Event}
  {seen es es' : List Effect}

theorem AllFollowed.append (h : AllFollowed T w tid slots fd event es)
    (h' : AllFollowed T w tid slots fd event es') :
    AllFollowed T w tid slots fd event (es ++ es') := by
  intro x hx
  rcases List.mem_append.mp hx with hx | hx
  · exact h x hx
  · exact h' x hx

theorem allFollowed_singleton {i : ℕ} {ev : Option Event} (hi : Follows T w slots fd event i)
    (hev : (slots i).sampledEvent = ev) :
    AllFollowed T w tid slots fd event [.deref tid i ev] := by
  intro x hx
  obtain rfl := List.mem_singleton.mp hx
  exact ⟨i, hi, by rw [hev]⟩

/-- The search follows pointers of active slots. -/
theorem findFired_followed {res : Except Halt (Option (ℕ × Event))}
    (h : findFired T tid slots fd event (List.range T.cfg.maxWP) [] = (seen, res)) :
    AllFollowed T w tid slots fd event seen := by
  intro x hx
  rcases (findFired_spec h).2.2 x hx with hx | ⟨i, hi, hact, rfl⟩
  · cases hx
  · exact ⟨i, Or.inr (Or.inl ⟨List.mem_range.mp hi, hact⟩), rfl⟩

/-- The report about a trigger that matches no slot follows the pointer of any slot. -/
theorem reportUnmatched_followed {o : Option Halt} (hun : Unmatched T slots fd event)
    (hbad : w.oldBadAddress ≠ T.addrOf event)
    (h : reportUnmatched tid slots (List.range T.cfg.maxWP) [] = (seen, o)) :
    AllFollowed T w tid slots fd event seen := by
  intro x hx
  rcases reportUnmatched_seen h x hx with hx | ⟨i, hi, rfl⟩
  · cases hx
  · exact ⟨i, Or.inr (Or.inr ⟨List.mem_range.mp hi, hun, hbad⟩), rfl⟩

/-- The callback follows the pointer of the slot that fired. -/
theorem Fires.followed {i : ℕ} {e : Event} (h : Fires T slots fd event i e) (called : Bool) :
    AllFollowed T w tid slots fd event (if called then [.deref tid i (some e)] else []) := by
  cases called with
  | true => exact allFollowed_singleton (Or.inr (Or.inl ⟨h.lt, h.active⟩)) h.holds
  | false => exact fun _ hx => absurd hx List.not_mem_nil

end Followed

/-- **What `OnWatchPoint` enters into the record**, whether it returns or ends the
process: pointers it follows, and below them, for a slot that fired, the two
events it deletes. -/
theorem onWatchPoint_effects {w : World L} {tid : ℕ} {td : WPThreadData} (fd : ℤ)
    (event : Event) (ans : TriggerAnswers) (htd : w.tData tid = some td) :
    ∃ dels es, (onWatchPoint T w tid fd event ans).state.effects = dels ++ (es ++ w.effects) ∧
      AllFollowed T w tid td.watchPointArray fd event es ∧
      (dels = [] ∨ ∃ i e, Fires T td.watchPointArray fd event i e ∧
        dels = [.delete e, .delete event]) := by
  have hzero : AllFollowed T w tid td.watchPointArray fd event
      [.deref tid 0 (td.watchPointArray 0).sampledEvent] :=
    allFollowed_singleton (Or.inl rfl) rfl
  unfold onWatchPoint
  simp only [htd]
  split
  · exact ⟨[], _, rfl, hzero, Or.inl rfl⟩
  split
  · next seen h hf =>
    exact ⟨[], _, by simp [World.note], (findFired_followed hf).append hzero, Or.inl rfl⟩
  · next seen i e hf =>
    have hfire := findFired_fires hf
    have hall : AllFollowed T w tid td.watchPointArray fd event _ :=
      (hfire.followed (decideAction T w.logic (td.watchPointArray i) e event ans.fixIP).2.2).append
        ((findFired_followed hf).append hzero)
    unfold handleFired
    simp only
    split
    · -- the process ends in the cleanup, before it deletes anything
      refine ⟨[], _, ?_, hall, Or.inl rfl⟩
      simp only [List.nil_append, List.append_assoc]
      rfl
    · refine ⟨if (decideAction T w.logic (td.watchPointArray i) e event ans.fixIP).1 = .retain
        then [] else [.delete e, .delete event], _, ?_, hall, ?_⟩
      · simp only [List.append_assoc]
        exact List.append_assoc _ _ _
      · split_ifs
        · exact Or.inl rfl
        · exact Or.inr ⟨i, e, hfire, rfl⟩
  · next seen hf =>
    have hsearch := (findFired_followed hf).append hzero
    split_ifs with hbad
    · -- the report is printed once for each address
      have hrep : ∀ {seen' o}, reportUnmatched tid td.watchPointArray (List.range T.cfg.maxWP) []
          = (seen', o) → AllFollowed T w tid td.watchPointArray fd event
            (seen' ++ (seen ++ [.deref tid 0 (td.watchPointArray 0).sampledEvent])) :=
        fun hr => (reportUnmatched_followed (findFired_unmatched hf) hbad hr).append hsearch
      split
      · next seen' h hr => exact ⟨[], _, by simp [World.note], hrep hr, Or.inl rfl⟩
      · next seen' hr => exact ⟨[], _, by simp [World.note], hrep hr, Or.inl rfl⟩
    · exact ⟨[], _, by simp [World.note], hsearch, Or.inl rfl⟩

/-! ### `OnWatchPoint` keeps the invariant -/

theorem slotReady_disabled {cfg : WPConfig} {tid j : ℕ} {slots : Slots} {wpi : WPRegisterInfo}
    {p p' : Platform} {ans : RemoveAnswers} (hj : j < cfg.maxWP)
    (h : ∀ k, k < cfg.maxWP → SlotReady cfg p (slots k))
    (hd : Disabled cfg tid (slots j) p ans wpi p') :
    ∀ k, k < cfg.maxWP → SlotReady cfg p' (Function.update slots j wpi k) := by
  intro k hk
  by_cases hkj : k = j
  · subst hkj
    rw [Function.update_self]
    exact slotReady_of_inactive (hd.off (h k hj))
  · rw [Function.update_of_ne hkj]
    exact (h k hk).mono (.refl _) fun hmod _ _ hp => hd.has hmod hp

/-- A slot that fired and was not retained is off. -/
theorem applyAction_off {cfg : WPConfig} {a : WPTriggerAction} {tid i : ℕ}
    {td td' : WPThreadData} {p p' : Platform} {ans : ℕ → RemoveAnswers}
    (hready : ∀ k, k < cfg.maxWP → SlotReady cfg p (td.watchPointArray k))
    (hact : (td.watchPointArray i).isActive = true) (hi : i < cfg.maxWP) (ha : a ≠ .retain)
    (h : applyAction cfg tid a i td p ans = .ok (td', p')) :
    (td'.watchPointArray i).isActive = false := by
  unfold applyAction at h
  cases a with
  | disable =>
    simp only at h
    split at h
    · cases h
    next wpi q hd =>
    obtain ⟨rfl, rfl⟩ := Prod.mk.inj (Except.ok.inj h)
    simp only [Function.update_self]
    exact (disableSlot_cases hd).off (hready i hi)
  | disableAll =>
    simp only at h
    split at h
    · cases h
    next slots q hd =>
    obtain ⟨rfl, rfl⟩ := Prod.mk.inj (Except.ok.inj h)
    -- the slots the loop has passed are off
    refine (disableAllSlots_invariant
      (I := fun is slots q => (∀ k ∈ is, k < cfg.maxWP) ∧
        (∀ k, k < cfg.maxWP → SlotReady cfg q (slots k)) ∧
        ∀ k, k < cfg.maxWP → k ∉ is → (slots k).isActive = false) ?_
      ⟨fun k hk => List.mem_range.mp hk, hready,
        fun k hk hno => absurd (List.mem_range.mpr hk) hno⟩ hd).2.2 i hi List.not_mem_nil
    rintro j is slots q wpi q' ⟨hlt, hr, hoff⟩ hdis
    have hj : j < cfg.maxWP := hlt j List.mem_cons_self
    refine ⟨fun k hk => hlt k (List.mem_cons_of_mem j hk), slotReady_disabled hj hr hdis,
      fun k hk hno => ?_⟩
    by_cases hkj : k = j
    · subst hkj
      rw [Function.update_self]
      exact hdis.off (hr k hj)
    · rw [Function.update_of_ne hkj]
      exact hoff k hk fun hmem => (List.mem_cons.mp hmem).elim hkj hno
  | alreadyDisabled =>
    simp only [hact, if_true] at h
    cases h
  | retain => exact absurd rfl ha

/-- The handling of a slot that fired deletes the slot's event and the trigger's,
unless the slot is retained. -/
theorem delete_mem_fired {w : World L} {tid i : ℕ} {td : WPThreadData} {fd : ℤ} {e event d : Event}
    {ans : TriggerAnswers} {ev : Option Event} {seen : List Effect}
    {res : Except Halt (Option (ℕ × Event))}
    (hseen : findFired T tid td.watchPointArray fd event (List.range T.cfg.maxWP) [] = (seen, res))
    (hd : Effect.delete d ∈ firedEffects T w tid td i e event ans ++
      (seen ++ (.deref tid 0 ev :: w.effects))) :
    ((decideAction T w.logic (td.watchPointArray i) e event ans.fixIP).1 ≠ .retain ∧
      (d = e ∨ d = event)) ∨ Effect.delete d ∈ w.effects := by
  rcases List.mem_append.mp hd with hd | hd
  · rw [firedEffects] at hd
    rcases List.mem_append.mp hd with hd | hd
    · -- the deletions of the slot that fired
      split_ifs at hd with hret
      · cases hd
      · refine Or.inl ⟨hret, ?_⟩
        rcases List.mem_cons.mp hd with hd | hd
        · exact Or.inl (Effect.delete.inj hd)
        · exact Or.inr (Effect.delete.inj (List.mem_singleton.mp hd))
    · split_ifs at hd
      · cases List.mem_singleton.mp hd
      · cases hd
  · rcases List.mem_append.mp hd with hd | hd
    · -- the search only looks at events
      rcases (findFired_spec hseen).2.2 _ hd with hd | ⟨_, -, -, hd⟩
      · cases hd
      · cases hd
    · rcases List.mem_cons.mp hd with hd | hd
      · cases hd
      · exact Or.inr hd

/-- `OnWatchPoint` keeps the invariant when its event is a new object. -/
theorem EventInv.handled {w w' : World L} {tid : ℕ} {fd : ℤ} {event : Event}
    {ans : TriggerAnswers} (h : EventInv T w) (hnew : NewObject w.effects event)
    (hh : Handled T w tid fd event ans w') : EventInv T w' := by
  cases hh with
  | noTable htd =>
    refine h.evolve none (fun t td i htd' hi =>
      h.carried htd' hi (.refl _) (fun _ _ _ hp => hp) rfl) fun t i e ha hd => ?_
    obtain ⟨d, hd, hself⟩ := hd
    rcases List.mem_cons.mp hd with hd | hd
    · cases hd
      exact absurd hself.symm (hnew.self_ne (h.lastLive ha))
    · exact ⟨d, hd, hself⟩
  | fired td td' i e p' seen htd hfire hseen hact =>
    -- four things the switch over the action preserves
    have hready : ∀ k, k < T.cfg.maxWP → SlotReady T.cfg w.platform (td.watchPointArray k) :=
      fun k hk => h.ready tid td k htd hk
    have hready' : ∀ k, k < T.cfg.maxWP → SlotReady T.cfg p' (td'.watchPointArray k) :=
      applyAction_invariant
        (I := fun slots q => ∀ k, k < T.cfg.maxWP → SlotReady T.cfg q (slots k))
        hfire.active hfire.lt (fun j slots q wpi q' hj hr hd => slotReady_disabled hj hr hd)
        hready hact
    have hhas : T.cfg.isWPModifyEnabled = true → ∀ t fd, w.platform.Has t fd → p'.Has t fd :=
      fun hmod => applyAction_invariant
        (I := fun _ q => ∀ t fd, w.platform.Has t fd → q.Has t fd) hfire.active hfire.lt
        (fun j slots q wpi q' hj hr hd t fd hp => hd.has hmod (hr t fd hp)) (fun _ _ hp => hp) hact
    have hkept : ∀ k, (td.watchPointArray k).Kept (td'.watchPointArray k) := fun k =>
      applyAction_invariant (I := fun slots _ => (td.watchPointArray k).Kept (slots k))
        hfire.active hfire.lt
        (fun j slots q wpi q' hj hr hd => hr.trans (rel_update .refl hd.kept k)) (.refl _) hact
    have hlow := applyAction_lowered hfire.active hfire.lt hact
    refine h.evolve none (fun t td'' j htd'' hj => ?_) fun t j e' ha hd => ?_
    · rcases tData_update_cases htd'' with ⟨rfl, rfl⟩ | ⟨-, htd₀⟩
      · exact ⟨(hkept j).2.trans (h.thread t td j htd hj), hready' j hj,
          .kept td htd (hkept j) (hlow j) (lastArm_of_handled hseen t j)⟩
      · exact h.carried htd₀ hj (.refl _) hhas (lastArm_of_handled hseen t j)
    · -- a slot that is active afterwards was active before, with the same event
      have hold : ActiveHolds T w t j e' := by
        obtain ⟨td'', htd'', hj, hja, he'⟩ := ha
        rcases tData_update_cases htd'' with ⟨rfl, rfl⟩ | ⟨-, htd₀⟩
        · exact ⟨td, htd, hj, (hlow j hja).isActive_eq ▸ hja, (hkept j).1.symm.trans he'⟩
        · exact ⟨td'', htd₀, hj, hja, he'⟩
      obtain ⟨d, hd, hself⟩ := hd
      rcases delete_mem_fired hseen hd with ⟨hret, rfl | rfl⟩ | hd
      · -- no other slot holds the event of the one that fired, and that one is off
        have hfired : ActiveHolds T w tid i d :=
          ⟨td, htd, hfire.lt, hfire.active, hfire.holds⟩
        obtain ⟨rfl, rfl⟩ := h.distinct tid t i j d e' hfired hold hself
        obtain ⟨td'', htd'', -, hja, -⟩ := ha
        rcases tData_update_cases htd'' with ⟨-, rfl⟩ | ⟨hne, -⟩
        · rw [applyAction_off hready hfire.active hfire.lt hret hact] at hja
          cases hja
        · exact absurd rfl hne
      · exact absurd hself.symm (hnew.self_ne (h.lastLive hold))
      · exact ⟨d, hd, hself⟩

/-! ### Every run -/

/-- The pointer of a slot whose last subscription is alive is live. -/
theorem EventInv.live_of_lastLive {w : World L} (h : EventInv T w) {t i : ℕ} {td : WPThreadData}
    {e : Event} (htd : w.tData t = some td) (hi : i < T.cfg.maxWP)
    (hl : LastLive w.effects t i e) : Live w.effects t i (td.watchPointArray i).sampledEvent := by
  obtain ⟨r, hr, hre, hdel⟩ := hl
  exact ⟨e, (h.held t td i r htd hi hr).trans hre, ⟨r, mem_of_lastArm hr, hre⟩, hdel⟩

/-- What one trigger enters into a sound record is sound. -/
theorem Sound.onWatchPoint {w : World L} {tid : ℕ} {event : Event} (fd : ℤ)
    (ans : TriggerAnswers) (h : EventInv T w) (hs : Sound w.effects)
    (hnew : NewObject w.effects event)
    (hreads : ReadsLive T w (.onWatchPoint tid fd event ans)) :
    Sound (onWatchPoint T w tid fd event ans).state.effects := by
  cases htd : w.tData tid with
  | none =>
    unfold Kognizance.onWatchPoint
    rw [htd]
    exact ⟨hnew.not_deleted, hs⟩
  | some td =>
    obtain ⟨hpos, ⟨e₀, h₀⟩, hall⟩ := hreads td htd
    obtain ⟨dels, es, heq, hes, hdels⟩ :=
      onWatchPoint_effects (T := T) fd event ans htd
    -- every pointer followed is that of a slot that was armed with a live event
    have hlive : ∀ x ∈ es, ∃ t i ev, x = .deref t i ev ∧ Live w.effects t i ev := by
      intro x hx
      obtain ⟨i, hf, rfl⟩ := hes x hx
      refine ⟨tid, i, _, rfl, ?_⟩
      rcases hf with rfl | ⟨hi, hact⟩ | ⟨hi, hun, hbad⟩
      · exact h.live_of_lastLive htd hpos h₀
      · obtain ⟨e, he⟩ := h.live tid td i htd hi hact
        exact h.live_of_lastLive htd hi he
      · obtain ⟨e, he⟩ := hall hun hbad i hi
        exact h.live_of_lastLive htd hi he
    have honly : OnlyDerefs es := by
      intro x hx
      obtain ⟨t, i, ev, rfl, -⟩ := hlive x hx
      exact ⟨t, i, ev, rfl⟩
    have hsound := hs.append_derefs hlive
    rw [heq]
    rcases hdels with rfl | ⟨i, e, hfire, rfl⟩
    · exact hsound
    · -- the two deleted events are different objects, and neither was deleted before
      have hl := h.lastLive ⟨td, htd, hfire.lt, hfire.active, hfire.holds⟩
      refine ⟨fun hd => ?_, fun hd => hnew.not_deleted ((deleted_append_derefs honly).mp hd),
        hsound⟩
      obtain ⟨d, hd, hself⟩ := hd
      rcases List.mem_cons.mp hd with hd | hd
      · cases hd
        exact hnew.self_ne hl hself.symm
      · obtain ⟨r, -, -, hdel⟩ := hl
        exact hdel ((deleted_append_derefs honly).mp ⟨d, hd, hself⟩)

/-- `WP_Subscribe` follows no pointer and deletes nothing. -/
theorem Sound.subscribe {w : World L} (hs : Sound w.effects) (tid : ℕ) (r : Request)
    (ans : SubscribeAnswers) : Sound (wpSubscribe T w tid r ans).state.effects := by
  unfold wpSubscribe
  split_ifs
  · exact hs
  · exact hs
  · split
    · exact hs
    simp only
    split_ifs
    · exact hs
    split
    · exact hs
    split
    · exact hs
    · split_ifs <;> exact hs

/-- **No dead event is touched, along every run** of thread creations,
subscriptions and triggers whose events are new objects and whose two unguarded
reads find live slots. -/
theorem sound_of_run (T : Tool L) (p : Platform) (logic : L) (ops : List Op)
    (hops : Along (step T) (fun w op => HandsOver w op ∧ ReadsLive T w op)
      (World.fresh p logic) ops) :
    Sound (exec (step T) (World.fresh p logic) ops).state.effects := by
  -- the run may end in a halt; the record is sound there too
  refine exec_final (I := fun w => EventInv T w ∧ Sound w.effects) ?_ (fun w h => h.2) ?_
    ⟨.fresh p logic, trivial⟩ hops
  · rintro w op ret w' ⟨hinv, hs⟩ ⟨hand, hreads⟩ hstep
    cases op with
    | threadInit tid ans =>
      refine ⟨hinv.threadInit hstep, ?_⟩
      rcases wpThreadInit_cases hstep with rfl | rfl <;> exact hs
    | subscribe tid r ans =>
      obtain ⟨e, he, hnew⟩ := hand
      refine ⟨hinv.subscribe he hnew (wpSubscribe_cases hstep), ?_⟩
      have := hs.subscribe (T := T) tid r ans
      rwa [show wpSubscribe T w tid r ans = .running ret w' from hstep] at this
    | onWatchPoint tid fd event ans =>
      refine ⟨hinv.handled hand (onWatchPoint_cases hstep), ?_⟩
      have := Sound.onWatchPoint fd ans hinv hs hand hreads
      rwa [show Kognizance.onWatchPoint T w tid fd event ans = .running ret w' from hstep] at this
    | threadTerminate => exact absurd hand id
    | pause => exact absurd hand id
    | resume => exact absurd hand id
    | devices => exact absurd hand id
  · rintro w op e w' ⟨hinv, hs⟩ ⟨hand, hreads⟩ hstep
    cases op with
    | threadInit tid ans =>
      change wpThreadInit T w tid ans = .ended e w' at hstep
      unfold wpThreadInit at hstep
      split_ifs at hstep
    | subscribe tid r ans =>
      have := hs.subscribe (T := T) tid r ans
      rwa [show wpSubscribe T w tid r ans = .ended e w' from hstep] at this
    | onWatchPoint tid fd event ans =>
      have := Sound.onWatchPoint fd ans hinv hs hand hreads
      rwa [show Kognizance.onWatchPoint T w tid fd event ans = .ended e w' from hstep] at this
    | threadTerminate => exact absurd hand id
    | pause => exact absurd hand id
    | resume => exact absurd hand id
    | devices => exact absurd hand id

end

/-! ### Two runs -/

/-- One subscription and its trigger. -/
def oneTrigger : List Op :=
  [.threadInit 1 (.success none), .subscribe 1 (.storeAt 1 0x1000) (.success 3),
    .onWatchPoint 1 3 (.storeAt 5 0x1000) .success]

theorem sound_of_oneTrigger :
    Sound (exec (step (Tool.always true 2 .disable)) (World.fresh .idle ())
      oneTrigger).state.effects := by
  refine sound_of_run (Tool.always true 2 .disable) .idle () oneTrigger
    (.cons ⟨trivial, trivial⟩ rfl (.cons ⟨⟨Event.storeAt 1 0x1000, rfl, fun x hx => ?_⟩, trivial⟩
      rfl ⟨⟨fun x hx => ?_, fun td htd => ?_⟩, fun _ _ _ => trivial⟩))
  · -- neither arming nor looking at an event deletes one
    obtain rfl := List.mem_singleton.mp hx
    exact id
  · rcases List.mem_cons.mp hx with rfl | hx
    · rintro ⟨e, he, hself⟩
      obtain rfl := Option.some.inj he
      cases hself
    · obtain rfl := List.mem_singleton.mp hx
      exact id
  · -- slot 0 is armed for the sample that was subscribed
    obtain rfl := Option.some.inj htd
    refine ⟨Nat.two_pos, ⟨Event.storeAt 1 0x1000, Request.storeAt 1 0x1000, rfl, rfl, ?_⟩,
      fun hun => absurd ⟨Nat.two_pos, rfl, rfl, rfl, rfl⟩ (hun 0 (Event.storeAt 1 0x1000))⟩
    rintro ⟨d, hd, -⟩
    rcases List.mem_cons.mp hd with hd | hd
    · cases hd
    · cases List.mem_singleton.mp hd

/-- **The trigger of slot 1 reads the event that the trigger of slot 0 deleted.**
Every event of the run is a new object. -/
theorem deref_after_delete :
    ¬ Sound (exec (step (Tool.always true 2 .disable)) (World.fresh .idle ())
      (twoSlotRun ++ [.onWatchPoint 1 4 (.storeAt 6 0x1008) .success])).state.effects := by
  intro h
  -- below the two deletions and the three reads of slot 1, slot 0 is read
  have hread : Live _ 1 0 (some (Event.storeAt 1 0x1000)) := h.2.2.2.2.1
  obtain ⟨e, he, -, hdel⟩ := hread
  obtain rfl := Option.some.inj he
  exact hdel ⟨Event.storeAt 1 0x1000, List.mem_cons_self, rfl⟩

end Kognizance
