import Kognizance.Platform.OwnSessions

/-!
# The breakpoint tool

`samplePEBSBPTool`: every session samples with a PEBS device, and a sample puts the one
breakpoint of its thread on the address that was sampled. The breakpoint is registered at the
first sample, moved at the later ones and stopped when it fires. The thread-local `fd` names
its device; nothing clears it when the session ends.

* `BpTool.step` is one callback of the tool, or one signal that reaches it.
* `Watching.next` says what the breakpoint of a thread is for.
* `used_of_few`: no key is given to two threads in a run of up to 2^32 sessions.
* `BpTool.watches_of_run`: in every run, the breakpoint of every thread is where the history of
  its samples puts it, and there is no other one.
-/

namespace Kognizance

open Process

/-! ### The purpose -/

/-- What the breakpoint of a thread does. -/
inductive Watching
  /-- there is none, and the next sample sets one -/
  | idle
  /-- the one that `fd` names is gone, and the next sample only finds that out -/
  | stale
  | on (addr : UInt64) (stopped : Bool)
  deriving DecidableEq, Repr

/-- What happens to it. -/
inductive BpEvent
  /-- a sample, and whether the kernel accepts the address -/
  | sampled (addr : UInt64) (accepted : Bool)
  | fired
  | sessionEnded
  deriving DecidableEq, Repr

def Watching.next : Watching → BpEvent → Watching
  | idle, .sampled addr accepted => if accepted then on addr false else idle
  | stale, .sampled _ _ => idle
  | on old stopped, .sampled addr accepted => if accepted then on addr false else on old stopped
  | on old _, .fired => on old true
  | on _ _, .sessionEnded => stale
  | w, _ => w

/-! ### The tool -/

/-- `bp_len`: `HW_BREAKPOINT_LEN_1` -/
def bpLen : ℤ := 1

/-- `bpType`: `HW_BREAKPOINT_W | HW_BREAKPOINT_R` -/
def bpType : ℕ := 3

/-- The process of the tool. -/
structure BpTool where
  platform : Platform
  sKey : ℤ
  /-- The thread-local `fd`. -/
  fd : ℕ → ℤ
  /-- The threads between a `tool_sessionInit` and its `tool_sessionExit`. -/
  inSession : ℕ → Bool

/-- What the system calls answer while a sample is handled. -/
structure BpAnswers where
  register : RegisterAnswers
  update : UpdateAnswers
  deriving DecidableEq, Repr

/-- A callback of the tool, or a signal that reaches `dev_signal_handler`. -/
inductive BpOp
  | sessionInit (gettid : ℕ) (ans : RegisterAnswers)
  | sessionExit (gettid : ℕ) (ans : ℤ → RemoveAnswers)
  | signal (gettid : ℕ) (si_fd : ℤ) (event : RawEvent) (ans : BpAnswers)

/-- The thread it runs on. -/
def BpOp.gettid : BpOp → ℕ
  | sessionInit gettid _ => gettid
  | sessionExit gettid _ => gettid
  | signal gettid _ _ _ => gettid

/-- The thread it draws a session key for. -/
def BpOp.begins : BpOp → Option ℕ
  | sessionInit gettid _ => some gettid
  | _ => none

namespace BpTool

def init : BpTool := ⟨⟨∅, [], fun _ => -1, ⟨[], []⟩⟩, 0, fun _ => -1, fun _ => false⟩

/-- `generate_session_key`, but for the map from threads to keys, which this tool never asks. -/
def generateSessionKey (st : BpTool) (gettid : ℕ) : BpTool :=
  { st with
    platform := { st.platform with
      sessionKey := Function.update st.platform.sessionKey gettid st.sKey }
    sKey := (st.sKey + 1).bmod (2 ^ 32) }

/-- `tool_sessionInit`. The value of `registerDevice` is ignored. -/
def toolSessionInit (st : BpTool) (gettid : ℕ) (ans : RegisterAnswers) : Outcome BpTool Unit :=
  let st := st.generateSessionKey gettid
  let st := { st with inSession := Function.update st.inSession gettid true }
  match st.platform.registerDevice gettid PEBSDevice (st.platform.sessionKey gettid) ans with
  | .error h => .ended h st
  | .ok (_, _, p) => .running () { st with platform := p }

/-- `tool_sessionExit` -/
def toolSessionExit (st : BpTool) (gettid : ℕ) (ans : ℤ → RemoveAnswers) : Outcome BpTool Unit :=
  match st.platform.removeDeviceBySession gettid (st.platform.sessionKey gettid) ans with
  | .error h => .ended h st
  | .ok (_, p) =>
    .running () { st with
      platform := p
      inSession := Function.update st.inSession gettid false }

def setFd (st : BpTool) (gettid : ℕ) (fd : ℤ) : BpTool :=
  { st with fd := Function.update st.fd gettid fd }

/-- `tool_PEBSEventHandler` -/
def toolPEBSEventHandler (st : BpTool) (gettid : ℕ) (event : RawEvent) (ans : BpAnswers) :
    Outcome BpTool Unit :=
  if event.h_data_addr = 0 then .running () st
  else if st.fd gettid = -1 then
    match st.platform.registerDevice gettid (BPDevice bpLen bpType event.h_data_addr)
        (st.platform.sessionKey gettid) ans.register with
    | .error h => .ended h st
    | .ok (ret, bpdev, p) =>
      let st := { st with platform := p }
      if ret ≠ 0 then .running () st else .running () (st.setFd gettid bpdev.deviceFileId)
  else
    match st.platform.getDevice gettid (st.fd gettid) with
    | none => .running () (st.setFd gettid (-1))
    | some dev =>
      -- `dynamic_cast<BPDevice*>`
      if dev.deviceType = .bpDevice then
        .running () { st with
          platform := st.platform.setDevice gettid (st.fd gettid)
            (dev.updateBPAddress bpLen bpType event.h_data_addr ans.update).2 }
      else .running () (st.setFd gettid (-1))

/-- `tool_BPEventHandler`, for the device under the handle `si_fd`. -/
def toolBPEventHandler (st : BpTool) (gettid : ℕ) (si_fd : ℤ) (dev : Device) : BpTool :=
  { st with platform := st.platform.setDevice gettid si_fd dev.endDevice }

/-- `tool_eventHandler`, for the device that `generic_dev_signal_handler` finds. -/
def toolEventHandler (st : BpTool) (gettid : ℕ) (si_fd : ℤ) (event : RawEvent)
    (ans : BpAnswers) : Outcome BpTool Unit :=
  match st.platform.getDevice gettid si_fd with
  | none => .running () st
  | some dev =>
    match dev.deviceType with
    | .pebsDevice => st.toolPEBSEventHandler gettid event ans
    | .bpDevice => .running () (st.toolBPEventHandler gettid si_fd dev)
    | .ebsDevice => .running () st

def step (st : BpTool) : BpOp → Outcome BpTool Unit
  | .sessionInit gettid ans => st.toolSessionInit gettid ans
  | .sessionExit gettid ans => st.toolSessionExit gettid ans
  | .signal gettid si_fd event ans => st.toolEventHandler gettid si_fd event ans

/-- How the callbacks come. The kernel hands out handles that are not open, sessions of a thread
do not overlap, and a key is given to one thread only, which it is as long as the counter does
not come round (`used_of_few`). -/
def Used (ownerOf : ℤ → ℕ) (st : BpTool) : BpOp → Prop
  | .sessionInit gettid ans =>
    st.inSession gettid = false ∧ ownerOf st.sKey = gettid ∧
      ans.perfEventOpen ∉ st.platform.kernel.openFds
  | .sessionExit gettid _ => st.inSession gettid = true
  | .signal _ _ _ ans => ans.register.perfEventOpen ∉ st.platform.kernel.openFds

/-- The same without a word about the keys. -/
def Called (st : BpTool) : BpOp → Prop
  | .sessionInit gettid ans =>
    st.inSession gettid = false ∧ ans.perfEventOpen ∉ st.platform.kernel.openFds
  | .sessionExit gettid _ => st.inSession gettid = true
  | .signal _ _ _ ans => ans.register.perfEventOpen ∉ st.platform.kernel.openFds

/-- What an operation means for the breakpoint of the thread it runs on. -/
def seen (st : BpTool) : BpOp → List BpEvent
  | .sessionInit _ _ => []
  | .sessionExit _ _ => [.sessionEnded]
  | .signal gettid si_fd event ans =>
    match (st.platform.getDevice gettid si_fd).map Device.deviceType with
    | some .pebsDevice =>
      if event.h_data_addr = 0 then []
      else
        [.sampled event.h_data_addr (if st.fd gettid = -1 then ans.register.accepted
          else ans.update.agentOk || ans.update.ioctlOk)]
    | some .bpDevice => [.fired]
    | _ => []

/-- What has happened to the breakpoint of thread `t` during a run. -/
def history (t : ℕ) : BpTool → List BpOp → List BpEvent
  | _, [] => []
  | st, op :: ops =>
    match step st op with
    | .running _ st' => (if t = op.gettid then seen st op else []) ++ history t st' ops
    | .ended _ _ => []

/-- What a handle in `fd` and the device under it stand for. -/
def watchingOf (fd : ℤ) (dev : Option Device) : Watching :=
  if fd = -1 then .idle
  else
    match dev with
    | none => .stale
    | some dev => if dev.deviceType = .bpDevice then .on dev.address dev.isDisabled else .stale

/-- What the breakpoint of a thread does, in the state of the tool. -/
def watching (st : BpTool) (t : ℕ) : Watching :=
  watchingOf (st.fd t) (st.platform.getDevice t (st.fd t))

/-! ### The keys -/

/-- The handler of a sample sets devices and `fd`. -/
theorem sKey_toolPEBSEventHandler {st st' : BpTool} {gettid : ℕ} {event : RawEvent}
    {ans : BpAnswers} (hs : st.toolPEBSEventHandler gettid event ans = .running () st') :
    st'.sKey = st.sKey := by
  unfold toolPEBSEventHandler at hs
  split_ifs at hs
  · obtain rfl := (Outcome.running.inj hs).2
    rfl
  · split at hs
    · cases hs
    · dsimp only at hs
      split_ifs at hs <;> obtain rfl := (Outcome.running.inj hs).2 <;> rfl
  · split at hs
    · obtain rfl := (Outcome.running.inj hs).2
      rfl
    · split_ifs at hs <;> obtain rfl := (Outcome.running.inj hs).2 <;> rfl

/-- A session that begins draws a key, and nothing else does. -/
theorem sKey_of_step {st st' : BpTool} {op : BpOp} (hs : step st op = .running () st') :
    st'.sKey = if op.begins.isSome then (st.sKey + 1).bmod (2 ^ 32) else st.sKey := by
  cases op with
  | sessionInit gettid ans =>
    dsimp only [step] at hs
    unfold toolSessionInit at hs
    dsimp only [generateSessionKey] at hs
    split at hs
    · cases hs
    · obtain rfl := (Outcome.running.inj hs).2
      rfl
  | sessionExit gettid ans =>
    dsimp only [step] at hs
    unfold toolSessionExit at hs
    split at hs
    · cases hs
    · obtain rfl := (Outcome.running.inj hs).2
      rfl
  | signal gettid si_fd event ans =>
    dsimp only [step] at hs
    unfold toolEventHandler at hs
    -- a signal draws no key, whoever handles it
    split at hs
    · obtain rfl := (Outcome.running.inj hs).2
      rfl
    · split at hs
      · exact sKey_toolPEBSEventHandler hs
      · obtain rfl := (Outcome.running.inj hs).2
        rfl
      · obtain rfl := (Outcome.running.inj hs).2
        rfl

/-- **The keys of a run.** With up to 2^32 sessions, no key is given to two threads. -/
theorem used_of_few {st : BpTool} {ops : List BpOp} (hcalled : Along step Called st ops)
    (hfew : (ops.filterMap BpOp.begins).length ≤ 2 ^ 32) :
    ∃ ownerOf, Along step (Used ownerOf) st ops := by
  have hkey : ∀ st op a st', step st op = .running a st' →
      st'.sKey = if op.begins.isSome then (st.sKey + 1).bmod (2 ^ 32) else st.sKey :=
    fun _ _ _ _ hs => sKey_of_step hs
  obtain ⟨ownerOf, howner⟩ := exists_ownerOf hkey hfew
  refine ⟨ownerOf, (hcalled.and howner).mono fun st op h => ?_⟩
  cases op with
  | sessionInit gettid ans => exact ⟨h.1.1, h.2 gettid rfl, h.1.2⟩
  | sessionExit gettid ans => exact h.1
  | signal gettid si_fd event ans => exact h.1

/-! ### What the operations keep -/

/-- Every device belongs to the session of its thread, and every breakpoint is the one that the
`fd` of its thread names. -/
structure Ok (ownerOf : ℤ → ℕ) (st : BpTool) : Prop where
  sessions : OwnSessions ownerOf st.inSession st.platform
  breakpoint : ∀ t fd dev, st.platform.getDevice t fd = some dev →
    dev.deviceType = .bpDevice → fd = st.fd t ∧ dev.length = bpLen ∧ dev.type = bpType

/-- A step of thread `gettid` keeps all that, and does to the thread's breakpoint what the
events say. -/
structure Does (ownerOf : ℤ → ℕ) (st : BpTool) (gettid : ℕ) (events : List BpEvent)
    (st' : BpTool) : Prop where
  ok : Ok ownerOf st'
  self : st'.watching gettid = events.foldl Watching.next (st.watching gettid)
  other : ∀ t, t ≠ gettid → st'.watching t = st.watching t

/-- The device that `fd` names decides. -/
theorem watching_congr (st st' : BpTool) {t : ℕ} (hfd : st'.fd t = st.fd t)
    (hdev : st'.platform.getDevice t (st.fd t) = st.platform.getDevice t (st.fd t)) :
    st'.watching t = st.watching t := by
  unfold watching
  rw [hfd, hdev]

/-- A device that is no breakpoint stands for nothing. -/
theorem watchingOf_other {fd : ℤ} {dev : Device} (h : dev.deviceType ≠ .bpDevice) :
    watchingOf fd (some dev) = watchingOf fd none := by
  unfold watchingOf
  dsimp only
  rw [if_neg h]

section Step

variable {ownerOf : ℤ → ℕ} {st st' : BpTool} {gettid : ℕ}

theorem Ok.init : Ok ownerOf BpTool.init where
  sessions := OwnSessions.empty rfl rfl List.nodup_nil
  breakpoint := fun _ _ _ h => by cases h

theorem Ok.sessionInit (h : Ok ownerOf st) {ans : RegisterAnswers}
    (hu : Used ownerOf st (.sessionInit gettid ans))
    (hs : st.toolSessionInit gettid ans = .running () st') :
    Does ownerOf st gettid [] st' := by
  obtain ⟨hidle, hown, hfresh⟩ := hu
  unfold toolSessionInit at hs
  dsimp only [generateSessionKey] at hs
  split at hs
  · cases hs
  next ret dev p hr =>
  obtain rfl := (Outcome.running.inj hs).2
  have hnew := h.sessions.newSession hidle hown
  have hlive : Function.update st.inSession gettid true gettid = true := Function.update_self ..
  have hmap := Platform.getDevice_registerDevice hr
  have hfree := h.sessions.agree.getDevice_fresh hfresh
  -- the new device can only stand where there was none
  have hwatch : ∀ t, BpTool.watching { st with
      platform := p, sKey := (st.sKey + 1).bmod (2 ^ 32),
      inSession := Function.update st.inSession gettid true } t = st.watching t := by
    intro t
    unfold watching
    dsimp only
    rw [hmap]
    split
    next hnew =>
      obtain ⟨-, rfl, hfd⟩ := hnew
      rw [watchingOf_other (show DeviceType.pebsDevice ≠ .bpDevice by decide), hfd, hfree]
    · rfl
  refine ⟨⟨hnew.registerDevice hlive hfresh hr, ?_⟩, hwatch _, fun t _ => hwatch t⟩
  intro t fd dev hdev hbp
  rcases Platform.device_of_registerDevice hr hdev with ⟨-, -, -, rfl⟩ | hold
  · cases hbp
  · exact h.breakpoint t fd dev hold hbp

/-- A call on a device that stays what it is. -/
theorem Ok.setDevice (h : Ok ownerOf st) {fd : ℤ} {dev dev' : Device}
    (hdev : st.platform.getDevice gettid fd = some dev) (hsame : dev'.sessionId = dev.sessionId)
    (htype : dev'.deviceType = dev.deviceType)
    (hbp : dev.deviceType = .bpDevice → dev'.length = bpLen ∧ dev'.type = bpType) :
    Ok ownerOf { st with platform := st.platform.setDevice gettid fd dev' } := by
  have hmap : ∀ t f d, (st.platform.setDevice gettid fd dev').getDevice t f = some d →
      (t = gettid ∧ f = fd ∧ d = dev') ∨ st.platform.getDevice t f = some d := by
    intro t f d hd
    by_cases hk : (t, f) = (gettid, fd)
    · obtain ⟨rfl, rfl⟩ := Prod.mk.inj hk
      rw [Platform.getDevice_setDevice] at hd
      exact Or.inl ⟨rfl, rfl, (Option.some.inj hd).symm⟩
    · rw [Platform.getDevice_setDevice_ne _ _ _ _ hk] at hd
      exact Or.inr hd
  -- the breakpoint is the one that was there, with the range it had or a new one
  refine ⟨h.sessions.setDevice hdev hsame, ?_⟩
  intro t f d hd hd'
  rcases hmap t f d hd with ⟨rfl, rfl, rfl⟩ | hd
  · rw [htype] at hd'
    exact ⟨(h.breakpoint _ _ _ hdev hd').1, hbp hd'⟩
  · exact h.breakpoint t f d hd hd'

/-- `fd` may be cleared when no breakpoint is under it. -/
theorem Ok.setFd (h : Ok ownerOf st) {fd : ℤ}
    (hno : ∀ dev, st.platform.getDevice gettid (st.fd gettid) = some dev →
      dev.deviceType ≠ .bpDevice) : Ok ownerOf (st.setFd gettid fd) where
  sessions := h.sessions
  breakpoint := by
    intro t f dev hdev hbp
    have hb := h.breakpoint t f dev hdev hbp
    by_cases ht : t = gettid
    · subst ht
      rw [hb.1] at hdev
      exact absurd hbp (hno dev hdev)
    · refine ⟨?_, hb.2⟩
      show f = Function.update st.fd gettid fd t
      rw [Function.update_of_ne ht]
      exact hb.1

theorem watching_setFd (t : ℕ) (fd : ℤ) :
    (st.setFd gettid fd).watching t =
      if t = gettid then watchingOf fd (st.platform.getDevice gettid fd) else st.watching t := by
  unfold watching BpTool.setFd
  dsimp only
  by_cases ht : t = gettid
  · rw [if_pos ht, ht, Function.update_self]
  · rw [if_neg ht, Function.update_of_ne ht]

theorem watching_setDevice {fd : ℤ} {dev' : Device} (t : ℕ) :
    ({ st with platform := st.platform.setDevice gettid fd dev' } : BpTool).watching t =
      if t = gettid ∧ st.fd t = fd then watchingOf fd (some dev') else st.watching t := by
  unfold watching
  dsimp only
  by_cases hk : t = gettid ∧ st.fd t = fd
  · obtain ⟨rfl, rfl⟩ := hk
    rw [if_pos ⟨rfl, rfl⟩, Platform.getDevice_setDevice]
  · rw [if_neg hk, Platform.getDevice_setDevice_ne]
    intro e
    exact hk (Prod.mk.inj e)

theorem watchingOf_breakpoint {fd : ℤ} {dev : Device} (hfd : fd ≠ -1)
    (hbp : dev.deviceType = .bpDevice) :
    watchingOf fd (some dev) = .on dev.address dev.isDisabled := by
  unfold watchingOf
  rw [if_neg hfd]
  exact if_pos hbp

/-- The breakpoint of a thread, moved or not. -/
theorem Ok.moved (h : Ok ownerOf st) {dev : Device} (hfd : st.fd gettid ≠ -1)
    (hdev : st.platform.getDevice gettid (st.fd gettid) = some dev)
    (hbp : dev.deviceType = .bpDevice) (addr : UInt64) (ans : UpdateAnswers) :
    Does ownerOf st gettid [.sampled addr (ans.agentOk || ans.ioctlOk)] { st with
      platform := st.platform.setDevice gettid (st.fd gettid)
        (dev.updateBPAddress bpLen bpType addr ans).2 } := by
  have hb := (h.breakpoint gettid _ dev hdev hbp).2
  -- the device is the thread's breakpoint, so it is what is watched
  have hold : st.watching gettid = .on dev.address dev.isDisabled := by
    show watchingOf _ (st.platform.getDevice _ _) = _
    rw [hdev, watchingOf_breakpoint hfd hbp]
  obtain ⟨upd, hupd⟩ : ∃ upd, upd = (dev.updateBPAddress bpLen bpType addr ans).2 := ⟨_, rfl⟩
  -- a move that succeeds sets the new address, and one that fails changes nothing
  have hnew : upd.sessionId = dev.sessionId ∧ upd.deviceType = .bpDevice ∧ upd.length = bpLen ∧
      upd.type = bpType ∧ Watching.on upd.address upd.isDisabled =
        (st.watching gettid).next (.sampled addr (ans.agentOk || ans.ioctlOk)) := by
    rw [hupd, hold]
    unfold Device.updateBPAddress Watching.next
    cases ans.agentOk || ans.ioctlOk with
    | true => exact ⟨rfl, hbp, rfl, rfl, rfl⟩
    | false => exact ⟨rfl, hbp, hb.1, hb.2, rfl⟩
  obtain ⟨hsess, htype, hlen, hty, hwatch⟩ := hnew
  rw [← hupd]
  refine ⟨h.setDevice hdev hsess (htype.trans hbp.symm) fun _ => ⟨hlen, hty⟩, ?_, ?_⟩
  · rw [watching_setDevice, if_pos ⟨rfl, rfl⟩, watchingOf_breakpoint hfd htype, hwatch]
    rfl
  · intro t ht
    rw [watching_setDevice, if_neg fun e => ht e.1]

/-- `fd` names no breakpoint: it is cleared, whatever was sampled. -/
theorem Ok.cleared (h : Ok ownerOf st) (hfd : st.fd gettid ≠ -1)
    (hno : ∀ dev, st.platform.getDevice gettid (st.fd gettid) = some dev →
      dev.deviceType ≠ .bpDevice) (addr : UInt64) (b : Bool) :
    Does ownerOf st gettid [.sampled addr b] (st.setFd gettid (-1)) where
  ok := h.setFd hno
  self := by
    have hstale : st.watching gettid = .stale := by
      unfold watching watchingOf
      rw [if_neg hfd]
      cases hdev : st.platform.getDevice gettid (st.fd gettid) with
      | none => rfl
      | some dev => exact if_neg (hno dev hdev)
    rw [watching_setFd, if_pos rfl, hstale]
    rfl
  other := by
    intro t ht
    rw [watching_setFd, if_neg ht]

/-- The kernel does not take the first breakpoint of a thread. -/
theorem Ok.refused (h : Ok ownerOf st) {ret : ℤ} {bpdev : Device} {p : Platform} {addr : UInt64}
    {ans : RegisterAnswers} (hfd : st.fd gettid = -1) (hlive : st.inSession gettid = true)
    (hfresh : ans.perfEventOpen ∉ st.platform.kernel.openFds)
    (hr : st.platform.registerDevice gettid (BPDevice bpLen bpType addr)
      (st.platform.sessionKey gettid) ans = .ok (ret, bpdev, p)) (hb : ans.accepted = false) :
    Does ownerOf st gettid [.sampled addr false] { st with platform := p } := by
  have hsame : ∀ t fd, p.getDevice t fd = st.platform.getDevice t fd := by
    intro t fd
    rw [Platform.getDevice_registerDevice hr, hb, if_neg fun e => Bool.false_ne_true e.1]
  have hwatch : ∀ t, BpTool.watching { st with platform := p } t = st.watching t :=
    fun t => watching_congr st { st with platform := p } rfl (hsame _ _)
  have hidle : st.watching gettid = .idle := if_pos hfd
  refine ⟨⟨h.sessions.registerDevice hlive hfresh hr, ?_⟩, ?_, fun t _ => hwatch t⟩
  · intro t fd dev hdev
    exact h.breakpoint t fd dev (hsame t fd ▸ hdev)
  · rw [hwatch, hidle]
    rfl

/-- The first breakpoint of a thread. -/
theorem Ok.set (h : Ok ownerOf st) {ret : ℤ} {bpdev : Device} {p : Platform} {addr : UInt64}
    {ans : RegisterAnswers} (hfd : st.fd gettid = -1) (hlive : st.inSession gettid = true)
    (hfresh : ans.perfEventOpen ∉ st.platform.kernel.openFds)
    (hr : st.platform.registerDevice gettid (BPDevice bpLen bpType addr)
      (st.platform.sessionKey gettid) ans = .ok (ret, bpdev, p)) (hb : ans.accepted = true) :
    Does ownerOf st gettid [.sampled addr true]
      ({ st with platform := p }.setFd gettid ans.perfEventOpen) := by
  -- the thread had no breakpoint, since `fd` named none
  have hnone : ∀ fd dev, st.platform.getDevice gettid fd = some dev →
      dev.deviceType ≠ .bpDevice := by
    intro fd dev hdev hbp
    have hnamed := (h.breakpoint gettid fd dev hdev hbp).1
    exact h.sessions.handle gettid fd dev hdev (hnamed.trans hfd)
  have hidle : st.watching gettid = .idle := if_pos hfd
  refine ⟨⟨h.sessions.registerDevice hlive hfresh hr, ?_⟩, ?_, ?_⟩
  · intro t fd dev hdev hbp
    show fd = Function.update st.fd gettid ans.perfEventOpen t ∧ _
    rcases Platform.device_of_registerDevice hr hdev with ⟨-, rfl, rfl, rfl⟩ | hold
    · rw [Function.update_self]
      exact ⟨rfl, rfl, rfl⟩
    · by_cases ht : t = gettid
      · subst ht
        exact absurd hbp (hnone fd dev hold)
      · rw [Function.update_of_ne ht]
        exact h.breakpoint t fd dev hold hbp
  · rw [watching_setFd, if_pos rfl, hidle]
    show watchingOf _ (p.getDevice _ _) = _
    rw [Platform.getDevice_registerDevice hr, if_pos ⟨hb, rfl, rfl⟩,
      watchingOf_breakpoint (RegisterAnswers.accepted_handle hb) rfl]
    rfl
  · intro t ht
    rw [watching_setFd, if_neg ht]
    exact watching_congr st { st with platform := p } rfl
      (Platform.getDevice_registerDevice_ne hr ht _)

theorem Ok.placed (h : Ok ownerOf st) {ret : ℤ} {bpdev : Device} {p : Platform} {addr : UInt64}
    {ans : RegisterAnswers} (hfd : st.fd gettid = -1) (hlive : st.inSession gettid = true)
    (hfresh : ans.perfEventOpen ∉ st.platform.kernel.openFds)
    (hr : st.platform.registerDevice gettid (BPDevice bpLen bpType addr)
      (st.platform.sessionKey gettid) ans = .ok (ret, bpdev, p)) :
    Does ownerOf st gettid [.sampled addr ans.accepted]
      (if ret ≠ 0 then { st with platform := p }
        else { st with platform := p }.setFd gettid bpdev.deviceFileId) := by
  have hacc := (Platform.registerDevice_accepted hr).1
  cases hb : ans.accepted with
  | false =>
    rw [if_pos fun hret => Bool.false_ne_true (hb.symm.trans (hacc.mp hret))]
    exact h.refused hfd hlive hfresh hr hb
  | true =>
    have hret : ret = 0 := hacc.mpr hb
    -- the handle of the new device goes into `fd`
    rcases Platform.registerDevice_cases hr with ⟨-, hid, -⟩ | ⟨hbad, -⟩
    · rw [if_neg (not_not_intro hret), hid]
      exact h.set hfd hlive hfresh hr hb
    · rw [hret] at hbad
      exact absurd hbad (by decide)

/-- **A sample.** -/
theorem Ok.sample (h : Ok ownerOf st) {event : RawEvent} {ans : BpAnswers}
    (hlive : st.inSession gettid = true)
    (hfresh : ans.register.perfEventOpen ∉ st.platform.kernel.openFds)
    (hs : st.toolPEBSEventHandler gettid event ans = .running () st') :
    Does ownerOf st gettid (if event.h_data_addr = 0 then [] else
      [.sampled event.h_data_addr (if st.fd gettid = -1 then ans.register.accepted
        else ans.update.agentOk || ans.update.ioctlOk)]) st' := by
  unfold toolPEBSEventHandler at hs
  -- a sample without an address is dropped
  by_cases haddr : event.h_data_addr = 0
  · rw [if_pos haddr] at hs ⊢
    obtain rfl := (Outcome.running.inj hs).2
    exact ⟨h, rfl, fun _ _ => rfl⟩
  rw [if_neg haddr] at hs ⊢
  -- no breakpoint yet: one is registered, or the kernel refuses it
  by_cases hfd : st.fd gettid = -1
  · rw [if_pos hfd] at hs ⊢
    split at hs
    · cases hs
    next ret bpdev p hr =>
      have hplaced := h.placed hfd hlive hfresh hr
      by_cases hret : ret ≠ 0
      · rw [if_pos hret] at hs hplaced
        obtain rfl := (Outcome.running.inj hs).2
        exact hplaced
      · rw [if_neg hret] at hs hplaced
        obtain rfl := (Outcome.running.inj hs).2
        exact hplaced
  rw [if_neg hfd] at hs ⊢
  cases hdev : st.platform.getDevice gettid (st.fd gettid) with
  -- `fd` names a device that is gone
  | none =>
    rw [hdev] at hs
    obtain rfl := (Outcome.running.inj hs).2
    exact h.cleared hfd (fun dev hd => by rw [hdev] at hd; cases hd) _ _
  | some dev =>
    rw [hdev] at hs
    dsimp only at hs
    -- the device under the handle may be another one by now
    by_cases hbp : dev.deviceType = .bpDevice
    · rw [if_pos hbp] at hs
      obtain rfl := (Outcome.running.inj hs).2
      exact h.moved hfd hdev hbp _ _
    · rw [if_neg hbp] at hs
      obtain rfl := (Outcome.running.inj hs).2
      refine h.cleared hfd (fun d hd => ?_) _ _
      rw [hdev] at hd
      obtain rfl := Option.some.inj hd
      exact hbp

/-- A trap of the breakpoint. -/
theorem Ok.fired (h : Ok ownerOf st) {fd : ℤ} {dev : Device}
    (hdev : st.platform.getDevice gettid fd = some dev) (hbp : dev.deviceType = .bpDevice) :
    Does ownerOf st gettid [.fired] (st.toolBPEventHandler gettid fd dev) := by
  obtain ⟨hnamed, hb⟩ := h.breakpoint gettid fd dev hdev hbp
  have hfd : fd ≠ -1 := h.sessions.handle gettid fd dev hdev
  refine ⟨h.setDevice hdev rfl rfl fun _ => hb, ?_, ?_⟩
  · have hold : st.watching gettid = .on dev.address dev.isDisabled := by
      show watchingOf _ (st.platform.getDevice _ _) = _
      rw [← hnamed, hdev, watchingOf_breakpoint hfd hbp]
    unfold toolBPEventHandler
    rw [watching_setDevice, if_pos ⟨rfl, hnamed.symm⟩, hold]
    have hended : dev.endDevice.deviceType = .bpDevice := hbp
    exact watchingOf_breakpoint hfd hended
  · intro t ht
    unfold toolBPEventHandler
    rw [watching_setDevice, if_neg fun e => ht e.1]

/-- **The end of a session** takes all devices of the thread. -/
theorem Ok.sessionExit (h : Ok ownerOf st) {ans : ℤ → RemoveAnswers}
    (hlive : st.inSession gettid = true)
    (hs : st.toolSessionExit gettid ans = .running () st') :
    Does ownerOf st gettid [.sessionEnded] st' := by
  unfold toolSessionExit at hs
  split at hs
  · cases hs
  next calls p hr =>
  obtain rfl := (Outcome.running.inj hs).2
  obtain ⟨hsessions, hself, hother⟩ := h.sessions.sessionExit hlive hr
  refine ⟨⟨hsessions, ?_⟩, ?_, ?_⟩
  · intro t fd dev hdev
    have ht : t ≠ gettid := by
      rintro rfl
      exact absurd ((hself fd).symm.trans hdev) nofun
    exact h.breakpoint t fd dev (hother t ht fd ▸ hdev)
  · -- what `fd` names is gone
    show watchingOf (st.fd gettid) (p.getDevice gettid (st.fd gettid)) = _
    rw [hself]
    unfold watching watchingOf
    split
    · rfl
    · cases hdev : st.platform.getDevice gettid (st.fd gettid) with
      | none => rfl
      | some dev =>
        dsimp only
        split <;> rfl
  · intro t ht
    exact watching_congr st _ rfl (hother t ht _)

/-- **One step** keeps the devices of every thread in order. -/
theorem Ok.step (h : Ok ownerOf st) {op : BpOp} (hu : Used ownerOf st op)
    (hs : st.step op = .running () st') : Does ownerOf st op.gettid (seen st op) st' := by
  cases op with
  | sessionInit gettid ans => exact h.sessionInit hu hs
  | sessionExit gettid ans => exact h.sessionExit hu hs
  | signal gettid si_fd event ans =>
    have hs' : st.toolEventHandler gettid si_fd event ans = .running () st' := hs
    unfold toolEventHandler at hs'
    unfold seen BpOp.gettid
    dsimp only
    cases hdev : st.platform.getDevice gettid si_fd with
    | none =>
      rw [hdev] at hs'
      obtain rfl := (Outcome.running.inj hs').2
      exact ⟨h, rfl, fun _ _ => rfl⟩
    | some dev =>
      rw [hdev] at hs'
      dsimp only [Option.map_some] at hs' ⊢
      -- by the device that raised the signal
      cases htype : dev.deviceType with
      | pebsDevice =>
        rw [htype] at hs'
        exact h.sample (h.sessions.session gettid si_fd dev hdev).1 hu hs'
      | bpDevice =>
        rw [htype] at hs'
        obtain rfl := (Outcome.running.inj hs').2
        exact h.fired hdev htype
      | ebsDevice =>
        rw [htype] at hs'
        obtain rfl := (Outcome.running.inj hs').2
        exact ⟨h, rfl, fun _ _ => rfl⟩

end Step

/-! ### Runs -/

theorem history_of_run {ownerOf : ℤ → ℕ} {ops : List BpOp} {st st' : BpTool}
    (h : Ok ownerOf st) (hused : Along step (Used ownerOf) st ops)
    (hrun : exec step st ops = .running () st') :
    Ok ownerOf st' ∧
      ∀ t, st'.watching t = (history t st ops).foldl Watching.next (st.watching t) := by
  -- over the run; the history of a step is what the step tells the thread that it is of
  induction ops generalizing st with
  | nil =>
    obtain ⟨⟩ := hrun
    exact ⟨h, fun t => rfl⟩
  | cons op ops ih =>
    cases hs : st.step op with
    | ended e s => rw [exec_cons_ended _ hs] at hrun; cases hrun
    | running a s =>
      rw [exec_cons_running _ hs] at hrun
      have hdoes := h.step hused.1 hs
      obtain ⟨hok, hrest⟩ := ih hdoes.ok (hused.2 a s hs) hrun
      refine ⟨hok, fun t => ?_⟩
      rw [hrest, history, hs]
      dsimp only
      rw [List.foldl_append]
      by_cases ht : t = op.gettid
      · rw [if_pos ht, ht, hdoes.self]
      · rw [if_neg ht, hdoes.other t ht]
        rfl

/-- **What the tool watches.** After every run, the breakpoint of every thread does what the
history of the thread says. It is the only breakpoint of the thread, and a thread has devices in
a session only, all of them registered for it. -/
theorem watches_of_run (ownerOf : ℤ → ℕ) (ops : List BpOp) (st : BpTool)
    (hused : Along step (Used ownerOf) init ops) (hrun : exec step init ops = .running () st) :
    (∀ t, st.watching t = (history t init ops).foldl Watching.next .idle) ∧
    (∀ t fd dev, st.platform.getDevice t fd = some dev → dev.deviceType = .bpDevice →
      fd = st.fd t ∧ dev.length = bpLen ∧ dev.type = bpType) ∧
    ∀ t fd dev, st.platform.getDevice t fd = some dev →
      st.inSession t = true ∧ dev.sessionId = st.platform.sessionKey t := by
  obtain ⟨hok, hhistory⟩ := history_of_run Ok.init hused hrun
  exact ⟨hhistory, hok.breakpoint, hok.sessions.session⟩

/-- A sample of an address. -/
def sampleAt (addr : UInt64) : RawEvent := { RawEvent.new with h_data_addr := addr }

/-- All system calls succeed, and `perf_event_open` returns `fd`. -/
def opens (fd : ℤ) : RegisterAnswers := ⟨fd, true, true, true, true, true, true⟩

/-- A breakpoint is set, fires and is moved; the first sample of the next session is lost on the
handle of the last one. -/
def twoSessions : List BpOp :=
  [.sessionInit 5 (opens 7), .signal 5 7 (sampleAt 64) ⟨opens 8, ⟨false, true⟩⟩,
    .signal 5 8 (sampleAt 64) ⟨opens 9, ⟨false, true⟩⟩,
    .signal 5 7 (sampleAt 128) ⟨opens 9, ⟨false, true⟩⟩, .sessionExit 5 fun _ => ⟨true, true⟩,
    .sessionInit 5 (opens 7), .signal 5 7 (sampleAt 192) ⟨opens 8, ⟨false, true⟩⟩]

theorem used_twoSessions : Along step (Used fun _ => 5) init twoSessions := by
  refine .cons ⟨rfl, rfl, List.not_mem_nil⟩ rfl (.cons ?_ rfl (.cons ?_ rfl (.cons ?_ rfl
    (.cons rfl rfl (.cons ⟨rfl, rfl, ?_⟩ rfl (.cons ?_ rfl trivial))))))
  · show (8 : ℤ) ∉ [7]
    decide
  · show (9 : ℤ) ∉ [8, 7]
    decide
  · show (9 : ℤ) ∉ [8, 7]
    decide
  · show (7 : ℤ) ∉ []
    decide
  · show (8 : ℤ) ∉ [7]
    decide

theorem watches_twoSessions : (exec step init twoSessions).state.watching 5 = .idle :=
  ((watches_of_run (fun _ => 5) twoSessions _ used_twoSessions rfl).1 5).trans rfl

end BpTool

end Kognizance
