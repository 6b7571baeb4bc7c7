import Kognizance.Platform.MapsAgree
import Kognizance.Platform.SignalHandler

/-!
# Which thread a device signals

`registerDevice` names the thread that receives the signals of a device in
`f_owner_ex.pid`, and enters the device into `deviceMap` under the thread that
registers it. The handler looks the device up under the thread it runs on, so it
finds the device when the two are the same thread.
-/

namespace Kognizance

open Process

namespace Registry

/-- The owner of every registered device is the process. -/
def OwnedByProcess (getpid : ℕ) (st : Registry) : Prop :=
  ∀ t fd, st.platform.getDevice t fd ≠ none → st.fOwnerEx fd = getpid

/-- Every operation keeps it: a new device is given to the process, no other step
writes an owner. -/
theorem OwnedByProcess.step {getpid : ℕ} {st st' : Registry} (h : OwnedByProcess getpid st)
    {op : SessionOp} (hs : Registry.step getpid st op = .running () st') :
    OwnedByProcess getpid st' := by
  intro t fd hfd
  rcases step_entered hs hfd with ⟨hold, hown⟩ | ⟨gettid, dev, sId, ans, -, hown, -⟩
  · exact hown.trans (h t fd hold)
  · exact hown

/-- **Which devices get their own events.** In every state a run reaches, the handler
that runs for a device of thread `t` is on the main thread: it finds the device when
`t` is the main thread, and no device at all when `t` is another one. -/
theorem handler_finds_iff (ownerOf : ℤ → ℕ) (getpid : ℕ) (p : Platform) (fOwnerEx : ℤ → ℕ)
    (ops : List SessionOp) (st : Registry)
    (hused : Along (Registry.step getpid) (Used ownerOf) (init p fOwnerEx) ops)
    (hrun : exec (Registry.step getpid) (init p fOwnerEx) ops = .running () st)
    (t : ℕ) (fd : ℤ) (dev : Device) (hdev : st.platform.getDevice t fd = some dev) :
    (st.platform.getDevice (st.fOwnerEx fd) fd = some dev ↔ t = getpid) ∧
    (st.platform.getDevice (st.fOwnerEx fd) fd = none ↔ t ≠ getpid) := by
  have hagree := agree_of_run hused hrun
  have hinit : OwnedByProcess getpid (init p fOwnerEx) := fun t fd hfd => absurd rfl hfd
  have hown : st.fOwnerEx fd = getpid :=
    exec_invariant (I := OwnedByProcess getpid) (C := Used ownerOf)
      (fun _ _ _ _ h _ hs => h.step hs) hinit hused hrun t fd (hdev ▸ Option.some_ne_none dev)
  rw [hown]
  by_cases ht : t = getpid
  · subst ht
    simp [hdev]
  · -- the handle has one holder, and that is not the main thread
    have hnone : st.platform.getDevice getpid fd = none := by
      cases hmain : st.platform.getDevice getpid fd with
      | none => rfl
      | some dev' =>
        exact absurd (hagree.index.unique t getpid fd _ _
          (Platform.sessionOf_eq_some.mpr ⟨dev, hdev, rfl⟩)
          (Platform.sessionOf_eq_some.mpr ⟨dev', hmain, rfl⟩)) ht
    simp [hnone, ht]

theorem handler_finds_oneDevice :
    (oneDeviceRegistry 5).platform.getDevice ((oneDeviceRegistry 5).fOwnerEx 7) 7 =
      some { BPDevice 1 1 64 with deviceFileId := 7, sessionId := 0 } :=
  (handler_finds_iff (fun _ => 5) 5 ⟨∅, [], fun _ => 0, ⟨[], []⟩⟩ (fun _ => 0) oneDevice _
    (.cons ⟨rfl, List.not_mem_nil⟩ rfl (.cons trivial rfl trivial)) rfl 5 7 _ rfl).1.mpr rfl

/-- In process 1, thread 5 registers a device: its signal goes to thread 1, which finds
no device. -/
theorem handler_misses_oneDevice :
    Along (Registry.step 1) (Used fun _ => 5) (init ⟨∅, [], fun _ => 0, ⟨[], []⟩⟩ fun _ => 0)
      oneDevice ∧
    (oneDeviceRegistry 1).platform.getDevice 5 7 =
      some { BPDevice 1 1 64 with deviceFileId := 7, sessionId := 0 } ∧
    ¬ (oneDeviceRegistry 1).platform.getDevice ((oneDeviceRegistry 1).fOwnerEx 7) 7 =
      some { BPDevice 1 1 64 with deviceFileId := 7, sessionId := 0 } :=
  ⟨.cons ⟨rfl, List.not_mem_nil⟩ rfl (.cons trivial rfl trivial), rfl, by decide⟩

end Registry

end Kognizance
