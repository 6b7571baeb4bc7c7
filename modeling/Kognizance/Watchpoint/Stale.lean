import Kognizance.Watchpoint.Steps

/-!
# A trigger that arrives late

Moving a breakpoint in place keeps its handle, so a trigger for the old address
can arrive after the slot has moved on. `OnWatchPoint` means to drop it: it jumps
to the cleanup, after one message for each bad address. But an `exit(0)` stands
before the jump.

* `dropped_iff`: a trigger that matches no active slot leaves the tables, the
  devices and the logic alone, and the process running, exactly when the thread
  has no table.
* `stale_dropped_iff`: so every stale trigger of a run is dropped exactly when each
  of them finds its thread without a table.
* `staleTrigger_exits`: two subscriptions and a late trigger end the process.
-/

namespace Kognizance

open Process

section

variable {L : Type}

/-- The call returns, with the slot tables, the devices and the logic as they
were. -/
def Dropped (T : Tool L) (w : World L) (tid : ℕ) (fd : ℤ) (event : Event)
    (ans : TriggerAnswers) : Prop :=
  ∃ ret w', onWatchPoint T w tid fd event ans = .running ret w' ∧
    w'.tData = w.tData ∧ w'.platform = w.platform ∧ w'.logic = w.logic

/-- The trigger matches no active slot of the thread. -/
def Stale (T : Tool L) (w : World L) (tid : ℕ) (fd : ℤ) (event : Event) : Prop :=
  ∀ td, w.tData tid = some td → Unmatched T td.watchPointArray fd event

/-- Without a table there is nothing to search, and the event is deleted. -/
theorem dropped_of_noTable {T : Tool L} {w : World L} {tid : ℕ} {fd : ℤ} {event : Event}
    {ans : TriggerAnswers} (h : w.tData tid = none) : Dropped T w tid fd event ans := by
  refine ⟨0, w.note [.delete event], ?_, rfl, rfl, rfl⟩
  unfold onWatchPoint
  rw [h]

/-- With a table, a trigger that matches no active slot does not return. -/
theorem stale_not_returns {T : Tool L} {w w' : World L} {tid : ℕ} {fd ret : ℤ} {event : Event}
    {ans : TriggerAnswers} {td : WPThreadData} (htd : w.tData tid = some td)
    (hun : Unmatched T td.watchPointArray fd event) :
    onWatchPoint T w tid fd event ans ≠ .running ret w' := by
  intro h
  cases onWatchPoint_cases h with
  | noTable hnone =>
    rw [htd] at hnone
    cases hnone
  | fired td₀ td' i e p' seen htd₀ hfire hseen hact =>
    obtain rfl := Option.some.inj (htd.symm.trans htd₀)
    exact hun i e hfire

/-- A stale trigger is dropped exactly when the thread has no table. -/
theorem dropped_iff (T : Tool L) (w : World L) (tid : ℕ) (fd : ℤ) (event : Event)
    (ans : TriggerAnswers) (hstale : Stale T w tid fd event) :
    Dropped T w tid fd event ans ↔ w.tData tid = none := by
  refine ⟨fun ⟨ret, w', h, _⟩ => ?_, dropped_of_noTable⟩
  cases htd : w.tData tid with
  | none => rfl
  | some td => exact absurd h (stale_not_returns htd (hstale td htd))

/-- The call, if it is a stale trigger, is dropped. -/
def StaleDropped (T : Tool L) (w : World L) : Op → Prop
  | .onWatchPoint tid fd event ans => Stale T w tid fd event → Dropped T w tid fd event ans
  | _ => True

/-- The call, if it is a stale trigger, finds its thread without a table. -/
def StaleOnIdle (T : Tool L) (w : World L) : Op → Prop
  | .onWatchPoint tid fd event _ => Stale T w tid fd event → w.tData tid = none
  | _ => True

theorem staleDropped_iff (T : Tool L) (w : World L) (op : Op) :
    StaleDropped T w op ↔ StaleOnIdle T w op := by
  cases op with
  | onWatchPoint tid fd event ans =>
    exact forall_congr' fun hstale => dropped_iff T w tid fd event ans hstale
  | threadInit | subscribe | threadTerminate | pause | resume | devices => exact Iff.rfl

/-- **Every stale trigger of a run is dropped exactly when none of them finds a
table.** The run may re-arm slots and deliver triggers in any order. -/
theorem stale_dropped_iff (T : Tool L) (p : Platform) (logic : L) (ops : List Op) :
    Along (step T) (StaleDropped T) (World.fresh p logic) ops ↔
      Along (step T) (StaleOnIdle T) (World.fresh p logic) ops :=
  ⟨.mono fun w op => (staleDropped_iff T w op).mp, .mono fun w op => (staleDropped_iff T w op).mpr⟩

end

/-! ### A re-armed slot -/

/-- One slot, subscribed at `0x1000` and then moved to `0x2000`. -/
def movedSlotRun : List Op :=
  [.threadInit 1 (.success none), .subscribe 1 (.storeAt 1 0x1000) (.success 3),
    .subscribe 1 (.storeAt 2 0x2000) (.success 4)]

def movedSlot : World Unit :=
  (exec (step (Tool.always true 1 .disable)) (World.fresh .idle ()) movedSlotRun).state

/-- The late trigger for the old address matches no active slot. -/
theorem movedSlot_stale :
    Stale (Tool.always true 1 .disable) movedSlot 1 3 (.storeAt 5 0x1000) := by
  have haddr : (movedSlot.tData 1).bind (fun td => (td.watchPointArray 0).sampledEvent.map
      (·.data_addr)) = some 0x2000 := by
    decide +kernel
  intro td htd i e hfire
  obtain rfl : i = 0 := Nat.lt_one_iff.mp hfire.lt
  simp only [htd, Option.bind_some, hfire.holds, Option.map_some] at haddr
  have hold : e.data_addr = 0x1000 := hfire.addr
  rw [hold] at haddr
  exact absurd haddr (by decide)

/-- **The late trigger ends the process.** -/
theorem staleTrigger_exits :
    let T := Tool.always true 1 .disable
    let late := Op.onWatchPoint 1 3 (.storeAt 5 0x1000) .success
    exec (step T) (World.fresh .idle ()) movedSlotRun = .running () movedSlot ∧
      (step T movedSlot late).halt = some .exit ∧ ¬ StaleDropped T movedSlot late := by
  intro T late
  have hrun : (exec (step T) (World.fresh .idle ()) movedSlotRun).value = some () := by
    decide +kernel
  have hexit : (step T movedSlot late).halt = some .exit := by
    decide +kernel
  refine ⟨Outcome.eq_running hrun, hexit, fun h => ?_⟩
  obtain ⟨ret, w', hret, -⟩ := h movedSlot_stale
  have hstep : step T movedSlot late = .running ret w' := hret
  rw [hstep] at hexit
  cases hexit

end Kognizance
