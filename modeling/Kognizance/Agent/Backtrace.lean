import Kognizance.Agent.NativeAgent

/-!
# Which frames the native agent keeps

The loop of `agent_retrieveBacktrace`, over an arbitrary `getStartAddress`. It drops what lies
before the signal frame, what has no known function, and every function that it has kept already.

* `kept` is what is to be kept of a stack, and `kept_nodup` says that no function is kept twice.
* `unwindStepBy_eq`: in one round the test of `parent_context_ip` decides nothing.
* `backtrace_filtered`: the frames appended are those to be kept, and all others are deleted.
-/

namespace Kognizance

namespace NativeAgent

/-! ### What is to be kept -/

/-- The frames with a known function that is not `seen` and does not occur among those before. -/
def kept (getStartAddress : ℤ → ℤ) : List ℤ → List UnwStep → List UnwStep
  | _, [] => []
  | seen, step :: steps =>
    if getStartAddress (toLong step.ip) = -1 ∨ getStartAddress (toLong step.ip) ∈ seen then
      kept getStartAddress seen steps
    else step :: kept getStartAddress (getStartAddress (toLong step.ip) :: seen) steps

/-- The address a frame is recorded with. -/
def recordedFrame (h_ip_addr : UInt64) (step : UnwStep) : ContextFrame where
  binary_addr := if step.signalFrame then toLong h_ip_addr else toLong step.ip
  src_lineno := 0

variable {getStartAddress : ℤ → ℤ} {h_ip_addr : UInt64} {s : Backtrace}

/-- What is kept has functions that are new. -/
theorem not_mem_of_kept (seen : List ℤ) (steps : List UnwStep) :
    ∀ step ∈ kept getStartAddress seen steps,
      getStartAddress (toLong step.ip) ≠ -1 ∧ getStartAddress (toLong step.ip) ∉ seen := by
  induction steps generalizing seen with
  | nil => simp [kept]
  | cons first steps ih =>
    unfold kept
    by_cases hdrop : getStartAddress (toLong first.ip) = -1 ∨
        getStartAddress (toLong first.ip) ∈ seen
    · rw [if_pos hdrop]
      exact ih seen
    · rw [if_neg hdrop]
      intro step hstep
      rcases List.mem_cons.mp hstep with rfl | hstep
      · exact not_or.mp hdrop
      · obtain ⟨hknown, hseen⟩ := ih _ step hstep
        exact ⟨hknown, fun h => hseen (List.mem_cons_of_mem _ h)⟩

/-- No function is kept twice. -/
theorem kept_nodup (seen : List ℤ) (steps : List UnwStep) :
    ((kept getStartAddress seen steps).map fun step => getStartAddress (toLong step.ip)).Nodup := by
  induction steps generalizing seen with
  | nil => simp [kept]
  | cons first steps ih =>
    unfold kept
    by_cases hdrop : getStartAddress (toLong first.ip) = -1 ∨
        getStartAddress (toLong first.ip) ∈ seen
    · rw [if_pos hdrop]
      exact ih seen
    · rw [if_neg hdrop, List.map_cons, List.nodup_cons]
      refine ⟨fun hmem => ?_, ih _⟩
      obtain ⟨step, hstep, heq⟩ := List.mem_map.mp hmem
      exact (not_mem_of_kept _ steps step hstep).2 (heq ▸ List.mem_cons_self)

/-! ### The loop -/

/-- The last frame appended is one of a function that is remembered. -/
def Backtrace.ParentKnown (getStartAddress : ℤ → ℤ) (s : Backtrace) : Prop :=
  s.parent_context_ip = -1 ∨ getStartAddress s.parent_context_ip ∈ s.map_for_recursion

/-- What a round leaves when it appends the frame. -/
def Backtrace.appended (getStartAddress : ℤ → ℤ) (h_ip_addr : UInt64) (s : Backtrace)
    (step : UnwStep) : Backtrace where
  inSignalFrame := false
  parent_context_ip := toLong step.ip
  map_for_recursion := getStartAddress (toLong step.ip) :: s.map_for_recursion
  eventContext_host := s.eventContext_host ++ [⟨s.constructed, recordedFrame h_ip_addr step⟩]
  constructed := s.constructed + 1
  deleted := s.deleted

/-- What a round leaves when it deletes the frame. -/
def Backtrace.dropped (s : Backtrace) (step : UnwStep) : Backtrace :=
  { s with
    inSignalFrame := s.inSignalFrame && !step.signalFrame
    constructed := s.constructed + 1
    deleted := s.constructed :: s.deleted }

/-- **One round**: behind the signal frame, a frame is appended iff its function is known and
new. -/
theorem unwindStepBy_eq (h_ip_addr : UInt64) (h : s.ParentKnown getStartAddress) {step : UnwStep}
    (hip : toLong step.ip ≠ -1) :
    unwindStepBy getStartAddress h_ip_addr s step =
      if (s.inSignalFrame && !step.signalFrame) = false ∧
          ¬ (getStartAddress (toLong step.ip) = -1 ∨
            getStartAddress (toLong step.ip) ∈ s.map_for_recursion) then
        s.appended getStartAddress h_ip_addr step
      else s.dropped step := by
  unfold unwindStepBy
  dsimp only
  by_cases hsignal : (s.inSignalFrame && !step.signalFrame) = false
  · by_cases hknown : getStartAddress (toLong step.ip) = -1
    · rw [if_neg fun h => h.1 hknown, if_neg fun h => h.2 (Or.inl hknown)]
      rfl
    · by_cases hseen : getStartAddress (toLong step.ip) ∈ s.map_for_recursion
      · -- whatever the test of the parent says, the frame is deleted
        rw [if_pos hseen, ite_self, if_neg fun h => h.2 (Or.inr hseen)]
        rfl
      · have hparent : s.parent_context_ip ≠ toLong step.ip := by
          rintro heq
          rcases h with h | h
          · exact hip (heq.symm.trans h)
          · exact hseen (heq ▸ h)
        have htests : getStartAddress (toLong step.ip) ≠ -1 ∧
            (s.inSignalFrame && !step.signalFrame) = false ∧
            s.parent_context_ip ≠ toLong step.ip := ⟨hknown, hsignal, hparent⟩
        have hkept : (s.inSignalFrame && !step.signalFrame) = false ∧
            ¬ (getStartAddress (toLong step.ip) = -1 ∨
              getStartAddress (toLong step.ip) ∈ s.map_for_recursion) :=
          ⟨hsignal, not_or.mpr ⟨hknown, hseen⟩⟩
        rw [if_pos htests, if_neg hseen, if_pos hkept, hsignal]
        unfold Backtrace.appended recordedFrame
        -- a frame behind the signal frame has its own address
        cases hframe : step.signalFrame with
        | true => cases s.inSignalFrame <;> rfl
        | false =>
          have hinside : s.inSignalFrame = false := by simpa [hframe] using hsignal
          rw [hinside]
          rfl
  · rw [if_neg fun h => hsignal h.2.1, if_neg fun h => hsignal h.1]
    rfl

/-- The frames the loop still has to look at. -/
def ahead (inSignalFrame : Bool) (steps : List UnwStep) : List UnwStep :=
  if inSignalFrame then interrupted steps else steps

theorem ahead_of_before {inSignalFrame : Bool} {step : UnwStep}
    (h : (inSignalFrame && !step.signalFrame) = true) (steps : List UnwStep) :
    ahead inSignalFrame (step :: steps) = ahead true steps := by
  obtain ⟨rfl, hframe⟩ := Bool.and_eq_true_iff.mp h
  unfold ahead interrupted
  simp [hframe]

theorem ahead_of_behind {inSignalFrame : Bool} {step : UnwStep}
    (h : (inSignalFrame && !step.signalFrame) = false) (steps : List UnwStep) :
    ahead inSignalFrame (step :: steps) = step :: ahead false steps := by
  unfold ahead interrupted
  cases inSignalFrame with
  | false => rfl
  | true =>
    have hframe : step.signalFrame = true := by simpa using h
    simp [hframe]

/-- **The loop**: from `s` on, the frames appended are those to be kept, and each frame constructed
is either appended or deleted. -/
theorem loop_kept (h_ip_addr : UInt64) (h : s.ParentKnown getStartAddress) {steps : List UnwStep}
    (hip : ∀ step ∈ steps, toLong step.ip ≠ -1) :
    ∃ appended : List FramePtr,
      (steps.foldl (unwindStepBy getStartAddress h_ip_addr) s).eventContext_host =
        s.eventContext_host ++ appended ∧
      appended.map FramePtr.frame = (kept getStartAddress s.map_for_recursion
        (ahead s.inSignalFrame steps)).map (recordedFrame h_ip_addr) ∧
      (appended.map FramePtr.self ++
          (steps.foldl (unwindStepBy getStartAddress h_ip_addr) s).deleted).Perm
        (List.range' s.constructed steps.length ++ s.deleted) ∧
      (steps.foldl (unwindStepBy getStartAddress h_ip_addr) s).constructed =
        s.constructed + steps.length := by
  induction steps generalizing s with
  | nil =>
    have hnone : ahead s.inSignalFrame [] = [] := ite_self []
    exact ⟨[], (List.append_nil _).symm, by rw [hnone]; rfl, .refl _, rfl⟩
  | cons step steps ih =>
    have hstep := unwindStepBy_eq h_ip_addr h (hip step List.mem_cons_self)
    have hrest : ∀ step ∈ steps, toLong step.ip ≠ -1 :=
      fun step' hmem => hip step' (List.mem_cons_of_mem step hmem)
    rw [List.foldl_cons, hstep]
    split
    · next hkeep =>
      -- the frame is appended, and its function is seen from here on
      have hknown : (s.appended getStartAddress h_ip_addr step).ParentKnown getStartAddress :=
        Or.inr List.mem_cons_self
      obtain ⟨appended, hhost, hframes, hperm, hcount⟩ := ih hknown hrest
      refine ⟨⟨s.constructed, recordedFrame h_ip_addr step⟩ :: appended, ?_, ?_, ?_,
        hcount.trans (Nat.succ_add_eq_add_succ _ _)⟩
      · rw [hhost]
        exact List.append_assoc _ [_] _
      · rw [ahead_of_behind hkeep.1, kept, if_neg hkeep.2, List.map_cons, List.map_cons, hframes]
        rfl
      · rw [List.length_cons, List.range'_succ]
        exact hperm.cons s.constructed
    · next hdrop =>
      have hknown : (s.dropped step).ParentKnown getStartAddress := h
      obtain ⟨appended, hhost, hframes, hperm, hcount⟩ := ih hknown hrest
      refine ⟨appended, hhost, hframes.trans ?_, hperm.trans ?_,
        hcount.trans (Nat.succ_add_eq_add_succ _ _)⟩
      · unfold Backtrace.dropped
        cases hsignal : s.inSignalFrame && !step.signalFrame with
        | true => rw [ahead_of_before hsignal]
        | false =>
          have hseen := not_not.mp fun hnot => hdrop ⟨hsignal, hnot⟩
          rw [ahead_of_behind hsignal, kept, if_pos hseen]
      · rw [List.length_cons, List.range'_succ]
        exact List.perm_middle

theorem toLong_ne {ip : UInt64} (h : ip ≠ -1) : toLong ip ≠ -1 := by
  intro heq
  have hint : ip.toInt64.toInt = (-1 : UInt64).toInt64.toInt := heq
  exact h (congrArg Int64.toUInt64 (Int64.toInt_inj.mp hint))

/-- **The frames appended** are, in order, those from the signal frame on whose function is known
and has not been appended before. No function is appended twice, and each frame constructed is
appended or deleted once. -/
theorem backtrace_filtered (getStartAddress : ℤ → ℤ) (event : HostEvent) (steps : List UnwStep)
    (hip : ∀ step ∈ steps, step.ip ≠ -1) :
    ∃ appended : List FramePtr,
      (agentRetrieveBacktraceBy getStartAddress event steps).eventContext_host =
        event.eventContext_host ++ appended ∧
      appended.map FramePtr.frame =
        (kept getStartAddress [] (interrupted steps)).map (recordedFrame event.h_ip_addr) ∧
      ((kept getStartAddress [] (interrupted steps)).map
        fun step => getStartAddress (toLong step.ip)).Nodup ∧
      (agentRetrieveBacktraceBy getStartAddress event steps).constructed = steps.length ∧
      (appended.map FramePtr.self ++
          (agentRetrieveBacktraceBy getStartAddress event steps).deleted).Perm
        (List.range steps.length) := by
  have hstart : Backtrace.ParentKnown getStartAddress
      ⟨true, -1, [], event.eventContext_host, 0, []⟩ := Or.inl rfl
  unfold agentRetrieveBacktraceBy
  obtain ⟨appended, hhost, hframes, hperm, hcount⟩ :=
    loop_kept event.h_ip_addr hstart fun step hstep => toLong_ne (hip step hstep)
  rw [List.append_nil, ← List.range_eq_range'] at hperm
  exact ⟨appended, hhost, hframes, kept_nodup [] _, hcount.trans (Nat.zero_add _), hperm⟩

/-- Two functions of 4096 bytes, and a library. -/
def pageStart (addr : ℤ) : ℤ := if addr < 0x3000 then addr / 0x1000 * 0x1000 else -1

/-- The handler, a function that was interrupted, a library, the function's caller, which is the
function itself, and another one. -/
def recursiveStack : List UnwStep :=
  [⟨0x2800, false⟩, ⟨0x1010, true⟩, ⟨0x7000, false⟩, ⟨0x1020, false⟩, ⟨0x2100, false⟩]

/-- An event with a precise address. -/
def preciseEvent : HostEvent := .parsed { RawEvent.new with h_ip_addr := 0x1008 }

theorem backtrace_filtered_recursive :
    (agentRetrieveBacktraceBy pageStart preciseEvent recursiveStack).eventContext_host.map
      FramePtr.frame = [⟨0x1008, 0⟩, ⟨0x2100, 0⟩] := by
  obtain ⟨appended, hhost, hframes, -⟩ :=
    backtrace_filtered pageStart preciseEvent recursiveStack (by decide)
  rw [hhost, List.map_append, hframes]
  decide

end NativeAgent

end Kognizance
