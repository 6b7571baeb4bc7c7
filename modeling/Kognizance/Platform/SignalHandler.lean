import Kognizance.Platform.Device

/-!
# The signal handler of the devices

`generic_dev_signal_handler` as one call, on the two thread-local flags
`signalUnsafe` and `inSignalHandler`. The device's own handler is a parameter: it
may allocate, so it may write the flags. `sa_mask` blocks every signal while the
handler runs, so a call is not interrupted by another one on the same thread.
-/

namespace Kognizance

/-- The thread-local flags that guard the handler. -/
structure ThreadLocals where
  signalUnsafe : Bool
  inSignalHandler : Bool
  deriving DecidableEq, Repr

/-- The flags of a new thread. -/
def ThreadLocals.init : ThreadLocals := ⟨false, false⟩

/-- What the handler calls. -/
inductive HandlerCall
  | pauseAllDevices
  | resumeAllDevices
  | devSignalHandler (k : ℕ × ℤ)
  deriving DecidableEq, Repr

/-- `generic_dev_signal_handler` on thread `gettid` for the handle `fd`. -/
def genericDevSignalHandler (p : Platform) (requestWillBeNotified : Bool) (gettid : ℕ) (fd : ℤ)
    (devSignalHandler : ThreadLocals → ThreadLocals) (tl : ThreadLocals) :
    List HandlerCall × ThreadLocals :=
  let pause := if requestWillBeNotified then [] else [HandlerCall.pauseAllDevices]
  let resume := if requestWillBeNotified then [] else [HandlerCall.resumeAllDevices]
  -- a test-and-set that finds the flag set leaves it set
  if tl.signalUnsafe then (pause ++ resume, { tl with signalUnsafe := true })
  else
    let tl := { tl with signalUnsafe := false }
    if tl.inSignalHandler then (pause ++ resume, { tl with inSignalHandler := true })
    else
      let tl := { tl with inSignalHandler := true }
      match p.getDevice gettid fd with
      | none => (pause ++ resume, { tl with inSignalHandler := false })
      | some _ =>
        let tl := devSignalHandler tl
        (pause ++ [.devSignalHandler (gettid, fd)] ++ resume,
          { tl with inSignalHandler := false })

section

variable {p : Platform} {rwbn : Bool} {gettid : ℕ} {fd : ℤ} {body : ThreadLocals → ThreadLocals}
  {tl : ThreadLocals}

/-- A set guard turns the handler away and stays set. -/
theorem genericDevSignalHandler_guarded (h : tl.signalUnsafe = true) :
    (∀ k, .devSignalHandler k ∉ (genericDevSignalHandler p rwbn gettid fd body tl).1) ∧
      (genericDevSignalHandler p rwbn gettid fd body tl).2 = tl := by
  unfold genericDevSignalHandler
  rw [if_pos h]
  refine ⟨fun k => ?_, ?_⟩
  · cases rwbn <;> simp
  · rw [← h]

/-- A handler that both flags admit reaches the device it looks up, and leaves the
guard as the device's own handler left it. -/
theorem genericDevSignalHandler_admitted (h : tl = .init) :
    (∀ k, .devSignalHandler k ∈ (genericDevSignalHandler p rwbn gettid fd body tl).1 ↔
        k = (gettid, fd) ∧ p.getDevice gettid fd ≠ none) ∧
      (genericDevSignalHandler p rwbn gettid fd body tl).2 =
        { (if p.getDevice gettid fd = none then tl else body ⟨false, true⟩) with
          inSignalHandler := false } := by
  subst h
  unfold genericDevSignalHandler
  cases hdev : p.getDevice gettid fd <;> cases rwbn <;> simp [ThreadLocals.init]

end

end Kognizance
