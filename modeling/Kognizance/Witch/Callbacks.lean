import Kognizance.Watchpoint.Library
import Kognizance.Witch.ContextTree

/-!
# The five logics

`Witch_OnWP_Callback` and `printContextTree` of the five logics. RedSpy, LoadSpy and
DupSpy are near-copies (`Spy`): they compare the bytes seen by the sample and by the
trigger. DeadStore and FalseSharing are near-copies of each other (`Waste`): they look
at who made the second access. Each logic is one of the two with its own settings.

The two families order their tests differently. A spy tests the overlap before it
takes the pending samples from the attribution table, a `Waste` after that.

* `Spy.witchOnWPCallback`, `Waste.witchOnWPCallback`: the two callbacks.
* `Logic.ofType`: the logic a build uses.
* `printContextTree`: the report, as far as it changes the logic.
-/

namespace Kognizance

open Process WitchLogic

/-- The macros a build defines. -/
structure BuildFlags where
  redSpyInst : Bool
  redSpyConsiderApproxRed : Bool
  loadSpyInst : Bool
  deadStoreInst : Bool
  dupSpyLoad : Bool
  dupSpyOverlap : Bool
  dupSpyConsiderApproxRed : Bool
  showUsedContext : Bool

/-- The results of floating-point arithmetic. A value is given by its bytes, and
its size is 4 or 8. -/
structure FloatUnit where
  /-- `oldValue != newValue` -/
  ne : ℕ → (ℤ → UInt8) → (ℤ → UInt8) → Bool
  /-- `rate > APPROX_RATE || rate < -APPROX_RATE` -/
  farOff : ℕ → (ℤ → UInt8) → (ℤ → UInt8) → Bool
  /-- `((float)bad / all) * 100` -/
  percent : ℤ → ℤ → ℤ

/-- What a callback finds out about a pair of accesses. -/
inductive Finding
  | used
  /-- a float value that was replaced by a different one -/
  | floatUsed
  | red
  | approxRed
  | dead
  deriving DecidableEq, Repr

/-- The metric the bytes go to. -/
def Finding.metric : Finding → MetricType
  | .used => .usedBytes
  | .floatUsed => .usedBytes
  | .red => .redBytes
  | .approxRed => .approxRedBytes
  | .dead => .deadBytes

/-! ### What the callbacks share -/

/-- The first access is moved into `wpt->va` if it overlaps the sample; then the
overlap is measured. -/
def overlapBytes (currEvent sampleEvent : Event) (wpt : WPTriggerInfo) : ℤ :=
  let va := if addressesOverlap currEvent.data_addr currEvent.accessLength.toNat
      sampleEvent.data_addr wpt.watchLen then currEvent.data_addr
    else wpt.va
  narrowToInt (getOverlapBytes sampleEvent.data_addr wpt.watchLen va
    currEvent.accessLength.toNat)

/-- The samples taken since the last trigger of the context, weighed by
`threshold`, and the state after they have been taken. -/
def takePending (currEvent sampleEvent : Event) (leafContext : ℕ) (σ : WitchLogic) :
    ℕ × WitchLogic :=
  σ.getNumDiffSamplesAndReset leafContext 1 100003
    (currEvent.event_time - sampleEvent.event_time)

/-- The value stored into `INEFFICIENCY`: the share of the metrics in `bad`. -/
def inefficiencyOf (F : FloatUnit) (bad : List MetricType) (σ : WitchLogic) (c : ℕ) : ℤ :=
  let wasted := (bad.map fun m => ((σ.context c).metrics m).i).sum
  F.percent wasted (wasted + ((σ.context c).metrics .usedBytes).i)

/-- `inc` bytes were used. -/
def addUsed (F : FloatUnit) (bad : List MetricType) (updatesInefficiency showsUsed : Bool)
    (currEvent : Event) (leafContext inc : ℕ) (σ : WitchLogic) : WitchLogic :=
  let σ := { σ with
    total := Function.update σ.total .usedBytes (σ.total .usedBytes + inc) }
  let σ := σ.increment leafContext .usedBytes inc
  let σ := if updatesInefficiency then
      σ.setMetric leafContext .inefficiency (inefficiencyOf F bad σ leafContext)
    else σ
  if showsUsed then
    (σ.addFramesToContextTree currEvent.eventContext_agent leafContext false .usedContext).1
  else σ

/-- `inc` bytes were wasted: they go to the sampled context and to the one the
trigger's frames lead to below it. -/
def addWasted (F : FloatUnit) (bad : List MetricType) (m : MetricType) (ctype : ContextType)
    (currEvent : Event) (leafContext inc : ℕ) (σ : WitchLogic) : WitchLogic :=
  let σ := { σ with total := Function.update σ.total m (σ.total m + inc) }
  let added := σ.addFramesToContextTree currEvent.eventContext_agent leafContext false ctype
  let σ := (added.1.increment added.2 m inc).increment leafContext m inc
  σ.setMetric leafContext .inefficiency (inefficiencyOf F bad σ leafContext)

/-- `watchedSampleCount++` and `removeEventContextMapEntry`, the end of a callback. -/
def finish (sampleEvent : Event) (σ : WitchLogic) : WitchLogic :=
  { σ with watchedSampleCount := σ.watchedSampleCount + 1 }.removeEventContextMapEntry sampleEvent

/-! ### RedSpy, LoadSpy and DupSpy -/

/-- What distinguishes one spy from the others. -/
structure Spy where
  /-- The kind of access the spy looks for, besides `LOAD_AND_STORE`. -/
  watches : AccessType
  /-- The build compares `fixedIP`. -/
  checksFixedIP : Bool
  /-- The accesses have to overlap; otherwise they must not even touch. -/
  wantsOverlap : Bool
  /-- The bytes of an `int` are compared, not those of the overlap. -/
  comparesInt : Bool
  /-- A float close to the old one counts as the same. -/
  considersApproxRed : Bool
  redContextType : ContextType
  showsUsed : Bool
  /-- `INEFFICIENCY` is also updated for a float that was used. -/
  floatUsedInefficiency : Bool

/-- `RedSpy` -/
def redSpy (b : BuildFlags) : Spy where
  watches := .store
  checksFixedIP := b.redSpyInst
  wantsOverlap := true
  comparesInt := false
  considersApproxRed := b.redSpyConsiderApproxRed
  redContextType := .redContext
  showsUsed := b.showUsedContext
  floatUsedInefficiency := false

/-- `LoadSpy` -/
def loadSpy (b : BuildFlags) : Spy where
  watches := .load
  checksFixedIP := b.loadSpyInst
  wantsOverlap := true
  comparesInt := false
  considersApproxRed := true
  redContextType := .sampledContext
  showsUsed := false
  floatUsedInefficiency := true

/-- `DupSpy` -/
def dupSpy (b : BuildFlags) : Spy where
  watches := if b.dupSpyLoad then .load else .store
  checksFixedIP := false
  wantsOverlap := b.dupSpyOverlap
  comparesInt := true
  considersApproxRed := b.dupSpyConsiderApproxRed
  redContextType := .redContext
  showsUsed := b.showUsedContext
  floatUsedInefficiency := false

/-- The metrics a spy counts as inefficient. -/
def spyBad : List MetricType := [.redBytes, .approxRedBytes]

namespace Spy

/-- `firstOffest` and `secondOffest` -/
def offsets (spy : Spy) (currEvent sampleEvent : Event) : ℤ × ℤ :=
  if spy.wantsOverlap then
    (narrowToInt (firstOverlappedByteOffsetInFirst currEvent.data_addr sampleEvent.data_addr),
      narrowToInt (firstOverlappedByteOffsetInSecond currEvent.data_addr sampleEvent.data_addr))
  else (0, 0)

/-- The overlap and the offsets pass. -/
def accepts (spy : Spy) (currEvent sampleEvent : Event) (wpt : WPTriggerInfo) : Bool :=
  let overlap := overlapBytes currEvent sampleEvent wpt
  let offset := spy.offsets currEvent sampleEvent
  (if spy.wantsOverlap then 0 < overlap else overlap < 0) &&
    !(offset.2 < -16 || offset.2 > 16 || offset.1 > 16 || offset.1 < -16)

/-- The integer comparison: equal bytes are counted in a `uint8_t`, and the first
difference resets the count. -/
def matchBytes (newValue oldValue : ℤ → UInt8) : ℕ → ℤ → ℤ → UInt8 → UInt8
  | 0, _, _, redBytes => redBytes
  | n + 1, i, k, redBytes =>
    if newValue i = oldValue k then matchBytes newValue oldValue n (i + 1) (k + 1) (redBytes + 1)
    else 0

/-- The number of rounds of the integer comparison. DupSpy's bound has type
`size_t`, so an `int` that is negative when the bound is not ends the loop. -/
def rounds (spy : Spy) (overlap firstOffest : ℤ) : ℕ :=
  if spy.comparesInt then if -4 ≤ firstOffest ∧ firstOffest < 0 then 0 else 4
  else overlap.toNat

/-- `TreatLikeInteger` -/
def treatLikeInteger (spy : Spy) (currEvent sampleEvent : Event) (overlap : ℤ)
    (offset : ℤ × ℤ) : Finding :=
  if matchBytes currEvent.valueAtEvent sampleEvent.valueAtEvent (spy.rounds overlap offset.1)
      offset.1 offset.2 0 ≠ 0 then .red
  else .used

/-- The comparison of two floats of `size` bytes. -/
def compareFloats (F : FloatUnit) (spy : Spy) (size : ℕ) (currEvent sampleEvent : Event)
    (offset : ℤ × ℤ) : Finding :=
  let oldValue := fun i => sampleEvent.valueAtEvent (offset.2 + i)
  let newValue := fun i => currEvent.valueAtEvent (offset.1 + i)
  if F.ne size oldValue newValue then
    if spy.considersApproxRed && !F.farOff size oldValue newValue then .approxRed
    else .floatUsed
  else .approxRed

/-- The comparison of the two values. -/
def finding (F : FloatUnit) (spy : Spy) (currEvent sampleEvent : Event) (wpt : WPTriggerInfo) :
    Finding :=
  let overlap := overlapBytes currEvent sampleEvent wpt
  let offset := spy.offsets currEvent sampleEvent
  let sampleStartByte := sampleEvent.data_addr + UInt64.ofInt offset.2
  let wptStartByte := currEvent.data_addr + UInt64.ofInt offset.1
  let asFloat (size : ℕ) : Finding :=
    if overlap < size ∨ isAligned sampleStartByte size = false ∨
        isAligned wptStartByte size = false then
      spy.treatLikeInteger currEvent sampleEvent overlap offset
    else spy.compareFloats F size currEvent sampleEvent offset
  match currEvent.floatType with
  | .elemTypeSingle => asFloat 4
  | .elemTypeDouble => asFloat 8
  | _ => spy.treatLikeInteger currEvent sampleEvent overlap offset

/-- The updates for one finding. -/
def record (F : FloatUnit) (spy : Spy) (found : Finding) (currEvent : Event)
    (leafContext inc : ℕ) (σ : WitchLogic) : WitchLogic :=
  match found with
  | .red | .approxRed | .dead =>
    addWasted F spyBad found.metric spy.redContextType currEvent leafContext inc σ
  | .floatUsed =>
    addUsed F spyBad spy.floatUsedInefficiency spy.showsUsed currEvent leafContext inc σ
  | .used => addUsed F spyBad true spy.showsUsed currEvent leafContext inc σ

/-- `Witch_OnWP_Callback` of the spies. -/
def witchOnWPCallback (F : FloatUnit) (spy : Spy) (currEvent sampleEvent : Event)
    (wpt : WPTriggerInfo) (σ : WitchLogic) : WPTriggerAction × WitchLogic :=
  if currEvent.accessType ≠ spy.watches ∧ currEvent.accessType ≠ .loadAndStore then (.retain, σ)
  else if spy.checksFixedIP ∧ sampleEvent.fixedIP ≠ currEvent.fixedIP then (.disable, σ)
  else
    match σ.eventToContextLeafMap.lookup sampleEvent.eventId with
    | none => (.disable, σ.removeEventContextMapEntry sampleEvent)
    | some leafContext =>
      if spy.accepts currEvent sampleEvent wpt = false then
        (.disable, σ.removeEventContextMapEntry sampleEvent)
      else
        let taken := takePending currEvent sampleEvent leafContext σ
        let inc := taken.1 * sampleEvent.accessLength.toNat
        if inc = 0 then (.disable, taken.2.removeEventContextMapEntry sampleEvent)
        else
          let found := spy.finding F currEvent sampleEvent wpt
          (.disable, finish sampleEvent (spy.record F found currEvent leafContext inc taken.2))

end Spy

/-! ### DeadStore and FalseSharing -/

/-- What distinguishes DeadStore from FalseSharing. -/
structure Waste where
  /-- The build compares `fixedIP`. -/
  checksFixedIP : Bool
  /-- The second access uses the value. -/
  uses : Event → Event → Bool
  /-- The second access makes the first one a waste. -/
  wastes : Event → Event → Bool
  /-- A known access does one of the two. -/
  decides : ∀ currEvent sampleEvent : Event, currEvent.accessType ≠ .unknown →
    uses currEvent sampleEvent = true ∨ wastes currEvent sampleEvent = true

/-- `DeadStore` -/
def deadStore (b : BuildFlags) : Waste where
  checksFixedIP := b.deadStoreInst
  uses := fun currEvent _ =>
    currEvent.accessType = .load || currEvent.accessType = .loadAndStore
  wastes := fun currEvent _ => currEvent.accessType = .store
  decides := by
    intro currEvent _ hknown
    cases hacc : currEvent.accessType with
    | load | store | loadAndStore => simp
    | unknown => exact absurd hacc hknown

/-- `FalseSharing` -/
def falseSharing : Waste where
  checksFixedIP := false
  uses := fun currEvent sampleEvent => currEvent.cpu = sampleEvent.cpu
  wastes := fun _ _ => true
  decides := fun _ _ _ => Or.inr rfl

namespace Waste

/-- `Witch_OnWP_Callback` of the two. -/
def witchOnWPCallback (F : FloatUnit) (waste : Waste) (currEvent sampleEvent : Event)
    (wpt : WPTriggerInfo) (σ : WitchLogic) : WPTriggerAction × WitchLogic :=
  if currEvent.accessType = .unknown then (.disable, σ.removeEventContextMapEntry sampleEvent)
  else if waste.checksFixedIP ∧ sampleEvent.fixedIP ≠ currEvent.fixedIP then (.disable, σ)
  else
    match σ.eventToContextLeafMap.lookup sampleEvent.eventId with
    | none => (.disable, σ.removeEventContextMapEntry sampleEvent)
    | some leafContext =>
      -- the pending samples are taken before the overlap is tested
      let taken := takePending currEvent sampleEvent leafContext σ
      let inc := taken.1 * sampleEvent.accessLength.toNat
      if overlapBytes currEvent sampleEvent wpt ≤ 0 then
        (.disable, taken.2.removeEventContextMapEntry sampleEvent)
      else
        let σ := if waste.uses currEvent sampleEvent then
            addUsed F [.deadBytes] true false currEvent leafContext inc taken.2
          else if waste.wastes currEvent sampleEvent then
            addWasted F [.deadBytes] .deadBytes .sampledContext currEvent leafContext inc taken.2
          else taken.2
        (.disable, finish sampleEvent σ)

end Waste

/-! ### The logic in use -/

/-- A logic of one of the two families. -/
inductive Logic
  | spy (spy : Spy)
  | waste (waste : Waste)

/-- The logic a build uses. -/
def Logic.ofType (b : BuildFlags) : WitchLogicType → Logic
  | .redSpy => .spy (redSpy b)
  | .loadSpy => .spy (loadSpy b)
  | .dupSpy => .spy (dupSpy b)
  | .deadSpy => .waste (deadStore b)
  | .falseShare => .waste falseSharing

/-- The virtual `Witch_OnWP_Callback`. -/
def Logic.witchOnWPCallback (F : FloatUnit) : Logic → Event → Event → WPTriggerInfo →
    WitchLogic → WPTriggerAction × WitchLogic
  | .spy s => s.witchOnWPCallback F
  | .waste w => w.witchOnWPCallback F

/-- The global totals a logic keeps. -/
def WitchLogicType.totals : WitchLogicType → List MetricType
  | .redSpy | .loadSpy | .dupSpy => [.usedBytes, .redBytes, .approxRedBytes]
  | .deadSpy | .falseShare => [.usedBytes, .deadBytes]

/-- The sum of the logic's global totals. -/
def totalSum (t : WitchLogicType) (σ : WitchLogic) : ℕ := (t.totals.map σ.total).sum

/-- The build rolls the metrics up before it prints. -/
def BuildFlags.inst (b : BuildFlags) : WitchLogicType → Bool
  | .redSpy => b.redSpyInst
  | .loadSpy => b.loadSpyInst
  | .deadSpy => b.deadStoreInst
  | .dupSpy => true
  | .falseShare => false

/-- The roll-up at the start of `printContextTree`. -/
def calculate (b : BuildFlags) (t : WitchLogicType) (σ : WitchLogic) : WitchLogic :=
  if b.inst t then (calculateForAllContext σ.nextContext σ contextTreeRoot).2 else σ

/-- `totalBytes`, an `unsigned int`. -/
def totalBytes (t : WitchLogicType) (σ : WitchLogic) : ℕ := totalSum t σ % 2 ^ 32

/-- `printContextTree`, without the output. DupSpy and FalseSharing do not clean up. -/
def printContextTree (b : BuildFlags) (t : WitchLogicType) (σ : WitchLogic) : WitchLogic :=
  match t with
  | .redSpy | .loadSpy | .deadSpy => (calculate b t σ).cleanContextTree
  | .dupSpy | .falseShare => calculate b t σ

end Kognizance
