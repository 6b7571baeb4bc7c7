import Mathlib.Data.Int.ModEq
import Mathlib.Algebra.BigOperators.Group.List.Basic
import Kognizance.Platform.Event
import Kognizance.Agent.Bytecode

/-!
# Walking the Python stack

`pyagent_walk_and_record_python_stack_only` goes through the frames, innermost first. One body of
its loop records the frame, with the line it reads off `co_lnotab`, and classifies the access the
frame makes, with the opcode before the address it has read off that table.

* `srcLineno_iff`: the line is the one CPython computes iff the line deltas the walk reads too many
  add up to nothing.
* `belongsToInnermost_iff`: the classification is that of the innermost frame iff the outer frames
  agree with it.
-/

namespace Kognizance

/-- `PyCodeObject` -/
structure PyCode where
  co_firstlineno : ℤ
  /-- The walk casts the size to an `int` and adds the addresses up in an `int`, so this is
  meant for tables of fewer than 2^24 bytes, where neither is cut off. -/
  co_lnotab : List UInt8
  co_code : CodeString

/-- `PyFrameObject`, without `f_back`: a stack is the list of its frames. -/
structure PyFrame where
  f_code : PyCode
  f_lasti : ℤ
  f_lineno : ℤ

/-- What the walk reads and writes of an `Event`. -/
structure PyEvent where
  eventContext_agent : List ContextFrame
  opcode : ℤ
  accessType : AccessType
  fixSkid : Bool
  isFixed : Bool
  fixedIP : ℕ
  deriving DecidableEq

/-! ### The line table -/

/-- A byte read through a `char` pointer. -/
def charAt (b : UInt8) : ℤ := b.toInt8.toInt

/-- An `int` made of a number. -/
def toCInt (x : ℤ) : ℤ := x.bmod (2 ^ 32)

/-- The loop over `co_lnotab`: `addr` and `line`. Behind the bytes there is a null byte. -/
def lnotabLoop (f_lasti : ℤ) : List UInt8 → ℤ → ℤ → ℤ × ℤ
  | [], addr, line => (addr, line)
  | [a], addr, line => (addr + charAt a, line)
  | a :: l :: rest, addr, line =>
    if f_lasti < addr + charAt a then (addr + charAt a, line)
    else lnotabLoop f_lasti rest (addr + charAt a) (line + charAt l)

/-- `addr` after the loop. -/
def PyFrame.addr (frame : PyFrame) : ℤ :=
  (lnotabLoop frame.f_lasti frame.f_code.co_lnotab 0 frame.f_lineno).1

/-- The `ContextFrame` made for a frame. `line` is a `uint64_t` and `src_lineno` an `int`. -/
def PyFrame.contextFrame (frame : PyFrame) : ContextFrame where
  binary_addr := frame.addr
  src_lineno := toCInt (lnotabLoop frame.f_lasti frame.f_code.co_lnotab 0 frame.f_lineno).2

/-- What CPython does with the same table: the addresses are unsigned, the lines are signed. -/
def addr2LineLoop (addrq : ℤ) : List UInt8 → ℤ → ℤ → ℤ
  | a :: l :: rest, addr, line =>
    if addrq < addr + a.toNat then line
    else addr2LineLoop addrq rest (addr + a.toNat) (line + charAt l)
  | _, _, line => line

/-- `PyCode_Addr2Line` -/
def pyCodeAddr2Line (co : PyCode) (addrq : ℤ) : ℤ :=
  toCInt (addr2LineLoop addrq co.co_lnotab 0 co.co_firstlineno)

/-! ### The classification of an access -/

/-- `STORE_SUBSCR`, `STORE_NAME`, `STORE_ATTR`, `STORE_GLOBAL`, `STORE_FAST`, `STORE_ANNOTATION` and
`STORE_DEREF`. -/
def storeOpcodes : List ℤ := [60, 90, 95, 97, 125, 127, 137]

/-- `LOAD_BUILD_CLASS`, `LOAD_CONST`, `LOAD_NAME`, `LOAD_ATTR`, `LOAD_GLOBAL`, `LOAD_FAST`,
`LOAD_CLOSURE`, `LOAD_DEREF` and `LOAD_CLASSDEREF`. -/
def loadOpcodes : List ℤ := [71, 100, 101, 106, 116, 124, 135, 136, 148]

/-- The search for an address: the iterator, and `prevOpCode`. -/
structure Search where
  iter : PyBytecodeIterator
  prevOpCode : ℤ

/-- The loop ends at the end of the code, on an error and at `addr`, which is compared as a
`size_t`. -/
def Search.stopped (addr : ℤ) (s : Search) : Bool :=
  s.iter.stopped || (addr % 2 ^ 64).toNat == s.iter.curIndex

/-- The body of the loop, and `Advance`. -/
def Search.step (s : Search) : Search := ⟨s.iter.advance, s.iter.opcode⟩

/-- The search of a frame. `junk` is what `opcode_` and `oparg_` are before they are set. -/
def PyFrame.search (junk : ℤ × BitVec 32) (frame : PyFrame) : Search :=
  (Loop.round Search.step (Search.stopped frame.addr))^[frame.f_code.co_code.size]
    ⟨PyBytecodeIterator.new junk.1 junk.2 frame.f_code.co_code, -1⟩

/-- The access type a previous opcode stands for, if any. -/
def opcodeAccess (prevOpCode : ℤ) : Option AccessType :=
  if prevOpCode ∈ storeOpcodes then some .store
  else if prevOpCode ∈ loadOpcodes then some .load
  else none

/-! ### The walk -/

/-- The frame is recorded, unless it equals the last one recorded. -/
def PyEvent.record (event : PyEvent) (frame : ContextFrame) : PyEvent :=
  if event.eventContext_agent.getLast? = some frame then event
  else { event with eventContext_agent := event.eventContext_agent ++ [frame] }

/-- What is written to the event when a search has ended. -/
def PyEvent.classify (event : PyEvent) (s : Search) : PyEvent :=
  let event := { event with opcode := s.iter.opcode }
  let event :=
    if event.fixSkid then
      { event with fixedIP := s.iter.curIndex, isFixed := true, opcode := s.prevOpCode }
    else event
  match opcodeAccess s.prevOpCode with
  | some accessType => { event with accessType := accessType }
  | none => event

/-- The body of the walk. -/
def PyEvent.visit (event : PyEvent) (junk : ℤ × BitVec 32) (frame : PyFrame) : PyEvent :=
  (event.record frame.contextFrame).classify (frame.search junk)

/-- `_per_loop` -/
abbrev perLoop : ℤ := 2

/-- `pyagent_walk_and_record_python_stack_only`: the event and the depth. `junk` is what is on the
machine's stack at each depth. -/
def walk (junk : ℤ → ℤ × BitVec 32) (max_depth : ℤ) :
    List PyFrame → ℤ → PyEvent → PyEvent × ℤ
  | [], depth, event => (event, depth)
  | frame :: back, depth, event =>
    if depth + perLoop ≤ max_depth then
      walk junk max_depth back (depth + 1) (event.visit (junk depth) frame)
    else (event, depth)

/-! ### The line of a frame -/

/-- The line deltas that are added, where an address delta is read by `read`. -/
def linesRead (read : UInt8 → ℤ) (lasti : ℤ) : List UInt8 → ℤ → List ℤ
  | a :: l :: rest, addr =>
    if lasti < addr + read a then []
    else charAt l :: linesRead read lasti rest (addr + read a)
  | _, _ => []

/-- The line deltas the walk adds and CPython does not: those of the pairs at which the unsigned
address has passed `f_lasti`, up to the one at which the signed address passes it. -/
def PyCode.surplusLines (co : PyCode) (lasti : ℤ) : List ℤ :=
  (linesRead charAt lasti co.co_lnotab 0).drop
    (linesRead (fun b => b.toNat) lasti co.co_lnotab 0).length

theorem lnotabLoop_line (lasti : ℤ) (bytes : List UInt8) (addr line : ℤ) :
    (lnotabLoop lasti bytes addr line).2 = line + (linesRead charAt lasti bytes addr).sum := by
  fun_induction lnotabLoop lasti bytes addr line with
  | case1 addr line => simp [linesRead]
  | case2 a addr line => simp [linesRead]
  | case3 a l rest addr line h => simp [linesRead, h]
  | case4 a l rest addr line h ih =>
    rw [ih, linesRead, if_neg h, List.sum_cons, add_assoc]

theorem addr2LineLoop_eq (addrq : ℤ) (bytes : List UInt8) (addr line : ℤ) :
    addr2LineLoop addrq bytes addr line =
      line + (linesRead (fun b => b.toNat) addrq bytes addr).sum := by
  fun_induction addr2LineLoop addrq bytes addr line with
  | case1 a l rest addr line h => simp [linesRead, h]
  | case2 a l rest addr line h ih =>
    rw [ih, linesRead, if_neg h, List.sum_cons, add_assoc]
  | case3 bytes addr line h =>
    match bytes with
    | [] => simp [linesRead]
    | [a] => simp [linesRead]
    | a :: l :: rest => exact (h a l rest rfl).elim

theorem charAt_eq_ite (b : UInt8) :
    charAt b = if b.toNat ≤ 127 then (b.toNat : ℤ) else b.toNat - 256 := by
  have h : charAt b = if 2 * b.toNat < 2 ^ 8 then (b.toNat : ℤ) else b.toNat - (2 ^ 8 : ℕ) :=
    BitVec.toInt_eq_toNat_cond b.toBitVec
  rw [h]
  split <;> split <;> omega

theorem charAt_le (b : UInt8) : charAt b ≤ b.toNat := by
  rw [charAt_eq_ite]
  split <;> omega

/-- The signed addresses stay below the unsigned ones, so the walk reads what CPython reads and
maybe more. -/
theorem linesRead_isInitial (lasti : ℤ) (bytes : List UInt8) {addr addr' : ℤ} (h : addr ≤ addr') :
    linesRead (fun b => b.toNat) lasti bytes addr' <+: linesRead charAt lasti bytes addr := by
  -- over the table; `addr'` counts the same pairs without a sign, so it stays ahead
  fun_induction linesRead charAt lasti bytes addr generalizing addr' with
  | case1 a l rest addr hpast =>
    have hle := charAt_le a
    rw [linesRead, if_pos (by omega)]
  | case2 a l rest addr hpast ih =>
    have hle := charAt_le a
    rw [linesRead]
    -- the unsigned walk may have passed `f_lasti` already
    split
    · exact List.nil_prefix
    · exact (List.prefix_cons_inj _).mpr (ih (by omega))
  -- an odd byte at the end is read by neither
  | case3 bytes addr h' =>
    match bytes with
    | [] => simp [linesRead]
    | [a] => simp [linesRead]
    | a :: l :: rest => exact (h' a l rest rfl).elim

/-- What the walk adds is what CPython adds, and the surplus. -/
theorem linesRead_eq_append (co : PyCode) (lasti : ℤ) :
    linesRead charAt lasti co.co_lnotab 0 =
      linesRead (fun b => b.toNat) lasti co.co_lnotab 0 ++ co.surplusLines lasti :=
  (List.prefix_iff_eq_append.mp (linesRead_isInitial lasti co.co_lnotab le_rfl)).symm

/-- **The recorded line** is the one CPython computes iff the surplus adds up to nothing. -/
theorem srcLineno_iff (frame : PyFrame) (h : frame.f_lineno = frame.f_code.co_firstlineno) :
    frame.contextFrame.src_lineno = pyCodeAddr2Line frame.f_code frame.f_lasti ↔
      2 ^ 32 ∣ (frame.f_code.surplusLines frame.f_lasti).sum := by
  have hline : (lnotabLoop frame.f_lasti frame.f_code.co_lnotab 0 frame.f_lineno).2 =
      addr2LineLoop frame.f_lasti frame.f_code.co_lnotab 0 frame.f_code.co_firstlineno +
        (frame.f_code.surplusLines frame.f_lasti).sum := by
    rw [lnotabLoop_line, addr2LineLoop_eq, linesRead_eq_append, List.sum_append, h, add_assoc]
  unfold PyFrame.contextFrame pyCodeAddr2Line toCInt
  rw [hline, Int.bmod_eq_bmod_iff_bmod_sub_eq_zero, add_sub_cancel_left, ← Int.dvd_iff_bmod_eq_zero]
  norm_cast

/-- The address deltas of a table. -/
def addrDeltas : List UInt8 → List UInt8
  | a :: _ :: rest => a :: addrDeltas rest
  | _ => []

theorem linesRead_eq_of_small (lasti : ℤ) (bytes : List UInt8) (addr : ℤ)
    (h : ∀ a ∈ addrDeltas bytes, a.toNat ≤ 127) :
    linesRead charAt lasti bytes addr = linesRead (fun b => b.toNat) lasti bytes addr := by
  fun_induction linesRead charAt lasti bytes addr with
  | case1 a l rest addr hpast =>
    rw [charAt_eq_ite, if_pos (h a List.mem_cons_self)] at hpast
    rw [linesRead, if_pos hpast]
  | case2 a l rest addr hpast ih =>
    have ha : charAt a = a.toNat := by rw [charAt_eq_ite, if_pos (h a List.mem_cons_self)]
    -- without a delta above 127 the sign changes nothing
    rw [ih fun b hb => h b (List.mem_cons_of_mem a hb)]
    rw [ha] at hpast ⊢
    rw [linesRead, if_neg hpast]
  | case3 bytes addr h' =>
    match bytes with
    | [] => rfl
    | [a] => rfl
    | a :: l :: rest => exact (h' a l rest rfl).elim

/-- Where no address delta is above 127, there is no surplus. -/
theorem surplusLines_eq_nil {co : PyCode} (lasti : ℤ)
    (h : ∀ a ∈ addrDeltas co.co_lnotab, a.toNat ≤ 127) : co.surplusLines lasti = [] := by
  rw [PyCode.surplusLines, linesRead_eq_of_small lasti _ 0 h, List.drop_length]

/-- A function with a long first line. -/
def longLine : PyFrame where
  f_code := ⟨10, [128, 1], ⟨[100, 0, 83, 0], by decide⟩⟩
  f_lasti := 2
  f_lineno := 10

theorem longLine_recorded_below : ¬ (longLine.f_lineno = longLine.f_code.co_firstlineno →
    longLine.contextFrame.src_lineno = pyCodeAddr2Line longLine.f_code longLine.f_lasti) := by
  decide

/-- A function of four lines, before its long one. -/
def shortTable : PyFrame where
  f_code := ⟨10, [2, 1, 4, 2, 8, 1, 200, 2], ⟨[100, 0, 83, 0], by decide⟩⟩
  f_lasti := 6
  f_lineno := 10

/-- Two line deltas are added, and the walk stops before the long one as CPython does. -/
theorem srcLineno_shortTable :
    2 ^ 32 ∣ (shortTable.f_code.surplusLines shortTable.f_lasti).sum ∧
      shortTable.contextFrame.src_lineno = pyCodeAddr2Line shortTable.f_code shortTable.f_lasti ∧
      shortTable.contextFrame.src_lineno = 13 := by
  have hsurplus : 2 ^ 32 ∣ (shortTable.f_code.surplusLines shortTable.f_lasti).sum := by decide
  exact ⟨hsurplus, (srcLineno_iff shortTable rfl).mpr hsurplus, by decide⟩

/-! ### The frame the classification belongs to -/

/-- The search of a frame has come to its end. -/
theorem search_stopped (junk : ℤ × BitVec 32) (frame : PyFrame) :
    (frame.search junk).stopped frame.addr = true := by
  have hstr : (PyBytecodeIterator.new junk.1 junk.2 frame.f_code.co_code).bytecodeStr =
      frame.f_code.co_code := (PyBytecodeIterator.advance_spec (Nat.zero_le _)).1
  -- `curIndex` goes up in every round and is bounded by the size of the code
  refine Loop.stop_of_bounded
    (fun s : Search => PyBytecodeIterator.SafeOver frame.f_code.co_code s.iter)
    (fun s => s.iter.curIndex) frame.f_code.co_code.size ?_ ?_
    ⟨PyBytecodeIterator.new_safe _ _ _, hstr⟩ (Nat.le_add_left _ _)
  · rintro s ⟨hsafe, hstr⟩ hstop
    obtain ⟨hsafe', hstr', hup⟩ := hsafe.step (Bool.or_eq_false_iff.mp hstop).1
    exact ⟨⟨hsafe', hstr'.trans hstr⟩, hup⟩
  · rintro s ⟨hsafe, hstr⟩ hle
    -- at the size the iterator is done
    have hsize : s.iter.bytecodeSize = frame.f_code.co_code.size := congrArg CodeString.size hstr
    have hdone : s.iter.done = true :=
      PyBytecodeIterator.done_iff.mpr (le_antisymm hsafe.cur_le (hsize ▸ hle))
    have hstopped : s.iter.stopped = true := Bool.or_eq_true_iff.mpr (Or.inl hdone)
    exact Bool.or_eq_true_iff.mpr (Or.inl hstopped)

/-- What becomes `event->opcode`. -/
def Search.opcode (fixSkid : Bool) (s : Search) : ℤ :=
  if fixSkid then s.prevOpCode else s.iter.opcode

section Visit

variable (event : PyEvent) (junk : ℤ × BitVec 32) (frame : PyFrame)

theorem classify_eq (s : Search) :
    event.classify s = { event with
      opcode := s.opcode event.fixSkid
      fixedIP := if event.fixSkid then s.iter.curIndex else event.fixedIP
      isFixed := event.fixSkid || event.isFixed
      accessType := (opcodeAccess s.prevOpCode).getD event.accessType } := by
  unfold PyEvent.classify Search.opcode
  cases event.fixSkid <;> cases opcodeAccess s.prevOpCode <;> simp

theorem record_eq (f : ContextFrame) :
    event.record f = { event with eventContext_agent := (event.record f).eventContext_agent } := by
  unfold PyEvent.record
  split <;> rfl

/-- What the body of the walk leaves in the event. -/
theorem visit_eq :
    event.visit junk frame = { event with
      eventContext_agent := (event.record frame.contextFrame).eventContext_agent
      opcode := (frame.search junk).opcode event.fixSkid
      fixedIP := if event.fixSkid then (frame.search junk).iter.curIndex else event.fixedIP
      isFixed := event.fixSkid || event.isFixed
      accessType := (opcodeAccess (frame.search junk).prevOpCode).getD event.accessType } := by
  unfold PyEvent.visit
  rw [classify_eq, record_eq]

end Visit

/-- The searches of the frames the walk comes to. -/
def searches (junk : ℤ → ℤ × BitVec 32) (max_depth : ℤ) : List PyFrame → ℤ → List Search
  | [], _ => []
  | frame :: back, depth =>
    if depth + perLoop ≤ max_depth then
      frame.search (junk depth) :: searches junk max_depth back (depth + 1)
    else []

variable {junk : ℤ → ℤ × BitVec 32} {max_depth : ℤ}

theorem walk_cons {depth : ℤ} (h : depth + perLoop ≤ max_depth) (frame : PyFrame)
    (back : List PyFrame) (event : PyEvent) :
    walk junk max_depth (frame :: back) depth event =
      walk junk max_depth back (depth + 1) (event.visit (junk depth) frame) := if_pos h

theorem walk_cons_of_deep {depth : ℤ} (h : ¬ depth + perLoop ≤ max_depth) (frame : PyFrame)
    (back : List PyFrame) (event : PyEvent) :
    walk junk max_depth (frame :: back) depth event = (event, depth) := if_neg h

/-- The last search decides the opcode. -/
theorem walk_opcode (frames : List PyFrame) (depth : ℤ) (event : PyEvent) :
    (walk junk max_depth frames depth event).1.opcode =
      ((searches junk max_depth frames depth).getLast?.map
        (Search.opcode event.fixSkid)).getD event.opcode := by
  induction frames generalizing depth event with
  | nil => rfl
  | cons frame back ih =>
    by_cases hdepth : depth + perLoop ≤ max_depth
    · rw [walk_cons hdepth, searches, if_pos hdepth, ih, List.getLast?_cons, visit_eq]
      cases (searches junk max_depth back (depth + 1)).getLast? <;> rfl
    · rw [walk_cons_of_deep hdepth, searches, if_neg hdepth]
      rfl

/-- The last search decides the fixed address. -/
theorem walk_fixedIP (frames : List PyFrame) (depth : ℤ) {event : PyEvent}
    (h : event.fixSkid = true) :
    (walk junk max_depth frames depth event).1.fixedIP =
      ((searches junk max_depth frames depth).getLast?.map
        fun s => s.iter.curIndex).getD event.fixedIP := by
  induction frames generalizing depth event with
  | nil => rfl
  | cons frame back ih =>
    by_cases hdepth : depth + perLoop ≤ max_depth
    · have hvisit : (event.visit (junk depth) frame).fixSkid = true := by rw [visit_eq]; exact h
      rw [walk_cons hdepth, searches, if_pos hdepth, ih _ hvisit, List.getLast?_cons, visit_eq,
        if_pos h]
      cases (searches junk max_depth back (depth + 1)).getLast? <;> rfl
    · rw [walk_cons_of_deep hdepth, searches, if_neg hdepth]
      rfl

/-- The last search that stands for an access decides the access type. -/
theorem walk_accessType (frames : List PyFrame) (depth : ℤ) (event : PyEvent) :
    (walk junk max_depth frames depth event).1.accessType =
      (((searches junk max_depth frames depth).filterMap
        fun s => opcodeAccess s.prevOpCode).getLast?).getD event.accessType := by
  induction frames generalizing depth event with
  | nil => rfl
  | cons frame back ih =>
    by_cases hdepth : depth + perLoop ≤ max_depth
    · -- the frame is the first search, so it only counts if no outer one stands for an access
      rw [walk_cons hdepth, searches, if_pos hdepth, ih, visit_eq, List.filterMap_cons]
      cases opcodeAccess (frame.search (junk depth)).prevOpCode with
      | none => rfl
      | some a =>
        rw [List.getLast?_cons]
        rfl
    · -- beyond the depth limit no frame is searched
      rw [walk_cons_of_deep hdepth, searches, if_neg hdepth]
      rfl

/-- After the walk, the classification is the one of the innermost frame alone. -/
def BelongsToInnermost (junk : ℤ → ℤ × BitVec 32) (max_depth : ℤ) (innermost : PyFrame)
    (back : List PyFrame) (event : PyEvent) : Prop :=
  let final := (walk junk max_depth (innermost :: back) 0 event).1
  let own := event.visit (junk 0) innermost
  final.opcode = own.opcode ∧ final.accessType = own.accessType ∧
    (event.fixSkid = true → final.fixedIP = own.fixedIP)

/-- The outermost frame walked to has the opcode and the address of the innermost one, and the
outermost one before an access is before an access of the same type. -/
structure OuterAgree (fixSkid : Bool) (accessType : AccessType) (own : Search)
    (outer : List Search) : Prop where
  opcode : ∀ s ∈ outer.getLast?, s.opcode fixSkid = own.opcode fixSkid
  fixedIP : fixSkid = true → ∀ s ∈ outer.getLast?, s.iter.curIndex = own.iter.curIndex
  access : ∀ a ∈ (outer.filterMap fun s => opcodeAccess s.prevOpCode).getLast?,
    a = (opcodeAccess own.prevOpCode).getD accessType

theorem getD_eq_iff {α : Type} (o : Option α) (b : α) : o.getD b = b ↔ ∀ a ∈ o, a = b := by
  cases o <;> simp

theorem map_getD_eq_iff {α β : Type} (o : Option α) (f : α → β) (b : β) :
    (o.map f).getD b = b ↔ ∀ a ∈ o, f a = b := by
  cases o <;> simp

/-- **The classification belongs to the innermost frame** iff the outer frames agree with it. -/
theorem belongsToInnermost_iff (junk : ℤ → ℤ × BitVec 32) {max_depth : ℤ} (hdepth : 2 ≤ max_depth)
    (innermost : PyFrame) (back : List PyFrame) (event : PyEvent) :
    BelongsToInnermost junk max_depth innermost back event ↔
      OuterAgree event.fixSkid event.accessType (innermost.search (junk 0))
        (searches junk max_depth back 1) := by
  -- the innermost frame is always visited, and the rest of the walk starts from what it wrote
  have hwalk : walk junk max_depth (innermost :: back) 0 event =
      walk junk max_depth back 1 (event.visit (junk 0) innermost) := walk_cons hdepth _ _ _
  have hskid : (event.visit (junk 0) innermost).fixSkid = event.fixSkid := by rw [visit_eq]
  have hown : (event.visit (junk 0) innermost).opcode =
      (innermost.search (junk 0)).opcode event.fixSkid := by rw [visit_eq]
  -- the last writer of each field decides it: no outer one, or one that writes the same
  have hop := map_getD_eq_iff (searches junk max_depth back 1).getLast?
    (Search.opcode event.fixSkid) (event.visit (junk 0) innermost).opcode
  have haccess := getD_eq_iff
    ((searches junk max_depth back 1).filterMap fun s => opcodeAccess s.prevOpCode).getLast?
    (event.visit (junk 0) innermost).accessType
  have hfixed := map_getD_eq_iff (searches junk max_depth back 1).getLast?
    (fun s => s.iter.curIndex) (event.visit (junk 0) innermost).fixedIP
  unfold BelongsToInnermost
  rw [hwalk]
  constructor
  · rintro ⟨h1, h2, h3⟩
    rw [walk_opcode, hskid, hop, hown] at h1
    rw [walk_accessType, haccess] at h2
    refine ⟨h1, fun hfix => ?_, fun a ha => ?_⟩
    · have h := h3 hfix
      rw [walk_fixedIP _ _ (hskid.trans hfix), hfixed, visit_eq, if_pos hfix] at h
      exact h
    · rw [h2 a ha, visit_eq]
  · rintro ⟨h1, h2, h3⟩
    refine ⟨?_, ?_, fun hfix => ?_⟩
    · rw [walk_opcode, hskid, hop, hown]
      exact h1
    · rw [walk_accessType, haccess]
      intro a ha
      rw [h3 a ha, visit_eq]
    · rw [walk_fixedIP _ _ (hskid.trans hfix), hfixed, visit_eq, if_pos hfix]
      exact h2 hfix

/-- A frame before its first instruction has ended. -/
def frameOf (code : CodeString) : PyFrame where
  f_code := ⟨1, [0, 1], code⟩
  f_lasti := 0
  f_lineno := 1

/-- A new event. -/
def PyEvent.new : PyEvent := ⟨[], -1, .unknown, false, false, 0⟩

/-- The function runs `LOAD_CONST`, its caller is at a `LOAD_FAST`. -/
theorem caller_classified : ¬ BelongsToInnermost (fun _ => (0, 0)) 29
    (frameOf ⟨[100, 0, 83, 0], by decide⟩) [frameOf ⟨[124, 0, 83, 0], by decide⟩] .new := by
  unfold BelongsToInnermost
  decide

/-- A function that calls itself, at the same instruction. -/
theorem recursion_classified : BelongsToInnermost (fun _ => (0, 0)) 29
    (frameOf ⟨[100, 0, 83, 0], by decide⟩) [frameOf ⟨[100, 0, 83, 0], by decide⟩] .new :=
  (belongsToInnermost_iff (fun _ => (0, 0)) (by decide) _ _ _).mpr
    ⟨by decide, fun h => absurd h (by decide), by decide⟩

end Kognizance
