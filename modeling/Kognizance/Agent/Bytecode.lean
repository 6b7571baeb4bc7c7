import Mathlib.Data.List.Basic
import Mathlib.Data.UInt
import Kognizance.Lib.Loop

/-!
# Iterating over bytecode

`PyBytecodeIterator` goes through the code string of a Python function. Its instructions have one
byte, three with an argument, and six after an `EXTENDED_ARG`.

* `advance_spec`: what one call of `Advance` does to the place of the iterator.
* `iterator_safe`: no byte outside the code string is read, and the iteration ends.
-/

namespace Kognizance

/-- `HAVE_ARGUMENT` -/
abbrev HAVE_ARGUMENT : ℤ := 90

/-- `EXTENDED_ARG` -/
abbrev EXTENDED_ARG : ℤ := 144

/-- `HAS_ARG` -/
def HAS_ARG (op : ℤ) : Bool := decide (HAVE_ARGUMENT ≤ op)

/-- A bytes object; its size is a `Py_ssize_t`. -/
structure CodeString where
  bytes : List UInt8
  size_lt : bytes.length < 2 ^ 63

/-- `PyStr_GET_SIZE` -/
abbrev CodeString.size (s : CodeString) : ℕ := s.bytes.length

/-- The sum of two `size_t`. -/
def sizeAdd (a b : ℕ) : ℕ := (a + b) % 2 ^ 64

/-- `PyBytecodeIterator`. `systemError` is the text of the Python error it has set, and `reads`
keeps the indices at which it has read the code string. -/
structure PyBytecodeIterator where
  opcode : ℤ
  oparg : BitVec 32
  curIndex : ℕ
  nextIndex : ℕ
  error : Bool
  bytecodeStr : CodeString
  systemError : Option String
  reads : List ℕ

namespace PyBytecodeIterator

/-- `bytecode_size_` -/
abbrev bytecodeSize (it : PyBytecodeIterator) : ℕ := it.bytecodeStr.size

/-- `Done` -/
def done (it : PyBytecodeIterator) : Bool := it.curIndex == it.bytecodeSize

/-- The byte at an index. What lies behind the string is left open; `reads` tells whether it has
been read. -/
def byteAt (it : PyBytecodeIterator) (i : ℕ) : UInt8 := it.bytecodeStr.bytes.getD i 0

/-- `bytecode_str_[i]`. The code string is read here only. -/
def readByte (it : PyBytecodeIterator) (i : ℕ) : UInt8 × PyBytecodeIterator :=
  (it.byteAt i, { it with reads := it.reads ++ [i] })

/-- `bytecode_str_[i] | bytecode_str_[j] << 8` -/
def readArg (it : PyBytecodeIterator) (i j : ℕ) : BitVec 32 × PyBytecodeIterator :=
  let (low, it) := it.readByte i
  let (high, it) := it.readByte j
  (BitVec.ofNat 32 low.toNat ||| BitVec.ofNat 32 high.toNat <<< 8, it)

/-- `PyErr_SetString(PyExc_SystemError, text)` and `error_ = true`. -/
def fail (it : PyBytecodeIterator) (text : String) : PyBytecodeIterator :=
  { it with error := true, systemError := some text }

/-- `Advance`, where the opcode is `EXTENDED_ARG` and its argument has been read. -/
def advanceExtended (it : PyBytecodeIterator) : PyBytecodeIterator :=
  if it.bytecodeSize ≤ sizeAdd it.nextIndex 2 then
    it.fail "EXTENDED_ARG fell off the end of the bytecode"
  else
    let (op, it) := it.readByte it.nextIndex
    let it := { it with opcode := op.toNat }
    if HAS_ARG it.opcode then
      let (arg, it) := it.readArg (sizeAdd it.nextIndex 1) (sizeAdd it.nextIndex 2)
      { it with
        oparg := it.oparg <<< 16 ||| arg
        nextIndex := sizeAdd it.nextIndex 3 }
    else it.fail "Opcode after EXTENDED_ARG must take argument"

/-- `Advance`, where the opcode has an argument. -/
def advanceArg (it : PyBytecodeIterator) : PyBytecodeIterator :=
  if it.bytecodeSize ≤ sizeAdd it.nextIndex 1 then
    it.fail "Argument fell off the end of the bytecode"
  else
    let (arg, it) := it.readArg it.nextIndex (sizeAdd it.nextIndex 1)
    let it := { it with
      oparg := arg
      nextIndex := sizeAdd it.nextIndex 2 }
    if it.opcode = EXTENDED_ARG then it.advanceExtended else it

/-- `Advance` -/
def advance (it : PyBytecodeIterator) : PyBytecodeIterator :=
  let it := { it with curIndex := it.nextIndex }
  if it.done then it
  else
    let (op, it) := it.readByte it.curIndex
    let it := { it with
      opcode := op.toNat
      nextIndex := sizeAdd it.nextIndex 1 }
    if HAS_ARG it.opcode then it.advanceArg else it

/-- The fields of the iterator before the first `Advance`; `opcode_` and `oparg_` hold what was in
the memory. -/
def start (opcode : ℤ) (oparg : BitVec 32) (s : CodeString) (index : ℕ) : PyBytecodeIterator where
  opcode := opcode
  oparg := oparg
  curIndex := 0
  nextIndex := index
  error := false
  bytecodeStr := s
  systemError := none
  reads := []

/-- `PyBytecodeIterator(bytecode_string)` -/
def new (opcode : ℤ) (oparg : BitVec 32) (s : CodeString) : PyBytecodeIterator :=
  (start opcode oparg s 0).advance

/-- `PyBytecodeIterator(iter, index)` -/
def newAt (opcode : ℤ) (oparg : BitVec 32) (iter : PyBytecodeIterator) (index : ℤ) :
    PyBytecodeIterator :=
  (start opcode oparg iter.bytecodeStr (index % 2 ^ 64).toNat).advance

/-- The condition the loop `for (; !iter.Done() && !iter.Error(); iter.Advance())` ends on. -/
def stopped (it : PyBytecodeIterator) : Bool := it.done || it.error

/-- The iterator after `k` rounds of the loop. -/
def after (it : PyBytecodeIterator) (k : ℕ) : PyBytecodeIterator :=
  (Loop.round advance stopped)^[k] it

/-! ### Safety -/

/-- The argument in the bytes at two indices. -/
def argAt (it : PyBytecodeIterator) (i j : ℕ) : BitVec 32 :=
  BitVec.ofNat 32 (it.byteAt i).toNat ||| BitVec.ofNat 32 (it.byteAt j).toNat <<< 8

theorem readArg_eq (it : PyBytecodeIterator) (i j : ℕ) :
    it.readArg i j = (it.argAt i j, { it with reads := it.reads ++ [i, j] }) := by
  unfold readArg readByte
  dsimp only
  rw [List.append_assoc]
  rfl

/-- What `Advance` does to an iterator once it is at an instruction: it reads more bytes of the
code string and leaves the next index further on. -/
structure Extends (it it' : PyBytecodeIterator) : Prop where
  str : it'.bytecodeStr = it.bytecodeStr
  cur : it'.curIndex = it.curIndex
  le_next : it.nextIndex ≤ it'.nextIndex
  next_le : it'.nextIndex ≤ it.bytecodeSize
  reads : ∃ l, it'.reads = it.reads ++ l ∧ ∀ i ∈ l, i < it.bytecodeSize

variable {it it' it'' : PyBytecodeIterator}

theorem Extends.trans (h : Extends it it') (h' : Extends it' it'') : Extends it it'' := by
  obtain ⟨l, hl, hin⟩ := h.reads
  obtain ⟨l', hl', hin'⟩ := h'.reads
  have hsize : it'.bytecodeSize = it.bytecodeSize := congrArg CodeString.size h.str
  refine ⟨h'.str.trans h.str, h'.cur.trans h.cur, h.le_next.trans h'.le_next,
    hsize ▸ h'.next_le, l ++ l', by rw [hl', hl, List.append_assoc], ?_⟩
  intro i hi
  rcases List.mem_append.mp hi with hi | hi
  · exact hin i hi
  · exact hsize ▸ hin' i hi

theorem sizeAdd_eq (h : it.nextIndex ≤ it.bytecodeSize) {b : ℕ} (hb : b ≤ 3) :
    sizeAdd it.nextIndex b = it.nextIndex + b := by
  have hlt : it.bytecodeSize < 2 ^ 63 := it.bytecodeStr.size_lt
  exact Nat.mod_eq_of_lt (by omega)

theorem advanceExtended_extends (h : it.nextIndex ≤ it.bytecodeSize) :
    Extends it it.advanceExtended := by
  have h1 := sizeAdd_eq h (b := 1) (by decide)
  have h2 := sizeAdd_eq h (b := 2) (by decide)
  have h3 := sizeAdd_eq h (b := 3) (by decide)
  unfold advanceExtended readByte
  by_cases hfell : it.bytecodeSize ≤ sizeAdd it.nextIndex 2
  · -- too few bytes are left, and none of them is read
    rw [if_pos hfell]
    exact ⟨rfl, rfl, le_rfl, h, [], (List.append_nil _).symm, by simp⟩
  · rw [if_neg hfell]
    rw [h2] at hfell
    simp only [readArg_eq]
    by_cases harg : HAS_ARG (it.byteAt it.nextIndex).toNat = true
    · rw [if_pos harg]
      simp only [h1, h2, h3]
      refine ⟨rfl, rfl, Nat.le_add_right _ _, by simpa using (by omega), _,
        List.append_assoc _ _ _, ?_⟩
      simp only [List.mem_append, List.mem_cons, List.not_mem_nil, or_false]
      omega
    · rw [if_neg harg]
      refine ⟨rfl, rfl, le_rfl, h, [it.nextIndex], rfl, ?_⟩
      simp only [List.mem_cons, List.not_mem_nil, or_false]
      omega

theorem advanceArg_extends (h : it.nextIndex ≤ it.bytecodeSize) : Extends it it.advanceArg := by
  have h1 := sizeAdd_eq h (b := 1) (by decide)
  have h2 := sizeAdd_eq h (b := 2) (by decide)
  unfold advanceArg
  by_cases hfell : it.bytecodeSize ≤ sizeAdd it.nextIndex 1
  · rw [if_pos hfell]
    exact ⟨rfl, rfl, le_rfl, h, [], (List.append_nil _).symm, by simp⟩
  · rw [if_neg hfell]
    rw [h1] at hfell
    simp only [readArg_eq]
    -- the two bytes of the argument, and what may follow an `EXTENDED_ARG`
    have hread : Extends it { it with
        oparg := it.argAt it.nextIndex (sizeAdd it.nextIndex 1)
        nextIndex := sizeAdd it.nextIndex 2
        reads := it.reads ++ [it.nextIndex, sizeAdd it.nextIndex 1] } := by
      simp only [h1, h2]
      refine ⟨rfl, rfl, Nat.le_add_right _ _, by simpa using (by omega), _, rfl, ?_⟩
      simp only [List.mem_cons, List.not_mem_nil, or_false]
      omega
    by_cases hext : it.opcode = EXTENDED_ARG
    · rw [if_pos hext]
      exact hread.trans (advanceExtended_extends hread.next_le)
    · rw [if_neg hext]
      exact hread

/-- The state after the opcode of the instruction at the next index has been read. -/
def fetch (it : PyBytecodeIterator) : PyBytecodeIterator :=
  { it with
    curIndex := it.nextIndex
    opcode := (it.byteAt it.nextIndex).toNat
    nextIndex := it.nextIndex + 1
    reads := it.reads ++ [it.nextIndex] }

theorem advance_of_end (h : it.nextIndex = it.bytecodeSize) :
    it.advance = { it with curIndex := it.nextIndex } :=
  if_pos (beq_iff_eq.mpr h)

theorem advance_of_lt (h : it.nextIndex < it.bytecodeSize) :
    it.advance = if HAS_ARG (it.byteAt it.nextIndex).toNat then it.fetch.advanceArg
      else it.fetch := by
  have hdone : ¬ (it.nextIndex == it.bytecodeSize) = true := by simp; omega
  unfold advance readByte fetch
  rw [← sizeAdd_eq h.le (b := 1) (by decide)]
  exact if_neg hdone

/-- **One call of `Advance`**: the iterator goes to the next index, and reads on from there. -/
theorem advance_spec (h : it.nextIndex ≤ it.bytecodeSize) :
    it.advance.bytecodeStr = it.bytecodeStr ∧ it.advance.curIndex = it.nextIndex ∧
      it.advance.nextIndex ≤ it.bytecodeSize ∧
      (it.nextIndex < it.bytecodeSize → it.nextIndex < it.advance.nextIndex) ∧
      ∃ l, it.advance.reads = it.reads ++ l ∧ ∀ i ∈ l, i < it.bytecodeSize := by
  rcases h.eq_or_lt with hend | hlt
  · -- at the end nothing is read
    rw [advance_of_end hend]
    exact ⟨rfl, rfl, h, fun hlt => absurd hend hlt.ne, [], (List.append_nil _).symm, by simp⟩
  · have hfetch : it.fetch.nextIndex ≤ it.fetch.bytecodeSize := hlt
    -- the opcode is read, and then what comes behind an opcode with an argument
    have hextends : Extends it.fetch it.advance := by
      rw [advance_of_lt hlt]
      by_cases harg : HAS_ARG (it.byteAt it.nextIndex).toNat = true
      · rw [if_pos harg]
        exact advanceArg_extends hfetch
      · rw [if_neg harg]
        exact ⟨rfl, rfl, le_rfl, hfetch, [], (List.append_nil _).symm, by simp⟩
    -- of the bytes read, the first is the opcode, below the size by the test of the loop
    obtain ⟨l, hl, hin⟩ := hextends.reads
    refine ⟨hextends.str, hextends.cur, hextends.next_le, fun _ => hextends.le_next,
      it.nextIndex :: l, by rw [hl]; exact List.append_assoc _ [_] _, ?_⟩
    rintro i (_ | ⟨_, hi⟩)
    · exact hlt
    · exact hin i hi

/-- The invariant of the iteration. -/
structure Safe (it : PyBytecodeIterator) : Prop where
  cur_le : it.curIndex ≤ it.bytecodeSize
  next_le : it.nextIndex ≤ it.bytecodeSize
  cur_lt : it.done = false → it.curIndex < it.nextIndex
  reads_lt : ∀ i ∈ it.reads, i < it.bytecodeSize

theorem advance_safe (h : it.nextIndex ≤ it.bytecodeSize)
    (hreads : ∀ i ∈ it.reads, i < it.bytecodeSize) : it.advance.Safe := by
  obtain ⟨hstr, hcur, hnext, hup, l, hl, hin⟩ := advance_spec h
  have hsize : it.advance.bytecodeSize = it.bytecodeSize := congrArg CodeString.size hstr
  refine ⟨by rw [hcur, hsize]; exact h, by rw [hsize]; exact hnext, fun hdone => ?_, ?_⟩
  · have hne : it.nextIndex ≠ it.bytecodeSize := by
      simpa [done, hcur, hsize] using hdone
    rw [hcur]
    exact hup (Nat.lt_of_le_of_ne h hne)
  · rw [hl, hsize]
    intro i hi
    rcases List.mem_append.mp hi with hi | hi
    · exact hreads i hi
    · exact hin i hi

theorem new_safe (opcode : ℤ) (oparg : BitVec 32) (s : CodeString) : (new opcode oparg s).Safe :=
  advance_safe (Nat.zero_le _) (by simp [start])

/-- The other constructor is safe from an index of the code string or its end. -/
theorem newAt_safe (opcode : ℤ) (oparg : BitVec 32) {index : ℤ} (hpos : 0 ≤ index)
    (hindex : index ≤ it.bytecodeSize) : (newAt opcode oparg it index).Safe := by
  have hlt : it.bytecodeSize < 2 ^ 63 := it.bytecodeStr.size_lt
  refine advance_safe ?_ (by simp [start])
  show (index % 2 ^ 64).toNat ≤ it.bytecodeSize
  omega

/-- A step of the loop keeps the invariant and goes up. -/
theorem Safe.step (h : it.Safe) (hstop : it.stopped = false) :
    it.advance.Safe ∧ it.advance.bytecodeStr = it.bytecodeStr ∧
      it.curIndex < it.advance.curIndex := by
  have hdone : it.done = false := (Bool.or_eq_false_iff.mp hstop).1
  obtain ⟨hstr, hcur, -⟩ := advance_spec h.next_le
  exact ⟨advance_safe h.next_le h.reads_lt, hstr, hcur ▸ h.cur_lt hdone⟩

/-- The invariant, with the code string that is iterated over. -/
def SafeOver (s : CodeString) (it : PyBytecodeIterator) : Prop := it.Safe ∧ it.bytecodeStr = s

/-- The invariant holds after every number of rounds, over the same code string. -/
theorem Safe.after (h : it.Safe) (k : ℕ) : SafeOver it.bytecodeStr (it.after k) :=
  Loop.round_invariant (SafeOver it.bytecodeStr)
    (fun _ hinv hstop => ⟨(hinv.1.step hstop).1, (hinv.1.step hstop).2.1.trans hinv.2⟩)
    ⟨h, rfl⟩ k

theorem after_succ {k : ℕ} (h : (it.after k).stopped = false) :
    it.after (k + 1) = (it.after k).advance := by
  unfold after at h ⊢
  rw [Function.iterate_succ_apply', Loop.round_of_not_stop h]

theorem done_iff : it.done = true ↔ it.curIndex = it.bytecodeSize := beq_iff_eq

/-- The loop ends. -/
theorem Safe.stopped_after (h : it.Safe) {k : ℕ} (hk : it.bytecodeSize ≤ it.curIndex + k) :
    (it.after k).stopped = true := by
  refine Loop.stop_of_bounded (SafeOver it.bytecodeStr) curIndex it.bytecodeSize ?_ ?_ ⟨h, rfl⟩ hk
  · rintro s ⟨hs, hstr⟩ hstop
    obtain ⟨hsafe, hstr', hup⟩ := hs.step hstop
    exact ⟨⟨hsafe, hstr'.trans hstr⟩, hup⟩
  · rintro s ⟨hs, hstr⟩ hle
    have hsize : s.bytecodeSize = it.bytecodeSize := congrArg CodeString.size hstr
    have hdone : s.done = true := done_iff.mpr (le_antisymm hs.cur_le (hsize ▸ hle))
    exact Bool.or_eq_true_iff.mpr (Or.inl hdone)

end PyBytecodeIterator

open PyBytecodeIterator

/-- **The iteration over every byte string is safe and ends.** The constructor makes one call of
`Advance`, and `k` rounds of the loop make `k` more. -/
theorem iterator_safe (s : CodeString) (opcode : ℤ) (oparg : BitVec 32) :
    (∀ k, (∀ i ∈ ((new opcode oparg s).after k).reads, i < s.size) ∧
      ((new opcode oparg s).after k).nextIndex ≤ s.size ∧
      (((new opcode oparg s).after k).done = false →
        ((new opcode oparg s).after k).curIndex < s.size) ∧
      (((new opcode oparg s).after k).stopped = false →
        ((new opcode oparg s).after k).curIndex <
          ((new opcode oparg s).after (k + 1)).curIndex)) ∧
      ∃ k, k + 1 ≤ s.size + 1 ∧ ((new opcode oparg s).after k).stopped = true := by
  -- every number of rounds keeps the iterator within the string
  have hnew := new_safe opcode oparg s
  have hstr : (new opcode oparg s).bytecodeStr = s := (advance_spec (Nat.zero_le _)).1
  have hsize : (new opcode oparg s).bytecodeSize = s.size := congrArg CodeString.size hstr
  refine ⟨fun k => ?_, s.size, le_rfl, hnew.stopped_after (hsize ▸ Nat.le_add_left _ _)⟩
  obtain ⟨hk, hkstr⟩ := hnew.after k
  have hksize : ((new opcode oparg s).after k).bytecodeSize = s.size :=
    congrArg CodeString.size (hkstr.trans hstr)
  refine ⟨hksize ▸ hk.reads_lt, hksize ▸ hk.next_le, fun hdone => ?_, fun hstop => ?_⟩
  · -- an iterator that is not done is at a byte, as it can only be at one or at the end
    refine hksize ▸ Nat.lt_of_le_of_ne hk.cur_le fun heq => ?_
    exact Bool.false_ne_true (hdone.symm.trans (done_iff.mpr heq))
  · rw [after_succ hstop]
    exact (hk.step hstop).2.2

end Kognizance
