import Mathlib.Data.List.GetD
import Kognizance.Agent.Bytecode

/-!
# The instruction format of the opcode table

The opcode table is the one of CPython 3.6. An instruction is an opcode byte and an argument byte,
and wider arguments are given by units of `EXTENDED_ARG` before it. The iterator steps over other
lengths.

* `next_ne_of_plain` and `report_ne_of_extended`: what is reported of one instruction is wrong, or
  the next one is looked for at the wrong place.
* `reportsInstructions_iff`: the instructions are reported if there are none.
-/

namespace Kognizance

open PyBytecodeIterator

/-- What the iterator reports of an instruction. -/
structure Report where
  index : ℕ
  opcode : ℤ
  oparg : Option (BitVec 32)
  deriving DecidableEq

namespace PyBytecodeIterator

/-- `CurIndex`, `Opcode` and, if the opcode has one, `Oparg`. -/
def report (it : PyBytecodeIterator) : Report where
  index := it.curIndex
  opcode := it.opcode
  oparg := if HAS_ARG it.opcode then some it.oparg else none

/-- What the loop over a code string reports, and whether it ends with an error. -/
def observed (opcode : ℤ) (oparg : BitVec 32) (s : CodeString) : List Report × Bool :=
  let r := Loop.trace advance stopped (s.size + 1) (new opcode oparg s)
  (r.1.map report, r.2.error)

end PyBytecodeIterator

/-! ### Code strings of units -/

/-- An instruction: the argument bytes of the `EXTENDED_ARG` units before it, its opcode and its
own argument byte. -/
structure Instruction where
  extended : List UInt8
  opcode : UInt8
  arg : UInt8
  opcode_ne : (opcode.toNat : ℤ) ≠ EXTENDED_ARG
  extended_le : extended.length ≤ 3
  hasArg : extended ≠ [] → HAS_ARG opcode.toNat = true

namespace Instruction

/-- The bytes of an instruction. -/
def bytes (x : Instruction) : List UInt8 :=
  (x.extended.flatMap fun b => [144, b]) ++ [x.opcode, x.arg]

/-- The full argument, the first unit highest. -/
def fullArg (x : Instruction) : ℕ :=
  (x.extended ++ [x.arg]).foldl (fun acc b => acc * 256 + b.toNat) 0

/-- What is to be reported of an instruction at `index`. -/
def report (x : Instruction) (index : ℕ) : Report where
  index := index
  opcode := x.opcode.toNat
  oparg := if HAS_ARG x.opcode.toNat then some (BitVec.ofNat 32 x.fullArg) else none

/-- What is to be reported of instructions that start at `index`. -/
def reports : ℕ → List Instruction → List Report
  | _, [] => []
  | index, x :: xs => x.report index :: reports (index + x.bytes.length) xs

end Instruction

/-- A well-formed code string: it is made of instructions. -/
structure WordCode where
  instructions : List Instruction
  size_lt : (instructions.flatMap Instruction.bytes).length < 2 ^ 63

/-- The code string. -/
def WordCode.code (w : WordCode) : CodeString where
  bytes := w.instructions.flatMap Instruction.bytes
  size_lt := w.size_lt

/-- The iterator reports the instructions of the code string, and ends without an error. -/
def ReportsInstructions (opcode : ℤ) (oparg : BitVec 32) (w : WordCode) : Prop :=
  observed opcode oparg w.code = (Instruction.reports 0 w.instructions, false)

instance (opcode : ℤ) (oparg : BitVec 32) (w : WordCode) :
    Decidable (ReportsInstructions opcode oparg w) :=
  inferInstanceAs (Decidable (_ = _))

/-! ### What the iterator reports instead -/

variable {it : PyBytecodeIterator}

/-- Past an `EXTENDED_ARG`, an iterator without an error has gone three bytes on. -/
theorem advanceExtended_ok (h : it.nextIndex ≤ it.bytecodeSize)
    (hok : it.advanceExtended.error = false) :
    it.advanceExtended.nextIndex = it.nextIndex + 3 ∧
      HAS_ARG it.advanceExtended.opcode = true ∧
      it.advanceExtended.oparg =
        it.oparg <<< 16 ||| it.argAt (it.nextIndex + 1) (it.nextIndex + 2) := by
  -- the three additions of the source, which stop at the size
  have h1 := sizeAdd_eq h (b := 1) (by decide)
  have h2 := sizeAdd_eq h (b := 2) (by decide)
  have h3 := sizeAdd_eq h (b := 3) (by decide)
  unfold advanceExtended readByte at hok ⊢
  simp only [readArg_eq] at hok ⊢
  by_cases hfell : it.bytecodeSize ≤ sizeAdd it.nextIndex 2
  · -- the code ends in the argument, which is an error
    rw [if_pos hfell] at hok
    cases hok
  · rw [if_neg hfell] at hok ⊢
    by_cases harg : HAS_ARG (it.byteAt it.nextIndex).toNat = true
    · rw [if_pos harg]
      exact ⟨h3, harg, by simp only [h1, h2]; rfl⟩
    · -- an opcode without an argument behind `EXTENDED_ARG` is an error
      rw [if_neg harg] at hok
      cases hok

/-- An iterator without an error has gone over two bytes of an argument, or over five after an
`EXTENDED_ARG`. -/
theorem advanceArg_ok (h : it.nextIndex ≤ it.bytecodeSize) (hok : it.advanceArg.error = false) :
    it.opcode ≠ EXTENDED_ARG ∧ it.advanceArg.nextIndex = it.nextIndex + 2 ∨
      it.opcode = EXTENDED_ARG ∧ it.advanceArg.nextIndex = it.nextIndex + 5 ∧
      HAS_ARG it.advanceArg.opcode = true ∧
      it.advanceArg.oparg = it.argAt it.nextIndex (it.nextIndex + 1) <<< 16 |||
        it.argAt (it.nextIndex + 3) (it.nextIndex + 4) := by
  have h1 := sizeAdd_eq h (b := 1) (by decide)
  have h2 := sizeAdd_eq h (b := 2) (by decide)
  unfold advanceArg at hok ⊢
  simp only [readArg_eq] at hok ⊢
  by_cases hfell : it.bytecodeSize ≤ sizeAdd it.nextIndex 1
  · -- the code ends in the argument, which is an error
    rw [if_pos hfell] at hok
    cases hok
  · rw [if_neg hfell] at hok ⊢
    by_cases hext : it.opcode = EXTENDED_ARG
    · rw [if_pos hext] at hok ⊢
      obtain ⟨hnext, harg, hoparg⟩ := advanceExtended_ok
        (show sizeAdd it.nextIndex 2 ≤ it.bytecodeSize by omega) hok
      refine Or.inr ⟨hext, hnext.trans ?_, harg, hoparg.trans ?_⟩
      · simp only [h2]
      · simp only [h1, h2]
        rfl
    · rw [if_neg hext]
      exact Or.inl ⟨hext, h2⟩

/-- The iterator that reports the instructions goes on behind the first one. -/
theorem next_of_reports {s : CodeString} {x : Instruction} {xs : List Instruction} {fuel : ℕ}
    (hstr : it.bytecodeStr = s) (hsafe : it.Safe) (hpos : 0 < fuel)
    (hsize : s.size = x.bytes.length + (xs.flatMap Instruction.bytes).length)
    (hrun : ((Loop.trace advance stopped (fuel + 1) it).1.map report,
      (Loop.trace advance stopped (fuel + 1) it).2.error) =
        (Instruction.reports 0 (x :: xs), false)) :
    it.error = false ∧ it.report = x.report 0 ∧ it.nextIndex = x.bytes.length := by
  obtain ⟨hreports, herror⟩ := Prod.mk.inj hrun
  cases hstop : it.stopped with
  | true =>
    rw [Loop.trace_of_stop hstop] at hreports
    cases hreports
  | false =>
    rw [Loop.trace_succ hstop] at hreports herror
    obtain ⟨hhead, htail⟩ := List.cons.inj hreports
    refine ⟨(Bool.or_eq_false_iff.mp hstop).2, hhead, ?_⟩
    have hcur : it.advance.curIndex = it.nextIndex := (advance_spec hsafe.next_le).2.1
    obtain ⟨fuel, rfl⟩ := Nat.exists_eq_succ_of_ne_zero hpos.ne'
    rw [← hcur]
    cases hstop' : it.advance.stopped with
    | true =>
      -- nothing is reported any more, so there is no other instruction
      rw [Loop.trace_of_stop hstop'] at htail herror
      cases xs with
      | nil =>
        have herror' : it.advance.error = false := herror
        have hdone : it.advance.done = true := by
          simpa [stopped, herror'] using hstop'
        have hend : it.advance.curIndex = it.advance.bytecodeSize := done_iff.mp hdone
        rw [hend, show it.advance.bytecodeSize = s.size from
          congrArg CodeString.size ((advance_spec hsafe.next_le).1.trans hstr), hsize]
        rfl
      | cons y ys => cases htail
    | false =>
      rw [Loop.trace_succ hstop'] at htail
      cases xs with
      | nil => cases htail
      | cons y ys =>
        have hreport := (List.cons.inj htail).1
        have hindex : it.advance.curIndex = 0 + x.bytes.length := congrArg Report.index hreport
        rwa [Nat.zero_add] at hindex

theorem length_bytes (x : Instruction) : x.bytes.length = 2 * (x.extended.length + 1) := by
  have hext : (x.extended.flatMap fun b => [144, b]).length = 2 * x.extended.length := by
    rw [List.length_flatMap]
    simp [Nat.mul_comm]
  rw [Instruction.bytes, List.length_append, hext]
  rfl

/-- The argument the iterator makes of two `EXTENDED_ARG` units has the opcode of the second one in
it, which a full argument of three bytes is too small for. -/
theorem oparg_ne (a b c d e : UInt8) :
    (BitVec.ofNat 32 a.toNat ||| BitVec.ofNat 32 (144 : UInt8).toNat <<< 8) <<< 16 |||
        (BitVec.ofNat 32 b.toNat ||| BitVec.ofNat 32 c.toNat <<< 8) ≠
      BitVec.ofNat 32 ((a.toNat * 256 + d.toNat) * 256 + e.toNat) := by
  intro h
  have ha := a.toNat_lt
  have hd := d.toNat_lt
  have he := e.toNat_lt
  have hsmall : (a.toNat * 256 + d.toNat) * 256 + e.toNat < 2 ^ 31 := by omega
  -- bit 31 comes from the opcode
  have hbit := congrArg (fun v : BitVec 32 => v.getLsbD 31) h
  rw [BitVec.getLsbD_ofNat, Nat.testBit_lt_two_pow hsmall] at hbit
  simp at hbit

/-- The iterator is at an instruction. -/
def AtInstruction (it : PyBytecodeIterator) (x : Instruction) : Prop :=
  it.nextIndex < it.bytecodeSize ∧
    ∀ i < x.bytes.length, it.byteAt (it.nextIndex + i) = x.bytes.getD i 0

/-- An instruction without `EXTENDED_ARG` has two bytes; the iterator takes one or three. -/
theorem next_ne_of_plain {x : Instruction} (hat : AtInstruction it x) (hext : x.extended = [])
    (hok : it.advance.error = false) : it.advance.nextIndex ≠ it.nextIndex + x.bytes.length := by
  obtain ⟨hlt, hbyte⟩ := hat
  have hlen : x.bytes.length = 2 := by rw [length_bytes, hext]; rfl
  have hop : it.byteAt it.nextIndex = x.opcode := by
    rw [← it.nextIndex.add_zero, hbyte 0 (by omega), Instruction.bytes, hext]
    rfl
  have hnew := advance_of_lt hlt
  by_cases harg : HAS_ARG (it.byteAt it.nextIndex).toNat = true
  · -- with an argument the iterator takes the opcode and two bytes
    rw [if_pos harg] at hnew
    rw [hnew] at hok ⊢
    have hfetch : it.fetch.nextIndex = it.nextIndex + 1 := rfl
    have hle : it.fetch.nextIndex ≤ it.fetch.bytecodeSize := hlt
    rcases advanceArg_ok hle hok with ⟨-, hnext⟩ | ⟨hextended, -⟩
    · omega
    · exact absurd (hop ▸ hextended) x.opcode_ne
  · -- without one it takes the opcode alone
    rw [if_neg harg] at hnew
    have hfetch : it.fetch.nextIndex = it.nextIndex + 1 := rfl
    rw [hnew]
    omega

/-- After an `EXTENDED_ARG` the iterator takes six bytes, so there would be two of them; then the
argument is wrong. -/
theorem report_ne_of_extended {x : Instruction} {a : UInt8} {ext : List UInt8}
    (hat : AtInstruction it x) (hext : x.extended = a :: ext) (hok : it.advance.error = false)
    (hnext : it.advance.nextIndex = it.nextIndex + x.bytes.length) :
    it.advance.report ≠ x.report it.nextIndex := by
  obtain ⟨hlt, hbyte⟩ := hat
  have hlen : x.bytes.length = 2 * (ext.length + 2) := by rw [length_bytes, hext]; rfl
  have hop : it.byteAt it.nextIndex = 144 := by
    rw [← it.nextIndex.add_zero, hbyte 0 (by omega), Instruction.bytes, hext]
    rfl
  have hnew := advance_of_lt hlt
  rw [if_pos (by rw [hop]; rfl)] at hnew
  rw [hnew] at hok hnext ⊢
  have hfetch : it.fetch.nextIndex = it.nextIndex + 1 := rfl
  have hle : it.fetch.nextIndex ≤ it.fetch.bytecodeSize := hlt
  -- it takes three bytes and three more, so the instruction has two `EXTENDED_ARG`s
  rcases advanceArg_ok hle hok with ⟨hextended, -⟩ | ⟨-, hnext', harg, hoparg⟩
  · exact absurd (congrArg (fun b : UInt8 => (b.toNat : ℤ)) hop) hextended
  · obtain ⟨b, rfl⟩ := List.length_eq_one_iff.mp (show ext.length = 1 by omega)
    have hbytes : x.bytes = [144, a, 144, b, x.opcode, x.arg] := by
      rw [Instruction.bytes, hext]
      rfl
    rw [hbytes] at hbyte
    intro hreport
    have hop' : it.fetch.advanceArg.opcode = x.opcode.toNat := congrArg Report.opcode hreport
    have hoparg' := congrArg Report.oparg hreport
    simp only [PyBytecodeIterator.report, Instruction.report] at hoparg'
    rw [if_pos harg, if_pos (hop' ▸ harg), Option.some.injEq, hoparg] at hoparg'
    -- of the six bytes, the opcode of the second one is read as part of the argument
    have hread : ∀ i < 5, it.fetch.byteAt (it.fetch.nextIndex + i) =
        [144, a, 144, b, x.opcode, x.arg].getD (i + 1) 0 := fun i hi => by
      rw [hfetch, add_assoc, add_comm 1 i]
      exact hbyte (i + 1) (Nat.succ_lt_succ hi)
    have hfull : x.fullArg = (a.toNat * 256 + b.toNat) * 256 + x.arg.toNat := by
      simp [Instruction.fullArg, hext]
    have hargs : it.fetch.argAt it.fetch.nextIndex (it.fetch.nextIndex + 1) <<< 16 |||
        it.fetch.argAt (it.fetch.nextIndex + 3) (it.fetch.nextIndex + 4) =
      (BitVec.ofNat 32 a.toNat ||| BitVec.ofNat 32 (144 : UInt8).toNat <<< 8) <<< 16 |||
        (BitVec.ofNat 32 x.opcode.toNat ||| BitVec.ofNat 32 x.arg.toNat <<< 8) := by
      unfold argAt
      rw [show it.fetch.byteAt it.fetch.nextIndex = a from hread 0 (by decide),
        show it.fetch.byteAt (it.fetch.nextIndex + 1) = 144 from hread 1 (by decide),
        show it.fetch.byteAt (it.fetch.nextIndex + 3) = x.opcode from hread 3 (by decide),
        show it.fetch.byteAt (it.fetch.nextIndex + 4) = x.arg from hread 4 (by decide)]
    rw [hargs, hfull] at hoparg'
    exact oparg_ne a x.opcode x.arg b x.arg hoparg'

/-- **No instruction is reported as it is**, with nothing going wrong at the next one. -/
theorem not_reportsInstructions {w : WordCode} {opcode : ℤ} {oparg : BitVec 32}
    (h : w.instructions ≠ []) : ¬ ReportsInstructions opcode oparg w := by
  intro hrun
  obtain ⟨x, xs, hcons⟩ := List.exists_cons_of_ne_nil h
  -- the first instruction lies at the start of the code, where the iterator begins
  have hbytes : w.code.bytes = x.bytes ++ xs.flatMap Instruction.bytes := by
    show w.instructions.flatMap Instruction.bytes = _
    rw [hcons, List.flatMap_cons]
  have hsize : w.code.size = x.bytes.length + (xs.flatMap Instruction.bytes).length := by
    rw [CodeString.size, hbytes, List.length_append]
  have hlen := length_bytes x
  unfold ReportsInstructions observed at hrun
  rw [hcons] at hrun
  obtain ⟨hok, hreport, hnext⟩ := next_of_reports (advance_spec (Nat.zero_le _)).1
    (new_safe opcode oparg w.code) (by omega) hsize hrun
  have hat : AtInstruction (start opcode oparg w.code 0) x := by
    refine ⟨show 0 < w.code.size by omega, fun i hi => ?_⟩
    show w.code.bytes.getD (0 + i) 0 = _
    rw [hbytes, Nat.zero_add, List.getD_append _ _ _ _ hi]
  rw [← Nat.zero_add x.bytes.length] at hnext
  -- plain or extended, the iterator does not come to its end, or reports another argument
  cases hext : x.extended with
  | nil => exact next_ne_of_plain hat hext hok hnext
  | cons a ext => exact report_ne_of_extended hat hext hok hnext hreport

/-- **The iterator reports the instructions of the empty code string only.** -/
theorem reportsInstructions_iff (w : WordCode) (opcode : ℤ) (oparg : BitVec 32) :
    ReportsInstructions opcode oparg w ↔ w.instructions = [] := by
  constructor
  · exact fun h => not_not.mp fun hne => not_reportsInstructions hne h
  · intro h
    obtain ⟨xs, hlt⟩ := w
    subst h
    rfl

/-- `LOAD_CONST 0; RETURN_VALUE` -/
def loadReturn : WordCode where
  instructions :=
    [⟨[], 100, 0, by decide, by decide, by decide⟩, ⟨[], 83, 0, by decide, by decide, by decide⟩]
  size_lt := by decide

theorem loadReturn_not_reported : ¬ ReportsInstructions 0 0 loadReturn := by decide

end Kognizance
