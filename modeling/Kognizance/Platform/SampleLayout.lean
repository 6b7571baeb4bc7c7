import Kognizance.Platform.PerfRecord
import Mathlib.Data.List.Flatten
import Mathlib.Data.List.GetD

/-!
# Every sample type

The parser has code for every field that `sample_type` can select, and the devices select few
of them. The kernel writes the fields in an order of its own: the identifier comes first and
the registers at the interrupt last, where the parser looks for the identifier near the end and
for these registers before the user stack.

* `FullSample.bytes` lays out every field, as `perf_event_open(2)` describes them. Bits of
  `sample_type` from 19 on and of `read_format` from 4 on select fields the parser has no code
  for; they are not laid out.
* `Readable` says which choices of fields the parser reads in step with the kernel.
* `readSample_iff_readable`: it reads back every sample of a choice exactly if the choice is
  readable.
-/

namespace Kognizance

open LittleEndian

/-- Registers as the kernel dumps them. -/
structure RegDump where
  abi : UInt64
  regs : List UInt64
  deriving DecidableEq, Repr

/-- A sample with all its fields. -/
structure FullSample extends Sample where
  streamId : UInt64
  value : UInt64
  timeEnabled : UInt64
  timeRunning : UInt64
  /-- the values and ids of the events of a group -/
  values : List (UInt64 × UInt64)
  raw : List UInt8
  /-- from, to and flags -/
  branches : List (UInt64 × UInt64 × UInt64)
  userRegs : RegDump
  stack : List UInt8
  dynSize : UInt64
  weight : UInt64
  dataSrc : UInt64
  identifier : UInt64
  transaction : UInt64
  intrRegs : RegDump
  deriving DecidableEq, Repr

/-- Words of 64 bits, one behind the other. -/
def words (ws : List UInt64) : List UInt8 := ws.flatMap fun w => leBytes 8 w.toNat

/-- The registers follow if there are any. -/
def RegDump.words (r : RegDump) : List UInt64 := r.abi :: if r.abi = 0 then [] else r.regs

namespace FullSample

/-- `struct read_format` -/
def readFormatWords (readFormat : ℕ) (s : FullSample) : List UInt64 :=
  let times := (if readFormat.testBit 0 then [s.timeEnabled] else []) ++
    if readFormat.testBit 1 then [s.timeRunning] else []
  let id (id : UInt64) : List UInt64 := if readFormat.testBit 2 then [id] else []
  if readFormat.testBit 3 then
    UInt64.ofNat s.values.length :: times ++ s.values.flatMap fun (value, i) => value :: id i
  else s.value :: times ++ id s.id

/-- A field as it is written. -/
def bytes (readFormat : ℕ) (s : FullSample) : SampleField → List UInt8
  | .streamId => words [s.streamId]
  | .read => words (s.readFormatWords readFormat)
  | .raw => leBytes 4 s.raw.length ++ s.raw
  | .branchStack =>
    leBytes 8 s.branches.length ++ words (s.branches.flatMap fun (f, t, fl) => [f, t, fl])
  | .regsUser => words s.userRegs.words
  | .stackUser =>
    leBytes 8 s.stack.length ++ if s.stack = [] then [] else s.stack ++ words [s.dynSize]
  | .weight => words [s.weight]
  | .dataSrc => words [s.dataSrc]
  | .identifier => words [s.identifier]
  | .transaction => words [s.transaction]
  | .regsIntr => words s.intrRegs.words
  | f => s.toSample.bytes f

/-- The fields of a sample behind its header. -/
def body (sampleType readFormat : ℕ) (s : FullSample) : List UInt8 :=
  (SampleField.written.filter (selects sampleType)).flatMap (s.bytes readFormat)

/-- Registers are dumped, by an ABI of 32 or 64 bits, and so is a stack. -/
structure Whole (regMask : ℕ) (s : FullSample) : Prop where
  userAbi : s.userRegs.abi = 1 ∨ s.userRegs.abi = 2
  userRegs : s.userRegs.regs.length = ((List.range 64).filter regMask.testBit).length
  intrAbi : s.intrRegs.abi = 1 ∨ s.intrRegs.abi = 2
  intrRegs : s.intrRegs.regs.length = ((List.range 64).filter regMask.testBit).length
  stack : s.stack ≠ []

end FullSample

/-- The parser skips the field without a look at it. -/
def SampleField.fixed (readFormat : ℕ) : SampleField → Bool
  | .id => true
  | .streamId => true
  | .period => true
  | .read => !readFormat.testBit 3
  | .regsUser => true
  | .weight => true
  | .dataSrc => true
  | .identifier => true
  | .transaction => true
  | .regsIntr => true
  | _ => false

/-- Every field that the parser looks at is where the parser looks. The identifier moves the
fields in front of the stack, and the stack size as well, unless the registers at the
interrupt make up for it. -/
structure Readable (sampleType readFormat regMask : ℕ) : Prop where
  front : selects sampleType .identifier = true →
    ∀ f, selects sampleType f = true → f ≠ .stackUser → f.fixed readFormat = true
  stack : selects sampleType .stackUser = true →
    (if selects sampleType .identifier then 8 else 0) =
      if selects sampleType .regsIntr then 8 + printRegs regMask else 0

/-- Every sample of this choice is read back: the parser stops behind it, with the selected
fields in the event. -/
def ReadsBack (sampleType readFormat regMask : ℕ) : Prop :=
  ∀ (s : FullSample) (data : ℤ → UInt8) (c : Cursor), s.Whole regMask →
    (s.body sampleType readFormat).length + 8 < 2 ^ 16 →
    Holds data c.offset (s.body sampleType readFormat) →
    readSample data sampleType readFormat regMask c =
      ⟨c.offset + (s.body sampleType readFormat).length, s.fill sampleType c.event⟩

section Fields

variable {data : ℤ → UInt8} {sampleType readFormat regMask : ℕ} {s : FullSample} {c : Cursor}

@[simp] theorem length_words (ws : List UInt64) : (words ws).length = 8 * ws.length :=
  length_callchain ws

theorem asInt_of_lt {n : ℕ} (h : n < 2 ^ 31) : asInt n = n := by
  unfold asInt
  rw [Int.bmod_eq_of_le (by omega) (by omega)]

theorem words_append (us ws : List UInt64) : words (us ++ ws) = words us ++ words ws :=
  List.flatMap_append

theorem length_regDump {r : RegDump} (habi : r.abi = 1 ∨ r.abi = 2)
    (hregs : r.regs.length = ((List.range 64).filter regMask.testBit).length) :
    ((words r.words).length : ℤ) = 8 + printRegs regMask := by
  have hne : r.abi ≠ 0 := by
    intro h
    rw [h] at habi
    exact absurd habi (by decide)
  rw [RegDump.words, if_neg hne, length_words, List.length_cons, hregs, printRegs]
  push_cast
  ring

/-- A field that is skipped blindly has the length that is skipped, and leaves the event. -/
theorem readField_of_fixed {f : SampleField} (hf : f.fixed readFormat = true)
    (hs : s.Whole regMask) :
    readField data readFormat regMask f c =
      ⟨c.offset + (s.bytes readFormat f).length, s.write c.event f⟩ := by
  have huser := length_regDump hs.userAbi hs.userRegs
  have hintr := length_regDump hs.intrAbi hs.intrRegs
  cases f with
  | read =>
    -- without `PERF_FORMAT_GROUP` each flag that is set adds one word
    have hgroup : readFormat.testBit 3 = false := by simpa [SampleField.fixed] using hf
    simp only [readField, Cursor.skip, handleStructReadFormat, hgroup, Sample.write,
      FullSample.bytes, FullSample.readFormatWords, length_words, Bool.false_eq_true, if_false]
    cases readFormat.testBit 0 <;> cases readFormat.testBit 1 <;> cases readFormat.testBit 2 <;>
      rfl
  | regsUser => simp only [readField, Cursor.skip, FullSample.bytes, huser, Sample.write]
  | regsIntr => simp only [readField, Cursor.skip, FullSample.bytes, hintr, Sample.write]
  | id => simp [readField, Cursor.skip, FullSample.bytes, Sample.bytes, Sample.write]
  | period => simp [readField, Cursor.skip, FullSample.bytes, Sample.bytes, Sample.write]
  | streamId => rfl
  | weight => rfl
  | dataSrc => rfl
  | identifier => rfl
  | transaction => rfl
  | _ => cases hf

theorem holds_words_cons {o : ℤ} {w : UInt64} {ws : List UInt64}
    (h : Holds data o (words (w :: ws))) : readLE data o 8 = w.toNat := by
  rw [words, List.flatMap_cons] at h
  exact readLE_of_holds (holds_append.mp h).1 w.toNat_lt

theorem length_groupWords (readFormat : ℕ) (vs : List (UInt64 × UInt64)) :
    (vs.flatMap fun (value, i) => value :: if readFormat.testBit 2 then [i] else []).length =
      vs.length * if readFormat.testBit 2 then 2 else 1 := by
  induction vs with
  | nil => simp
  | cons v vs ih =>
    rw [List.flatMap_cons, List.length_append, ih]
    cases readFormat.testBit 2 with
    | true =>
      simp only [if_true, List.length_cons, List.length_nil]
      omega
    | false =>
      simp only [Bool.false_eq_true, if_false, List.length_cons, List.length_nil]
      omega

theorem length_branchWords (bs : List (UInt64 × UInt64 × UInt64)) :
    (bs.flatMap fun (f, t, fl) => [f, t, fl]).length = 3 * bs.length := by
  induction bs with
  | nil => rfl
  | cons b bs ih =>
    rw [List.flatMap_cons, List.length_append, ih]
    simp only [List.length_cons, List.length_nil]
    omega

/-- `struct read_format` of a group, read at its place. -/
theorem handleStructReadFormat_group (hgroup : readFormat.testBit 3 = true)
    (hlen : (s.bytes readFormat .read).length < 2 ^ 16)
    (h : Holds data c.offset (s.bytes readFormat .read)) :
    handleStructReadFormat data c.offset readFormat = (s.bytes readFormat .read).length := by
  simp only [FullSample.bytes, FullSample.readFormatWords, hgroup, if_true] at h hlen ⊢
  have hn := holds_words_cons h
  simp only [length_words, List.length_cons, List.length_append, length_groupWords] at hlen ⊢
  -- the number of counters is part of the length, so it fits a `long`
  have hsmall : s.values.length < 2 ^ 16 := by
    by_cases hid : readFormat.testBit 2 = true
    · simp only [hid, if_true] at hlen
      omega
    · simp only [hid, if_false, Bool.false_eq_true] at hlen
      omega
  rw [UInt64.toNat_ofNat_of_lt' (by show _ < 2 ^ 64; omega)] at hn
  simp only [handleStructReadFormat, hgroup, if_true, hn,
    asLong_of_lt (show s.values.length < 2 ^ 63 by omega)]
  cases readFormat.testBit 0 <;> cases readFormat.testBit 1 <;> cases readFormat.testBit 2 <;>
    simp <;> ring

/-- A field that is read at its place. -/
theorem readField_of_place {f : SampleField} (hs : s.Whole regMask)
    (hlen : (s.bytes readFormat f).length < 2 ^ 16)
    (h : Holds data c.offset (s.bytes readFormat f)) :
    readField data readFormat regMask f c =
      ⟨c.offset + (s.bytes readFormat f).length, s.write c.event f⟩ := by
  by_cases hfixed : f.fixed readFormat = true
  · exact readField_of_fixed hfixed hs
  by_cases hused : f.used = true
  · -- one that the devices select is laid out as in their samples
    have hbytes : s.bytes readFormat f = s.toSample.bytes f := by
      cases f with
      | ip => rfl
      | tid => rfl
      | time => rfl
      | addr => rfl
      | id => rfl
      | cpu => rfl
      | period => rfl
      | callchain => rfl
      | _ => cases hused
    rw [hbytes] at h hlen ⊢
    exact readField_of_holds hused hlen h
  -- of the others, those with a length of their own are read by it
  cases f with
  | read =>
    have hgroup : readFormat.testBit 3 = true := by simpa [SampleField.fixed] using hfixed
    simp only [readField, Cursor.skip, handleStructReadFormat_group hgroup hlen h, Sample.write]
  | raw =>
    simp only [FullSample.bytes, List.length_append, length_leBytes] at h hlen ⊢
    have hn := readLE_of_holds (holds_append.mp h).1 (by omega)
    simp only [readField, Cursor.skip, hn, asInt_of_lt (show s.raw.length < 2 ^ 31 by omega),
      Sample.write]
    push_cast
    rfl
  | branchStack =>
    simp only [FullSample.bytes, List.length_append, length_leBytes, length_words,
      length_branchWords] at h hlen ⊢
    have hn := readLE_of_holds (holds_append.mp h).1 (by omega)
    simp only [readField, Cursor.skip, hn,
      asLong_of_lt (show s.branches.length < 2 ^ 63 by omega), Sample.write, Int.toNat_natCast]
    -- a branch is three words
    have hbytes : (24 : ℤ) * s.branches.length = 8 * (3 * s.branches.length) := by ring
    rw [hbytes]
    push_cast
    rfl
  | stackUser =>
    simp only [FullSample.bytes, if_neg hs.stack, List.length_append, length_leBytes,
      length_words, List.length_singleton] at h hlen ⊢
    have hn := readLE_of_holds (holds_append.mp h).1 (by omega)
    simp only [readField, Cursor.skip, hn,
      asLong_of_lt (show s.stack.length < 2 ^ 63 by omega), Sample.write]
    push_cast
    rfl
  | _ => first | exact absurd rfl hused | exact absurd rfl hfixed

/-! ### Reading in step -/

/-- Reading these fields brings the parser behind them and enters them in the event. -/
def Reads (data : ℤ → UInt8) (readFormat regMask : ℕ) (s : FullSample) (fs : List SampleField)
    (c : Cursor) : Prop :=
  fs.foldl (fun c f => readField data readFormat regMask f c) c =
    ⟨c.offset + (fs.flatMap (s.bytes readFormat)).length, fs.foldl s.write c.event⟩

theorem Reads.append {fs gs : List SampleField} (hfs : Reads data readFormat regMask s fs c)
    (hgs : Reads data readFormat regMask s gs
      ⟨c.offset + (fs.flatMap (s.bytes readFormat)).length, fs.foldl s.write c.event⟩) :
    Reads data readFormat regMask s (fs ++ gs) c := by
  unfold Reads at hfs hgs ⊢
  rw [List.foldl_append, hfs, hgs, List.flatMap_append, List.length_append, List.foldl_append]
  push_cast
  rw [add_assoc]

theorem reads_of_fixed {fs : List SampleField} (hs : s.Whole regMask)
    (hfs : ∀ f ∈ fs, f.fixed readFormat = true) : Reads data readFormat regMask s fs c := by
  induction fs generalizing c with
  | nil => simp [Reads]
  | cons f fs ih =>
    have hf : Reads data readFormat regMask s [f] c := by
      have hread : readField data readFormat regMask f c = _ :=
        readField_of_fixed (hfs f List.mem_cons_self) hs
      simpa [Reads] using hread
    exact hf.append (ih fun g hg => hfs g (List.mem_cons_of_mem _ hg))

theorem reads_of_place {fs : List SampleField} (hs : s.Whole regMask)
    (hlen : (fs.flatMap (s.bytes readFormat)).length < 2 ^ 16)
    (h : Holds data c.offset (fs.flatMap (s.bytes readFormat))) :
    Reads data readFormat regMask s fs c := by
  induction fs generalizing c with
  | nil => simp [Reads]
  | cons f fs ih =>
    rw [List.flatMap_cons] at h hlen
    rw [List.length_append] at hlen
    obtain ⟨hf, hrest⟩ := holds_append.mp h
    have hone : Reads data readFormat regMask s [f] c := by
      have hread := readField_of_place hs (by omega) hf
      simpa [Reads] using hread
    exact hone.append (ih (by omega) (by simpa using hrest))

/-- The fields that come in the same order for both, in front of the user stack. -/
def SampleField.front : List SampleField :=
  [ip, tid, time, addr, id, streamId, cpu, period, read, callchain, raw, branchStack, regsUser]

theorem parsed_eq : SampleField.parsed =
    SampleField.front ++ [.regsIntr] ++ [.stackUser] ++
      [.weight, .dataSrc, .identifier, .transaction] := rfl

theorem written_eq : SampleField.written =
    [.identifier] ++ SampleField.front ++ [.stackUser] ++
      [.weight, .dataSrc, .transaction, .regsIntr] := rfl

/-- The fields are entered in the event independently of each other. -/
theorem Sample.write_comm (s : Sample) (e : RawEvent) (f g : SampleField) :
    s.write (s.write e f) g = s.write (s.write e g) f := by
  unfold Sample.write
  generalize asInt s.pid.toNat = pid, asInt s.tid.toNat = tid, asInt s.cpu.toNat = cpu
  cases f <;> cases g <;> rfl

theorem parsed_perm (sampleType : ℕ) :
    (SampleField.parsed.filter (selects sampleType)).Perm
      (SampleField.written.filter (selects sampleType)) := by
  have hperm : SampleField.parsed.Perm SampleField.written := by decide
  exact hperm.filter _

theorem reads_front
    (hfront : selects sampleType .identifier = true →
      ∀ f, selects sampleType f = true → f ≠ .stackUser → f.fixed readFormat = true)
    (hs : s.Whole regMask) (hlen : (s.body sampleType readFormat).length < 2 ^ 16)
    (hdata : Holds data c.offset (s.body sampleType readFormat)) :
    Reads data readFormat regMask s (SampleField.front.filter (selects sampleType)) c := by
  by_cases hid : selects sampleType .identifier = true
  · refine reads_of_fixed hs fun f hf => ?_
    obtain ⟨hmem, hsel⟩ := List.mem_filter.mp hf
    refine hfront hid f hsel ?_
    rintro rfl
    exact absurd hmem (by decide)
  · have hbody : s.body sampleType readFormat =
        (SampleField.front.filter (selects sampleType)).flatMap (s.bytes readFormat) ++
          (List.filter (selects sampleType) [.stackUser, .weight, .dataSrc, .transaction,
            .regsIntr]).flatMap (s.bytes readFormat) := by
      rw [← List.flatMap_append, ← List.filter_append]
      exact congrArg _ (List.filter_cons_of_neg hid)
    rw [hbody] at hdata hlen
    rw [List.length_append] at hlen
    exact reads_of_place hs (by omega) (holds_append.mp hdata).1

theorem reads_regsIntr (sampleType : ℕ) (hs : s.Whole regMask) : Reads data readFormat regMask s
    (List.filter (selects sampleType) [.regsIntr]) c := by
  refine reads_of_fixed hs fun f hf => ?_
  obtain rfl : f = .regsIntr := by simpa using (List.mem_filter.mp hf).1
  rfl

theorem reads_behind (sampleType : ℕ) (hs : s.Whole regMask) : Reads data readFormat regMask s
    (List.filter (selects sampleType) [.weight, .dataSrc, .identifier, .transaction]) c := by
  refine reads_of_fixed hs fun f hf => ?_
  have hmem := (List.mem_filter.mp hf).1
  simp only [List.mem_cons, List.not_mem_nil, or_false] at hmem
  obtain rfl | rfl | rfl | rfl := hmem <;> rfl

theorem length_identifier (sampleType readFormat : ℕ) (s : FullSample) :
    ((((List.filter (selects sampleType) [.identifier]).flatMap
      (s.bytes readFormat)).length : ℕ) : ℤ) =
        if selects sampleType .identifier then 8 else 0 := by
  cases hid : selects sampleType .identifier <;> simp [hid, FullSample.bytes]

theorem length_regsIntr (sampleType readFormat : ℕ) (hs : s.Whole regMask) :
    ((((List.filter (selects sampleType) [.regsIntr]).flatMap
      (s.bytes readFormat)).length : ℕ) : ℤ) =
        if selects sampleType .regsIntr then 8 + printRegs regMask else 0 := by
  have hdump := length_regDump hs.intrAbi hs.intrRegs
  cases hsel : selects sampleType .regsIntr with
  | true => simpa [hsel, FullSample.bytes] using hdump
  | false => simp [hsel]

/-- Where the kernel has written the user stack. -/
theorem holds_stackUser (hdata : Holds data c.offset (s.body sampleType readFormat))
    (hsel : selects sampleType .stackUser = true) :
    Holds data (c.offset + (if selects sampleType .identifier then 8 else 0) +
      ((SampleField.front.filter (selects sampleType)).flatMap (s.bytes readFormat)).length)
        (s.bytes readFormat .stackUser) := by
  have hbody := hdata
  simp only [FullSample.body, written_eq, List.filter_append, List.flatMap_append] at hbody
  have hstack := (holds_append.mp (holds_append.mp hbody).1).2
  rw [List.filter_cons_of_pos hsel, List.filter_nil, List.flatMap_singleton, List.length_append,
    Nat.cast_add, length_identifier, ← add_assoc] at hstack
  exact hstack

/-- **A readable sample read back.** -/
theorem readSample_of_readable (h : Readable sampleType readFormat regMask)
    (hs : s.Whole regMask) (hlen : (s.body sampleType readFormat).length < 2 ^ 16)
    (hdata : Holds data c.offset (s.body sampleType readFormat)) :
    readSample data sampleType readFormat regMask c =
      ⟨c.offset + (s.body sampleType readFormat).length, s.fill sampleType c.event⟩ := by
  have hperm := parsed_perm sampleType
  have hfront : Reads data readFormat regMask s _ c := reads_front h.front hs hlen hdata
  have hall : Reads data readFormat regMask s
      (SampleField.parsed.filter (selects sampleType)) c := by
    simp only [parsed_eq, List.filter_append]
    refine ((hfront.append (reads_regsIntr sampleType hs)).append ?_).append
      (reads_behind sampleType hs)
    by_cases hstack : selects sampleType .stackUser = true
    · -- what the parser has read of the registers is as long as the identifier
      rw [List.filter_cons_of_pos hstack, List.filter_nil]
      have hmem := List.mem_filter.mpr ⟨show .stackUser ∈ SampleField.written by decide, hstack⟩
      have hshort := ((List.singleton_sublist.mpr hmem).flatMap
        (s.bytes readFormat)).length_le.trans_lt hlen
      refine reads_of_place hs hshort ?_
      have hholds := holds_stackUser hdata hstack
      rw [h.stack hstack, ← length_regsIntr sampleType readFormat hs] at hholds
      rw [List.flatMap_singleton]
      convert hholds using 1
      simp only [List.flatMap_append, List.length_append]
      push_cast
      ring
    · simp [hstack, Reads]
  unfold readSample
  rw [← List.foldl_filter, hall, (hperm.flatMap_right _).length_eq,
    hperm.foldl_eq' fun f _ g _ e => s.write_comm e f g]
  rfl

/-! ### Choices out of step -/

/-- A word that is not 0, and too great for a length. -/
def loud : UInt64 := 0x100000

/-- The registers of the mask, in an ABI of 64 bits. -/
def loudRegs (regMask : ℕ) : RegDump :=
  ⟨2, List.replicate ((List.range 64).filter regMask.testBit).length loud⟩

/-- A sample that says something in the fields that the parser skips, and nothing in those that
it looks at. -/
def loudSample (regMask : ℕ) : FullSample where
  ip := 0
  pid := 0
  tid := 0
  time := 0
  addr := 0
  id := loud
  cpu := 0
  res := 0
  period := loud
  callchain := []
  streamId := loud
  value := loud
  timeEnabled := loud
  timeRunning := loud
  values := []
  raw := []
  branches := []
  userRegs := loudRegs regMask
  stack := words (List.replicate (((List.range 64).filter regMask.testBit).length + 1) loud)
  dynSize := 0
  weight := loud
  dataSrc := loud
  identifier := loud
  transaction := loud
  intrRegs := loudRegs regMask

theorem loudSample_whole (regMask : ℕ) : (loudSample regMask).Whole regMask where
  userAbi := Or.inr rfl
  userRegs := List.length_replicate
  intrAbi := Or.inr rfl
  intrRegs := List.length_replicate
  stack := by
    intro h
    have hlen := congrArg List.length h
    simp [loudSample] at hlen

theorem length_loudSample (readFormat regMask : ℕ) (f : SampleField) :
    ((loudSample regMask).bytes readFormat f).length ≤ 540 := by
  have hmask : ((List.range 64).filter regMask.testBit).length ≤ 64 := by
    have h := List.length_filter_le regMask.testBit (List.range 64)
    rwa [List.length_range] at h
  have hregs : (words (loudRegs regMask).words).length ≤ 540 := by
    rw [RegDump.words, if_neg (by simp [loudRegs]), length_words, List.length_cons]
    simp only [loudRegs, List.length_replicate]
    omega
  cases f with
  | read =>
    simp only [FullSample.bytes, FullSample.readFormatWords, length_words]
    cases readFormat.testBit 0 <;> cases readFormat.testBit 1 <;> cases readFormat.testBit 2 <;>
      cases readFormat.testBit 3 <;> simp [loudSample]
  | regsUser => exact hregs
  | regsIntr => exact hregs
  | stackUser =>
    simp only [FullSample.bytes, if_neg (loudSample_whole regMask).stack, List.length_append,
      length_leBytes, length_words, List.length_singleton]
    simp only [loudSample, length_words, List.length_replicate]
    omega
  | _ => simp [FullSample.bytes, Sample.bytes, loudSample, words]

theorem length_loudBody (sampleType readFormat regMask : ℕ) :
    ((loudSample regMask).body sampleType readFormat).length < 2 ^ 14 := by
  have hsum (fs : List SampleField) :
      (fs.flatMap ((loudSample regMask).bytes readFormat)).length ≤ fs.length * 540 := by
    induction fs with
    | nil => simp
    | cons f fs ih =>
      have hf := length_loudSample readFormat regMask f
      rw [List.flatMap_cons, List.length_append, List.length_cons]
      omega
  have hfields : (SampleField.written.filter (selects sampleType)).length ≤ 19 :=
    List.length_filter_le _ _
  have hbody := hsum (SampleField.written.filter (selects sampleType))
  unfold FullSample.body
  omega

/-- What the parser skips is made of words. -/
theorem exists_words (regMask : ℕ) {fs : List SampleField}
    (hfs : ∀ f ∈ fs, f.fixed readFormat = true) :
    ∃ ws, fs.flatMap ((loudSample regMask).bytes readFormat) = words ws ∧
      ∀ w ∈ ws, w = loud ∨ w = 2 ∧ (.regsUser ∈ fs ∨ .regsIntr ∈ fs) := by
  -- over the fields; each one is a list of words, loud ones or the ABI of a register dump
  induction fs with
  | nil => exact ⟨[], rfl, by simp⟩
  | cons f fs ih =>
    obtain ⟨ws, hws, hloud⟩ := ih fun g hg => hfs g (List.mem_cons_of_mem _ hg)
    have hone : ∃ us, (loudSample regMask).bytes readFormat f = words us ∧
        ∀ w ∈ us, w = loud ∨ w = 2 ∧ (f = .regsUser ∨ f = .regsIntr) := by
      have hregs : ∀ w ∈ (loudRegs regMask).words, w = loud ∨ w = 2 := by
        intro w hw
        rw [RegDump.words, if_neg (by simp [loudRegs]), List.mem_cons] at hw
        exact hw.symm.imp List.eq_of_mem_replicate id
      have hf := hfs f List.mem_cons_self
      cases f with
      -- no group, so there is no count among the words
      | read =>
        have hgroup : readFormat.testBit 3 = false := by simpa [SampleField.fixed] using hf
        refine ⟨_, rfl, fun w hw => Or.inl ?_⟩
        simp [FullSample.readFormatWords, hgroup, loudSample] at hw
        tauto
      | regsUser => exact ⟨_, rfl, fun w hw => (hregs w hw).imp_right fun h => ⟨h, Or.inl rfl⟩⟩
      | regsIntr => exact ⟨_, rfl, fun w hw => (hregs w hw).imp_right fun h => ⟨h, Or.inr rfl⟩⟩
      | id => exact ⟨[loud], rfl, by simp⟩
      | streamId => exact ⟨[loud], rfl, by simp⟩
      | period => exact ⟨[loud], rfl, by simp⟩
      | weight => exact ⟨[loud], rfl, by simp⟩
      | dataSrc => exact ⟨[loud], rfl, by simp⟩
      | identifier => exact ⟨[loud], rfl, by simp⟩
      | transaction => exact ⟨[loud], rfl, by simp⟩
      | _ => cases hf
    obtain ⟨us, hus, hloud'⟩ := hone
    refine ⟨us ++ ws, by rw [List.flatMap_cons, hus, hws, words_append], fun w hw => ?_⟩
    obtain hw | hw := List.mem_append.mp hw
    · exact (hloud' w hw).imp_right fun ⟨h2, hregs⟩ => ⟨h2, hregs.imp
        (fun h => List.mem_cons.mpr (Or.inl h.symm))
        fun h => List.mem_cons.mpr (Or.inl h.symm)⟩
    · exact (hloud w hw).imp_right fun ⟨h2, hregs⟩ => ⟨h2, hregs.imp
        (List.mem_cons_of_mem _) (List.mem_cons_of_mem _)⟩

/-- One of some words. -/
theorem holds_word {o : ℤ} {us ws : List UInt64} {w : UInt64}
    (h : Holds data o (words (us ++ w :: ws))) :
    Holds data (o + 8 * us.length) (leBytes 8 w.toNat) := by
  rw [words_append] at h
  have hrest := (holds_append.mp h).2
  rw [length_words, words, List.flatMap_cons] at hrest
  simpa using (holds_append.mp hrest).1

/-- What a field has entered in the event, of a thread the process. -/
def SampleField.entry (e : RawEvent) : SampleField → ℤ
  | .ip => e.h_ip_addr.toNat
  | .tid => e.h_pId
  | .time => e.event_time.toNat
  | .addr => e.h_data_addr.toNat
  | .cpu => e.h_cpu
  | _ => 0

/-- The fields that are entered in the event. -/
def SampleField.entered : SampleField → Bool
  | .ip => true
  | .tid => true
  | .time => true
  | .addr => true
  | .cpu => true
  | _ => false

theorem entry_setIds {g : SampleField} (h : .tid ≠ g) (e : RawEvent) (pid tid : ℤ) :
    g.entry { e with h_pId := pid, h_tId := tid } = g.entry e := by
  cases g <;> first | exact absurd rfl h | rfl

theorem entry_setCpu {g : SampleField} (h : .cpu ≠ g) (e : RawEvent) (cpu : ℤ) :
    g.entry { e with h_cpu := cpu } = g.entry e := by
  cases g <;> first | exact absurd rfl h | rfl

theorem entry_setIp {g : SampleField} (h : .ip ≠ g) (e : RawEvent) (ip : UInt64) :
    g.entry { e with h_ip_addr := ip } = g.entry e := by
  cases g <;> first | exact absurd rfl h | rfl

theorem entry_setTime {g : SampleField} (h : .time ≠ g) (e : RawEvent) (time : UInt64) :
    g.entry { e with event_time := time } = g.entry e := by
  cases g <;> first | exact absurd rfl h | rfl

theorem entry_setAddr {g : SampleField} (h : .addr ≠ g) (e : RawEvent) (addr : UInt64) :
    g.entry { e with h_data_addr := addr } = g.entry e := by
  cases g <;> first | exact absurd rfl h | rfl

theorem entry_readField {f g : SampleField} (h : f ≠ g) :
    g.entry (readField data readFormat regMask f c).event = g.entry c.event := by
  cases f with
  | ip => exact entry_setIp h _ _
  | tid => exact entry_setIds h _ _ _
  | time => exact entry_setTime h _ _
  | addr => exact entry_setAddr h _ _
  | cpu => exact entry_setCpu h _ _
  | _ => rfl

theorem entry_foldl {g : SampleField} {fs : List SampleField} (h : g ∉ fs) :
    g.entry (fs.foldl (fun c f => readField data readFormat regMask f c) c).event =
      g.entry c.event := by
  induction fs generalizing c with
  | nil => rfl
  | cons f fs ih =>
    rw [List.mem_cons, not_or] at h
    rw [List.foldl_cons, ih h.2, entry_readField (Ne.symm h.1)]

/-- The loud sample enters nothing but 0. -/
theorem entry_fill_loud (sampleType : ℕ) (g : SampleField) :
    g.entry ((loudSample regMask).fill sampleType RawEvent.new) = 0 := by
  -- a field writes 0 into its own entry, and leaves those of the others alone
  have hwrite (f : SampleField) (e : RawEvent) (he : g.entry e = 0) :
      g.entry ((loudSample regMask).write e f) = 0 := by
    have hzero : asInt (0 : UInt32).toNat = 0 := asInt_of_lt (show 0 < 2 ^ 31 by norm_num)
    by_cases hf : f = g
    · subst hf
      cases f with
      | ip => rfl
      | tid =>
        have hpid : (loudSample regMask).pid = 0 := rfl
        simp only [Sample.write, SampleField.entry, hpid, hzero]
      | time => rfl
      | addr => rfl
      | cpu =>
        have hcpu : (loudSample regMask).cpu = 0 := rfl
        simp only [Sample.write, SampleField.entry, hcpu, hzero]
      | _ => exact he
    cases f with
    | ip => exact (entry_setIp hf _ _).trans he
    | tid => exact (entry_setIds hf _ _ _).trans he
    | time => exact (entry_setTime hf _ _).trans he
    | addr => exact (entry_setAddr hf _ _).trans he
    | cpu => exact (entry_setCpu hf _ _).trans he
    | _ => exact he
  have hfold (fs : List SampleField) (e : RawEvent) (he : g.entry e = 0) :
      g.entry (fs.foldl (loudSample regMask).write e) = 0 := by
    induction fs generalizing e with
    | nil => exact he
    | cons f fs ih => exact ih _ (hwrite f e he)
  refine hfold _ _ ?_
  cases g <;> rfl

theorem readLE_loud {o : ℤ} (h : Holds data o (leBytes 8 loud.toNat)) :
    readLE data o 8 = 2 ^ 20 ∧ readLE data o 4 = 2 ^ 20 := by
  have hloud : loud.toNat = 2 ^ 20 := rfl
  rw [hloud] at h
  refine ⟨readLE_of_holds h (by norm_num), ?_⟩
  rw [show 8 = 4 + 4 from rfl, leBytes_add] at h
  exact readLE_of_holds (holds_append.mp h).1 (by norm_num)

/-- A field that is entered is misread where there is a loud word. -/
theorem entry_of_loud {g : SampleField} (hg : g.entered = true)
    (h : Holds data c.offset (leBytes 8 loud.toNat)) :
    g.entry (readField data readFormat regMask g c).event = 2 ^ 20 := by
  obtain ⟨h8, h4⟩ := readLE_loud h
  cases g with
  | ip => simp [readField, SampleField.entry, h8]
  | time => simp [readField, SampleField.entry, h8]
  | addr => simp [readField, SampleField.entry, h8]
  | tid =>
    simp only [readField, SampleField.entry, h4]
    rfl
  | cpu =>
    simp only [readField, SampleField.entry, h4]
    rfl
  | _ => cases hg

/-- A length that is misread there leads far away. -/
theorem offset_of_loud {g : SampleField} (hfixed : g.fixed readFormat = false)
    (hentered : g.entered = false) (h : Holds data c.offset (leBytes 8 loud.toNat)) :
    c.offset + 2 ^ 20 ≤ (readField data readFormat regMask g c).offset := by
  obtain ⟨h8, h4⟩ := readLE_loud h
  have hlong : asLong (2 ^ 20) = 2 ^ 20 := rfl
  have hint : asInt (2 ^ 20) = 2 ^ 20 := rfl
  cases g with
  | read =>
    have hgroup : readFormat.testBit 3 = true := by simpa [SampleField.fixed] using hfixed
    -- the count of the group is the loud word
    simp only [readField, Cursor.skip, handleStructReadFormat, hgroup, if_true, h8, hlong]
    cases readFormat.testBit 0 <;> cases readFormat.testBit 1 <;> cases readFormat.testBit 2 <;>
      norm_num
  | callchain =>
    simp only [readField, Cursor.skip, h8, hlong]
    norm_num
  | raw =>
    simp only [readField, Cursor.skip, h4, hint]
    norm_num
  | branchStack =>
    simp only [readField, Cursor.skip, h8, hlong]
    norm_num
  | stackUser =>
    simp only [readField, Cursor.skip, h8, hlong]
    norm_num
  | _ => first | (cases hfixed; done) | cases hentered

/-- Behind the data there are zeros, and the parser does not turn back there. -/
theorem le_offset_readField {f : SampleField} (hzero : ∀ o, c.offset ≤ o → data o = 0) :
    c.offset ≤ (readField data readFormat regMask f c).offset := by
  -- every length that is read in the zeros is 0
  have hread (k : ℕ) : readLE data c.offset k = 0 := by
    refine readLE_of_holds (fun i hi => ?_) (Nat.pow_pos (by norm_num))
    rw [hzero _ (by omega)]
    simp [leBytes]
  have hregs : 0 ≤ printRegs regMask := by
    unfold printRegs
    positivity
  have hlong : asLong 0 = 0 := rfl
  have hint : asInt 0 = 0 := rfl
  cases f with
  | read =>
    simp only [readField, Cursor.skip, handleStructReadFormat, hread, hlong]
    cases readFormat.testBit 0 <;> cases readFormat.testBit 1 <;> cases readFormat.testBit 2 <;>
      cases readFormat.testBit 3 <;> norm_num
  | callchain => simp [readField, Cursor.skip, hread, hlong]
  | raw => simp [readField, Cursor.skip, hread, hint]
  | branchStack => simp [readField, Cursor.skip, hread, hlong]
  | stackUser => simp [readField, Cursor.skip, hread, hlong]
  | regsUser =>
    simp only [readField, Cursor.skip]
    omega
  | regsIntr =>
    simp only [readField, Cursor.skip]
    omega
  | _ => simp [readField, Cursor.skip]

theorem le_offset_foldl {fs : List SampleField} (hzero : ∀ o, c.offset ≤ o → data o = 0) :
    c.offset ≤ (fs.foldl (fun c f => readField data readFormat regMask f c) c).offset := by
  induction fs generalizing c with
  | nil => exact le_refl _
  | cons f fs ih =>
    have hf : c.offset ≤ (readField data readFormat regMask f c).offset :=
      le_offset_readField hzero
    exact hf.trans (ih fun o ho => hzero o (hf.trans ho))

/-- The loud sample in a buffer of its own. -/
def loudData (sampleType readFormat regMask : ℕ) (o : ℤ) : UInt8 :=
  ((loudSample regMask).body sampleType readFormat).getD o.toNat 0

theorem holds_loudData (sampleType readFormat regMask : ℕ) :
    Holds (loudData sampleType readFormat regMask) 0
      ((loudSample regMask).body sampleType readFormat) := by
  intro i hi
  rw [zero_add, loudData, Int.toNat_natCast, List.getD_eq_getElem _ _ hi]

theorem loudData_behind {o : ℤ}
    (h : ((loudSample regMask).body sampleType readFormat).length ≤ o) :
    loudData sampleType readFormat regMask o = 0 :=
  List.getD_eq_default _ _ (by omega)

/-- The loud sample is read back, into a new event. -/
def ReadsLoud (sampleType readFormat regMask : ℕ) : Prop :=
  readSample (loudData sampleType readFormat regMask) sampleType readFormat regMask
    ⟨0, RawEvent.new⟩ =
      ⟨((loudSample regMask).body sampleType readFormat).length,
        (loudSample regMask).fill sampleType RawEvent.new⟩

/-- The parser, which has not skipped the identifier, is in front of the last word that is
skipped behind it. -/
theorem holds_word_of_identifier {fs : List SampleField} {rest : List UInt8}
    (hfs : ∀ f ∈ fs, f.fixed readFormat = true)
    (h : Holds data 0 ((SampleField.identifier :: fs).flatMap
      ((loudSample regMask).bytes readFormat) ++ rest)) :
    ∃ w : UInt64, (w = loud ∨ w = 2 ∧ (.regsUser ∈ fs ∨ .regsIntr ∈ fs)) ∧
      Holds data (fs.flatMap ((loudSample regMask).bytes readFormat)).length
        (leBytes 8 w.toNat) := by
  have hall : ∀ f ∈ SampleField.identifier :: fs, f.fixed readFormat = true := by
    intro f hf
    obtain rfl | hf := List.mem_cons.mp hf
    · rfl
    · exact hfs f hf
  obtain ⟨ws, hws, hloud⟩ := exists_words regMask hall
  have hlen := congrArg List.length hws
  rw [List.flatMap_cons, List.length_append, length_words] at hlen
  have hid : ((loudSample regMask).bytes readFormat .identifier).length = 8 := rfl
  -- the identifier makes one word at least, so there is a last one
  obtain rfl | ⟨us, w, rfl⟩ := List.eq_nil_or_concat ws
  · rw [List.length_nil] at hlen
    omega
  rw [List.concat_eq_append] at hws hlen hloud
  rw [hws] at h
  -- without the identifier the parser is eight bytes behind, in front of that word
  refine ⟨w, by simpa using hloud w (by simp), ?_⟩
  convert holds_word (holds_append.mp h).1 using 1
  rw [List.length_append, List.length_singleton] at hlen
  omega

/-- The fields in front of the user's registers. -/
def SampleField.ahead : List SampleField :=
  [ip, tid, time, addr, id, streamId, cpu, period, read, callchain, raw, branchStack]

/-- Behind an identifier, the first field that the parser looks at is written one word late. -/
theorem exists_first (hid : selects sampleType .identifier = true) {f : SampleField}
    (hf : selects sampleType f = true) (hstack : f ≠ .stackUser)
    (hfixed : ¬ f.fixed readFormat = true) :
    ∃ (g : SampleField) (as rest rest' : List SampleField), g.fixed readFormat = false ∧
      (∀ a ∈ as, a.fixed readFormat = true) ∧ ¬ (.regsUser ∈ as ∨ .regsIntr ∈ as) ∧
      SampleField.parsed.filter (selects sampleType) = as ++ g :: rest ∧
      SampleField.written.filter (selects sampleType) =
        (SampleField.identifier :: as) ++ rest' := by
  have hahead : f ∈ SampleField.ahead.filter (selects sampleType) := by
    refine List.mem_filter.mpr ⟨?_, hf⟩
    cases f <;> first | decide | exact absurd rfl hfixed | exact absurd rfl hstack
  -- the first field in the written order that is not skipped blindly
  obtain ⟨g, hfind⟩ : ∃ g, (SampleField.ahead.filter (selects sampleType)).find?
      (fun f => !f.fixed readFormat) = some g :=
    Option.isSome_iff_exists.mp (List.find?_isSome.mpr ⟨f, hahead, by simpa using hfixed⟩)
  obtain ⟨hg, as, bs, hsplit, has⟩ := List.find?_eq_some_iff_append.mp hfind
  have hmem (a : SampleField) (ha : a ∈ as) : a ∈ SampleField.ahead :=
    List.mem_of_mem_filter (hsplit ▸ List.mem_append_left _ ha)
  refine ⟨g, as, bs ++ List.filter (selects sampleType) [.regsUser, .regsIntr, .stackUser,
      .weight, .dataSrc, .identifier, .transaction],
    g :: bs ++ List.filter (selects sampleType) [.regsUser, .stackUser, .weight, .dataSrc,
      .transaction, .regsIntr], by simpa using hg, fun a ha => by simpa using has a ha,
    not_or.mpr ⟨fun h => absurd (hmem _ h) (by decide), fun h => absurd (hmem _ h) (by decide)⟩,
    ?_, ?_⟩
  · -- the fields in front of the stack come in the same order in both lists
    have hall : SampleField.parsed = SampleField.ahead ++ [.regsUser, .regsIntr, .stackUser,
      .weight, .dataSrc, .identifier, .transaction] := rfl
    rw [hall, List.filter_append, hsplit, List.append_assoc, List.cons_append]
  · have hall : SampleField.written = SampleField.identifier :: (SampleField.ahead ++ [.regsUser,
      .stackUser, .weight, .dataSrc, .transaction, .regsIntr]) := rfl
    rw [hall, List.filter_cons_of_pos hid, List.filter_append, hsplit]
    simp only [List.cons_append, List.append_assoc]

/-- A parser that looks at a loud word enters it in the event, or goes behind the sample and does
not come back. -/
theorem foldl_ne_of_loud {g : SampleField} {rest : List SampleField}
    (hg : g.fixed readFormat = false) (hrest : g ∉ rest) (hpos : 0 ≤ c.offset)
    (hloud : Holds (loudData sampleType readFormat regMask) c.offset (leBytes 8 loud.toNat)) :
    rest.foldl (fun c f => readField (loudData sampleType readFormat regMask) readFormat regMask
        f c) (readField (loudData sampleType readFormat regMask) readFormat regMask g c) ≠
      ⟨((loudSample regMask).body sampleType readFormat).length,
        (loudSample regMask).fill sampleType RawEvent.new⟩ := by
  intro hread
  cases hentered : g.entered with
  -- the loud value shows in the event
  | true =>
    have hentry := congrArg (fun c => g.entry c.event) hread
    simp only [entry_foldl hrest, entry_fill_loud] at hentry
    rw [entry_of_loud hentered hloud] at hentry
    exact absurd hentry (by norm_num)
  | false =>
    -- the parser has left the sample, and never comes back
    have hfar : c.offset + 2 ^ 20 ≤ (readField _ readFormat regMask g c).offset :=
      offset_of_loud hg hentered hloud
    have hlen := length_loudBody sampleType readFormat regMask
    have hzero (o : ℤ) (ho : (readField (loudData sampleType readFormat regMask) readFormat
        regMask g c).offset ≤ o) : loudData sampleType readFormat regMask o = 0 :=
      loudData_behind (by omega)
    have hmono : _ ≤ (rest.foldl (fun c f => readField _ readFormat regMask f c) _).offset :=
      le_offset_foldl hzero
    rw [hread] at hmono
    dsimp only at hmono
    omega

/-- **An identifier puts the fields that the parser looks at out of step.** -/
theorem fixed_of_readsLoud (hread : ReadsLoud sampleType readFormat regMask)
    (hid : selects sampleType .identifier = true) {f : SampleField}
    (hf : selects sampleType f = true) (hstack : f ≠ .stackUser) :
    f.fixed readFormat = true := by
  by_contra hfixed
  obtain ⟨g, as, rest, rest', hg, has, hregs, hparsed, hwritten⟩ :=
    exists_first hid hf hstack hfixed
  have hrest : g ∉ rest := by
    have hnodup : (SampleField.parsed.filter (selects sampleType)).Nodup :=
      List.Nodup.filter _ (by decide)
    rw [hparsed] at hnodup
    exact (List.nodup_cons.mp hnodup.of_append_right).1
  -- it finds a loud word
  have hbody := holds_loudData sampleType readFormat regMask
  rw [FullSample.body, hwritten, List.flatMap_append] at hbody
  obtain ⟨w, hw, hloud⟩ := holds_word_of_identifier has hbody
  obtain rfl : w = loud := hw.resolve_right fun h => hregs h.2
  -- after the fields in front of it
  have hstart : Reads (loudData sampleType readFormat regMask) readFormat regMask
      (loudSample regMask) as ⟨0, RawEvent.new⟩ := reads_of_fixed (loudSample_whole regMask) has
  unfold Reads at hstart
  unfold ReadsLoud readSample at hread
  rw [← List.foldl_filter, hparsed, List.foldl_append, hstart, List.foldl_cons] at hread
  simp only [zero_add] at hread
  exact foldl_ne_of_loud hg hrest (Int.natCast_nonneg _) hloud hread

/-- Behind an identifier, the parser looks for the stack size one word too early. -/
theorem holds_word_before_stack (hid : selects sampleType .identifier = true)
    (hfixed : ∀ f, selects sampleType f = true → f ≠ .stackUser → f.fixed readFormat = true) :
    ∃ w : UInt64, (w = loud ∨ w = 2) ∧ Holds (loudData sampleType readFormat regMask)
      ((SampleField.front.filter (selects sampleType)).flatMap
        ((loudSample regMask).bytes readFormat)).length (leBytes 8 w.toNat) := by
  -- in front of the stack everything is skipped
  have hfront : ∀ f ∈ SampleField.front.filter (selects sampleType),
      f.fixed readFormat = true := by
    intro f hf
    obtain ⟨hmem, hsel⟩ := List.mem_filter.mp hf
    refine hfixed f hsel ?_
    rintro rfl
    exact absurd hmem (by decide)
  have hwritten : SampleField.written.filter (selects sampleType) =
      (SampleField.identifier :: SampleField.front.filter (selects sampleType)) ++
        List.filter (selects sampleType) [.stackUser, .weight, .dataSrc, .transaction,
          .regsIntr] := by
    rw [List.cons_append, ← List.filter_append]
    exact List.filter_cons_of_pos hid
  have hdata := holds_loudData sampleType readFormat regMask
  rw [FullSample.body, hwritten, List.flatMap_append] at hdata
  obtain ⟨w, hw, hholds⟩ := holds_word_of_identifier hfront hdata
  exact ⟨w, hw.imp_right And.left, hholds⟩

/-- Behind registers that are not there yet, the parser looks for the stack size in the stack. -/
theorem holds_word_within_stack (hstack : selects sampleType .stackUser = true)
    (hne : (if selects sampleType .identifier then 8 else 0) ≠ 8 + printRegs regMask) :
    Holds (loudData sampleType readFormat regMask)
      (((SampleField.front.filter (selects sampleType)).flatMap
        ((loudSample regMask).bytes readFormat)).length + (8 + printRegs regMask))
      (leBytes 8 loud.toNat) := by
  have hdata := holds_loudData sampleType readFormat regMask
  have hholds := (holds_append.mp (holds_stackUser (c := ⟨0, RawEvent.new⟩) hdata hstack)).2
  rw [if_neg (loudSample_whole regMask).stack] at hholds
  replace hholds := (holds_append.mp hholds).1
  rw [length_leBytes, zero_add] at hholds
  obtain ⟨n, hn⟩ : ∃ n, n = ((List.range 64).filter regMask.testBit).length := ⟨_, rfl⟩
  have hregs : printRegs regMask = 8 * n := by rw [hn, printRegs]
  -- one of the words of the stack
  have hword (k : ℕ) (hk : k ≤ n) : (loudSample regMask).stack =
      words (List.replicate k loud ++ loud :: List.replicate (n - k) loud) := by
    rw [← List.replicate_succ, List.replicate_append_replicate, loudSample, ← hn,
      show k + (n - k + 1) = n + 1 by omega]
  rw [hregs] at hne
  cases hid : selects sampleType .identifier with
  | false =>
    rw [hid, hword n le_rfl] at hholds
    convert holds_word hholds using 1
    simp only [hregs, List.length_replicate, Bool.false_eq_true, if_false]
    push_cast
    ring
  | true =>
    have hpos : n ≠ 0 := by
      rintro rfl
      exact hne (by simp [hid])
    rw [hid, hword (n - 1) (by omega)] at hholds
    convert holds_word hholds using 1
    simp only [hregs, List.length_replicate, if_true]
    omega

/-- Where the parser looks for the stack size out of step, it finds another word. -/
theorem holds_word_of_stack
    (hfixed : selects sampleType .identifier = true →
      ∀ f, selects sampleType f = true → f ≠ .stackUser → f.fixed readFormat = true)
    (hstack : selects sampleType .stackUser = true)
    (hne : (if selects sampleType .identifier then 8 else 0) ≠
      if selects sampleType .regsIntr then 8 + printRegs regMask else 0) :
    ∃ w : UInt64, (w = loud ∨ w = 2) ∧ Holds (loudData sampleType readFormat regMask)
      (((SampleField.front.filter (selects sampleType)).flatMap
        ((loudSample regMask).bytes readFormat)).length +
          if selects sampleType .regsIntr then 8 + printRegs regMask else 0)
      (leBytes 8 w.toNat) := by
  cases hintr : selects sampleType .regsIntr with
  | false =>
    -- without the registers only the identifier can put the two out of step
    have hid : selects sampleType .identifier = true := by
      by_contra hid
      exact hne (by simp [hid, hintr])
    obtain ⟨w, hw, hholds⟩ := holds_word_before_stack hid (hfixed hid)
    exact ⟨w, hw, by simpa using hholds⟩
  | true =>
    rw [hintr] at hne
    exact ⟨loud, Or.inl rfl, holds_word_within_stack hstack hne⟩

/-- No word of the loud sample is the length of its stack. -/
theorem loudStack_ne {w : UInt64} (hw : w = loud ∨ w = 2) :
    asLong w.toNat ≠ (loudSample regMask).stack.length := by
  have hmask : ((List.range 64).filter regMask.testBit).length ≤ 64 := by
    have h := List.length_filter_le regMask.testBit (List.range 64)
    rwa [List.length_range] at h
  have hstack : (loudSample regMask).stack.length =
      8 * (((List.range 64).filter regMask.testBit).length + 1) := by
    rw [loudSample, length_words, List.length_replicate]
  have hloud : loud.toNat = 2 ^ 20 := rfl
  have htwo : (2 : UInt64).toNat = 2 := rfl
  rw [hstack]
  obtain rfl | rfl := hw
  · rw [asLong_of_lt (show loud.toNat < 2 ^ 63 by decide), hloud]
    omega
  · rw [asLong_of_lt (show (2 : UInt64).toNat < 2 ^ 63 by decide), htwo]
    omega

/-- **The stack size is where the parser looks.** -/
theorem stack_of_readsLoud (hread : ReadsLoud sampleType readFormat regMask)
    (hstack : selects sampleType .stackUser = true) :
    (if selects sampleType .identifier then 8 else 0) =
      if selects sampleType .regsIntr then 8 + printRegs regMask else 0 := by
  by_contra hne
  have hs := loudSample_whole regMask
  have hlen := length_loudBody sampleType readFormat regMask
  have hdata := holds_loudData sampleType readFormat regMask
  have hfixed (hid : selects sampleType .identifier = true) (f : SampleField)
      (hf : selects sampleType f = true) (hf' : f ≠ .stackUser) :=
    fixed_of_readsLoud hread hid hf hf'
  obtain ⟨w, hw, hholds⟩ := holds_word_of_stack hfixed hstack hne
  have hfront : Reads (loudData sampleType readFormat regMask) readFormat regMask
      (loudSample regMask) _ ⟨0, RawEvent.new⟩ := reads_front hfixed hs (by omega) hdata
  have hpre := hfront.append (reads_regsIntr sampleType hs)
  -- the lengths agree but for the stack
  have hbody : ((loudSample regMask).body sampleType readFormat).length = _ :=
    ((parsed_perm sampleType).flatMap_right
      ((loudSample regMask).bytes readFormat)).length_eq.symm
  rw [parsed_eq, List.filter_append, List.filter_append, List.filter_append,
    List.filter_cons_of_pos hstack, List.filter_nil] at hbody
  have hoffset := congrArg Cursor.offset hread
  unfold readSample at hoffset
  rw [← List.foldl_filter, parsed_eq, List.filter_append, List.filter_append,
    List.filter_append, List.filter_cons_of_pos hstack, List.filter_nil, List.foldl_append,
    List.foldl_append, hpre, List.foldl_cons, List.foldl_nil, reads_behind sampleType hs, hbody]
    at hoffset
  simp only [readField, Cursor.skip, List.flatMap_append, List.length_append,
    List.flatMap_singleton, zero_add, Nat.cast_add, length_regsIntr sampleType readFormat hs,
    readLE_of_holds hholds w.toNat_lt] at hoffset
  have hsize : asLong w.toNat = (loudSample regMask).stack.length := by
    simp only [FullSample.bytes, if_neg hs.stack, List.length_append, length_leBytes,
      length_words, List.length_singleton] at hoffset
    push_cast at hoffset
    linarith
  exact loudStack_ne hw hsize

/-- **The choices of fields that the parser reads back.** -/
theorem readSample_iff_readable (sampleType readFormat regMask : ℕ)
    (_ : sampleType < 2 ^ 19) (_ : readFormat < 2 ^ 4) :
    ReadsBack sampleType readFormat regMask ↔ Readable sampleType readFormat regMask := by
  constructor
  · intro h
    have hlen := length_loudBody sampleType readFormat regMask
    have hread : ReadsLoud sampleType readFormat regMask := by
      have hloud := h _ _ ⟨0, RawEvent.new⟩ (loudSample_whole regMask) (by omega)
        (holds_loudData sampleType readFormat regMask)
      rwa [zero_add] at hloud
    exact ⟨fun hid f hf hne => fixed_of_readsLoud hread hid hf hne, stack_of_readsLoud hread⟩
  · intro h s data c hs hlen hdata
    exact readSample_of_readable h hs (by omega) hdata

end Fields

/-- The devices choose well. -/
theorem DeviceType.readable (d : DeviceType) (readFormat regMask : ℕ) :
    Readable d.sampleType readFormat regMask where
  front hid := by
    exfalso
    revert hid
    cases d <;> decide
  stack hstack := by
    exfalso
    revert hstack
    cases d <;> decide

/-- A PEBS sample is read back; one that starts with the identifier is not. -/
theorem readSample_iff_readable_pebsDevice :
    ReadsBack DeviceType.pebsDevice.sampleType 0 0 ∧
      ¬ ReadsBack (sampleTypeOf [.identifier, .ip]) 0 0 := by
  constructor
  · refine (readSample_iff_readable _ 0 0 ?_ ?_).mpr (DeviceType.pebsDevice.readable 0 0)
    · decide
    · decide
  · intro h
    obtain ⟨hfront, -⟩ := (readSample_iff_readable _ 0 0 (by decide) (by decide)).mp h
    exact absurd (hfront rfl .ip rfl (by decide)) (by decide)

end Kognizance
