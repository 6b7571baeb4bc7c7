import Kognizance.Platform.SampleEvents

/-!
# Where the parser is between the records

`perf_mmap_read` does not use the size in a record's header to get to the next one: it
adds up the widths of the fields it knows. It stays in step with the stream as long as
these add up to what the kernel has written.

* `readCursors` is the loop with the cursor after every record kept;
  `readRecords_eq_readCursors` connects it with `readRecords`.
* `InStepWith` says that the offsets are the sums of the sizes in the headers.
* `records_in_step_iff` says for which records they are.
-/

namespace Kognizance

open LittleEndian

/-- The loop of `readRecords`, with the cursors it comes through. -/
def readCursors (data : ℤ → UInt8) (sampleType readFormat regMask : ℕ) (size : ℤ) :
    ℕ → Cursor → Option (List Cursor)
  | fuel, c =>
    if c.offset < size then
      match fuel with
      | 0 => none
      | fuel + 1 =>
        let c := readRecord data sampleType readFormat regMask c
        (readCursors data sampleType readFormat regMask size fuel c).map (c :: ·)
    else some []

/-- The cursors `perf_mmap_read` comes through. -/
def mmapCursors (pageSize mmapSize : ℕ) (buf : PerfBuffer) (prevHead : ℕ)
    (sampleType readFormat regMask : ℕ) (event : RawEvent) : Option (List Cursor) :=
  if mmapSize = 0 then some []
  else
    let size : ℤ := buf.dataHead - prevHead
    let data := linearised pageSize mmapSize buf prevHead
    readCursors (fun o => data.getD o.toNat 0) sampleType readFormat regMask size size.toNat
      ⟨0, event⟩

/-- The loop leaves the event of its last cursor. -/
theorem readRecords_eq_readCursors (data : ℤ → UInt8) (sampleType readFormat regMask : ℕ)
    (size : ℤ) (fuel : ℕ) (c : Cursor) :
    readRecords data sampleType readFormat regMask size fuel c =
      (readCursors data sampleType readFormat regMask size fuel c).map fun cs =>
        (cs.getLastD c).event := by
  induction fuel generalizing c with
  | zero =>
    unfold readRecords readCursors
    split_ifs <;> rfl
  | succ fuel ih =>
    unfold readRecords readCursors
    split_ifs with hlt
    · simp only [ih, Option.map_map]
      refine congrArg (Option.map · _) (funext fun cs => ?_)
      rw [Function.comp_apply, List.getLastD_cons]
    · rfl

/-- The event that `perf_mmap_read` leaves is the one of the last cursor. -/
theorem perfMmapRead_eq_mmapCursors (pageSize mmapSize : ℕ) (buf : PerfBuffer)
    (prevHead sampleType readFormat regMask : ℕ) (event : RawEvent) :
    (perfMmapRead pageSize mmapSize buf prevHead sampleType readFormat regMask event).map
        (fun r => r.2.2)
      = (mmapCursors pageSize mmapSize buf prevHead sampleType readFormat regMask event).map
        fun cs => (cs.getLastD ⟨0, event⟩).event := by
  unfold perfMmapRead mmapCursors
  split_ifs
  · rfl
  · dsimp only
    rw [← readRecords_eq_readCursors]
    split
    · next hnone => rw [hnone]; rfl
    · next e hsome => rw [hsome]; rfl

namespace PerfRecord

/-- The sizes in the headers, added up record by record from an offset on. -/
def ends (sampleType : ℕ) : ℤ → List PerfRecord → List ℤ
  | _, [] => []
  | o, r :: rs => (o + r.size sampleType) :: ends sampleType (o + r.size sampleType) rs

/-- There are as many offsets as records, each is the sum of the sizes up to its record,
and the last one is the end of the stretch. -/
structure InStepWith (sampleType : ℕ) (rs : List PerfRecord) (offsets : List ℤ) : Prop where
  length : offsets.length = rs.length
  sum : ∀ k < rs.length,
    offsets[k]? = some (((rs.take (k + 1)).map (size sampleType)).sum : ℤ)
  stops : offsets.getLastD 0 = (rs.flatMap (bytes sampleType)).length

theorem length_ends (sampleType : ℕ) (o : ℤ) (rs : List PerfRecord) :
    (ends sampleType o rs).length = rs.length := by
  induction rs generalizing o with
  | nil => rfl
  | cons r rs ih => rw [ends, List.length_cons, List.length_cons, ih]

theorem ends_getElem? (sampleType : ℕ) (o : ℤ) (rs : List PerfRecord) {k : ℕ}
    (hk : k < rs.length) :
    (ends sampleType o rs)[k]? = some (o + ((rs.take (k + 1)).map (size sampleType)).sum) := by
  -- record 0 ends at its own size, a later one at what the records behind it add
  induction rs generalizing o k with
  | nil => exact absurd hk (Nat.not_lt_zero k)
  | cons r rs ih =>
    rw [ends, List.take_succ_cons, List.map_cons, List.sum_cons]
    cases k with
    | zero => simp
    | succ k =>
      rw [List.getElem?_cons_succ, ih _ (by simpa using hk)]
      push_cast
      rw [add_assoc]

theorem getLastD_ends (sampleType : ℕ) (o : ℤ) (rs : List PerfRecord) :
    (ends sampleType o rs).getLastD o = o + (rs.flatMap (bytes sampleType)).length := by
  induction rs generalizing o with
  | nil => simp [ends]
  | cons r rs ih =>
    have hlen : (r.bytes sampleType).length = r.size sampleType := by
      simp only [bytes, size, List.length_append, length_leBytes]
    rw [ends, List.getLastD_cons, ih, List.flatMap_cons, List.length_append, hlen]
    push_cast
    rw [add_assoc]

/-- Being in step is having the added up sizes for offsets. -/
theorem inStepWith_iff {sampleType : ℕ} {rs : List PerfRecord} {offsets : List ℤ} :
    InStepWith sampleType rs offsets ↔ offsets = ends sampleType 0 rs := by
  constructor
  · -- entry by entry; behind the last record there is none
    intro h
    refine List.ext_getElem? fun k => ?_
    by_cases hk : k < rs.length
    · rw [h.sum k hk, ends_getElem? _ _ _ hk, zero_add]
    · rw [List.getElem?_eq_none (by rw [h.length]; omega),
        List.getElem?_eq_none (by rw [length_ends]; omega)]
  · rintro rfl
    refine ⟨length_ends sampleType 0 rs, fun k hk => ?_, ?_⟩
    · rw [ends_getElem? _ _ _ hk, zero_add]
    · rw [getLastD_ends, zero_add]

/-- The type is one that is read whole, or one the parser does not know, with nothing
behind the header. For `AUX`, `LOST_SAMPLES`, `SWITCH` and `SWITCH_CPU_WIDE` a sample id
is read that is not there. -/
def Covered (sampleType : ℕ) (r : PerfRecord) : Prop :=
  readWhole r.type = true ∨ (r.type ∉ [11, 13, 14, 15] ∧ r.size sampleType = 8)

/-- **The parser gets to the end of the records that are covered, and of no others.** -/
theorem skip_eq_iff_covered {sampleType : ℕ} {r : PerfRecord} (hwf : r.WellFormed sampleType) :
    r.skip sampleType = (r.body sampleType).length ↔ r.Covered sampleType := by
  by_cases hwhole : readWhole r.type = true
  · exact ⟨fun _ => Or.inl hwhole, fun _ => skip_of_readWhole hwf hwhole⟩
  rw [Covered, or_iff_right hwhole]
  cases r with
  | sample misc s => exact absurd rfl hwhole
  | other type misc body =>
    obtain ⟨-, -, hlen⟩ := hwf
    simp only [readWhole, PerfRecord.type, perfRecordSample, List.mem_cons, List.not_mem_nil,
      or_false, decide_eq_true_eq, not_or] at hwhole
    simp only [skip, PerfRecord.body, PerfRecord.type, PerfRecord.size, List.mem_cons,
      List.not_mem_nil, or_false, not_or]
    by_cases hmistaken : type.toNat = 11 ∨ type.toNat = 13 ∨ type.toNat = 14 ∨ type.toNat = 15
    · -- a sample id too many
      refine iff_of_false (fun heq => ?_) fun hcovered => by omega
      rcases hmistaken with ht | ht | ht | ht <;> rw [ht] at hlen heq <;>
        simp only [BodyLength] at hlen <;> simp only [recordSkip] at heq <;> omega
    · -- only the header is read
      have hunknown : recordSkip type.toNat (8 + body.length) = 0 := by
        unfold recordSkip
        split <;> first | rfl | omega
      rw [hunknown]
      omega

section Read

variable {data : ℤ → UInt8} (readFormat regMask : ℕ) {c : Cursor}

/-- **The offsets of a stretch of records.** The loop comes out at the end of every record
exactly when it skips what the kernel writes. -/
theorem readCursors_ends_iff (d : DeviceType) {rs : List PerfRecord} {size : ℤ} {fuel : ℕ}
    (hwf : ∀ r ∈ rs, r.WellFormed d.sampleType)
    (h : Holds data c.offset (rs.flatMap (bytes d.sampleType)))
    (hsize : size = c.offset + (rs.flatMap (bytes d.sampleType)).length)
    (hfuel : rs.length ≤ fuel) :
    (∃ cs, readCursors data d.sampleType readFormat regMask size fuel c = some cs ∧
        cs.map Cursor.offset = ends d.sampleType c.offset rs) ↔
      ∀ r ∈ rs, r.skip d.sampleType = (r.body d.sampleType).length := by
  -- over the records; behind one that is read whole the cursor is where the next one starts
  induction rs generalizing c fuel with
  | nil =>
    unfold readCursors
    rw [if_neg (by simp [hsize])]
    exact ⟨fun _ => List.forall_mem_nil _, fun _ => ⟨[], rfl, rfl⟩⟩
  | cons r rs ih =>
    have hlen := length_bytes d.sampleType r
    rw [List.flatMap_cons] at h hsize
    rw [List.length_append, hlen] at hsize
    obtain ⟨hr, hrest⟩ := holds_append.mp h
    -- a record takes one round of the loop
    obtain ⟨fuel, rfl⟩ : ∃ n, fuel = n + 1 := by
      cases fuel with
      | zero => simp at hfuel
      | succ n => exact ⟨n, rfl⟩
    unfold readCursors
    rw [if_pos (by omega)]
    dsimp only
    rw [readRecord_of_holds d (hwf r List.mem_cons_self) hr, ends, List.forall_mem_cons]
    have hend : c.offset + (r.size d.sampleType : ℤ)
        = c.offset + 8 + (r.body d.sampleType).length := by
      rw [PerfRecord.size]
      push_cast
      ring
    rw [hlen] at hrest
    -- the induction hypothesis, for a cursor at the end of this record
    have hih := fun (c' : Cursor)
        (hc' : c'.offset = c.offset + 8 + (r.body d.sampleType).length) =>
      @ih c' fuel (fun r hr => hwf r (List.mem_cons_of_mem _ hr))
        (by rw [hc']; simpa [add_assoc] using hrest)
        (by rw [hc', hsize]; push_cast; ring) (by simpa using hfuel)
    constructor
    · rintro ⟨cs, hcs, hoffsets⟩
      obtain ⟨cs, hrun, rfl⟩ := Option.map_eq_some_iff.mp hcs
      -- the first offset tells how much the parser has skipped
      obtain ⟨hfirst, hothers⟩ := List.cons.inj hoffsets
      have hskip : r.skip d.sampleType = (r.body d.sampleType).length := by
        dsimp only at hfirst
        omega
      rw [hskip, ← hend] at hrun
      exact ⟨hskip, (hih ⟨_, _⟩ hend).mp ⟨cs, hrun, hothers⟩⟩
    · rintro ⟨hskip, hothers⟩
      rw [hskip, ← hend]
      obtain ⟨cs, hrun, hoffsets⟩ :=
        (hih ⟨c.offset + r.size d.sampleType, r.fill d.sampleType c.event⟩ hend).mpr hothers
      exact ⟨_, Option.map_eq_some_iff.mpr ⟨cs, hrun, rfl⟩, congrArg _ hoffsets⟩

end Read

end PerfRecord

/-! ### The records of a read -/

section Read

variable {pageSize readFormat regMask : ℕ} {dev : PerfDevice} {rs : List PerfRecord}

/-- The read of what the kernel has written returns, is done with as many records as were
written, and is at the end of each of them when it is done with it. -/
def ReadsInStep (pageSize readFormat regMask : ℕ) (dev : PerfDevice) (event : RawEvent)
    (rs : List PerfRecord) : Prop :=
  ∃ cs, mmapCursors pageSize numMmapPages
      (dev.produce pageSize (rs.flatMap (PerfRecord.bytes dev.deviceType.sampleType))).buffer
      dev.readHead dev.deviceType.sampleType readFormat regMask event = some cs ∧
    PerfRecord.InStepWith dev.deviceType.sampleType rs (cs.map Cursor.offset)

/-- What is read of the ring is what the kernel has written. -/
theorem readsInStep_iff_skip (event : RawEvent) (hsync : dev.readHead = dev.buffer.dataHead)
    (hwf : ∀ r ∈ rs, r.WellFormed dev.deviceType.sampleType)
    (hfit : (rs.flatMap (PerfRecord.bytes dev.deviceType.sampleType)).length
      ≤ numMmapPages * pageSize) :
    ReadsInStep pageSize readFormat regMask dev event rs ↔
      ∀ r ∈ rs, r.skip dev.deviceType.sampleType
        = (r.body dev.deviceType.sampleType).length := by
  have hholds := holds_linearise (numMmapPages * pageSize) dev.buffer.dataHead dev.buffer.cells hfit
  have hsize : ((dev.buffer.dataHead
      + (rs.flatMap (PerfRecord.bytes dev.deviceType.sampleType)).length : ℕ) : ℤ)
      - dev.buffer.dataHead
        = (rs.flatMap (PerfRecord.bytes dev.deviceType.sampleType)).length := by
    push_cast
    ring
  rw [← PerfRecord.readCursors_ends_iff readFormat regMask (c := ⟨0, event⟩) dev.deviceType hwf
    hholds (zero_add _).symm (PerfRecord.length_le_length_bytes dev.deviceType.sampleType rs)]
  unfold ReadsInStep mmapCursors
  -- the pages are mapped, and the last read has left off where the kernel went on
  rw [if_neg (by decide), hsync]
  dsimp only [PerfDevice.produce]
  rw [hsize, Int.toNat_natCast]
  exact exists_congr fun cs => and_congr_right fun _ => PerfRecord.inStepWith_iff

/-- **The parser stays in step with the stream exactly when every record is covered.** The
stretch is what the kernel has written since the last read, and fits the ring. -/
theorem records_in_step_iff (event : RawEvent) (hsync : dev.readHead = dev.buffer.dataHead)
    (hwf : ∀ r ∈ rs, r.WellFormed dev.deviceType.sampleType)
    (hfit : (rs.flatMap (PerfRecord.bytes dev.deviceType.sampleType)).length
      ≤ numMmapPages * pageSize) :
    ReadsInStep pageSize readFormat regMask dev event rs ↔
      ∀ r ∈ rs, r.Covered dev.deviceType.sampleType := by
  rw [readsInStep_iff_skip event hsync hwf hfit]
  exact forall₂_congr fun r hr => PerfRecord.skip_eq_iff_covered (hwf r hr)

/-! ### Two stretches -/

/-- A record of lost samples and a sample. -/
theorem records_in_step_lost :
    ReadsInStep 4096 0 0 (PerfDevice.opened .ebsDevice 3 fun _ => 0) RawEvent.new
      [PerfDevice.lostRecord, .sample 2 PerfDevice.firstSample] := by
  refine (records_in_step_iff RawEvent.new rfl ?_ (by decide)).mpr ?_
  · exact List.forall_mem_cons.mpr ⟨PerfDevice.wellFormed_lostRecord,
      List.forall_mem_singleton.mpr PerfDevice.wellFormed_firstSample⟩
  · exact List.forall_mem_cons.mpr ⟨Or.inl rfl, List.forall_mem_singleton.mpr (Or.inl rfl)⟩

/-- A context switch: the record is its header, but a sample id is read behind it. -/
def switchRecord : PerfRecord := .other 14 0 []

/-- **A context switch puts the parser out of step.** -/
theorem switch_not_in_step :
    (∀ r ∈ [switchRecord, .sample 2 PerfDevice.firstSample],
      r.WellFormed DeviceType.ebsDevice.sampleType) ∧
    ¬ ReadsInStep 4096 0 0 (PerfDevice.opened .ebsDevice 3 fun _ => 0) RawEvent.new
      [switchRecord, .sample 2 PerfDevice.firstSample] := by
  have hwf : ∀ r ∈ [switchRecord, .sample 2 PerfDevice.firstSample],
      r.WellFormed DeviceType.ebsDevice.sampleType := by
    have hswitch : switchRecord.WellFormed DeviceType.ebsDevice.sampleType :=
      ⟨by decide, by decide, rfl⟩
    simpa using ⟨hswitch, PerfDevice.wellFormed_firstSample⟩
  refine And.intro hwf ?_
  intro h
  rw [readsInStep_iff_skip] at h
  · exact absurd (h switchRecord List.mem_cons_self) (by decide)
  · rfl
  · exact hwf
  · decide

end Read

end Kognizance
