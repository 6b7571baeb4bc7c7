import Kognizance.Platform.PerfParser

/-!
# Perf records

The records the kernel writes into a ring: samples of a device, and records of other
types, of which only the length matters to the parser. `sample_id_all` is off, and the
size in a header is the whole length of the record.

* `Sample.bytes` lays a field of a sample out, `PerfRecord.bytes` a record.
* `Sample.Carries` says that an event has the fields of a sample that are selected.
* `readRecords_spec` says what the parser makes of a stretch of records that it keeps in
  step with.
-/

namespace Kognizance

open LittleEndian

/-- A sample. `res` fills up the field of the cpu. -/
structure Sample where
  ip : UInt64
  pid : UInt32
  tid : UInt32
  time : UInt64
  addr : UInt64
  id : UInt64
  cpu : UInt32
  res : UInt32
  period : UInt64
  callchain : List UInt64
  deriving DecidableEq, Repr

/-- The order in which the kernel writes the fields. -/
def SampleField.written : List SampleField :=
  [.identifier, .ip, .tid, .time, .addr, .id, .streamId, .cpu, .period, .read, .callchain, .raw,
    .branchStack, .regsUser, .stackUser, .weight, .dataSrc, .transaction, .regsIntr]

/-- The fields that some device selects. -/
def SampleField.used : SampleField → Bool
  | .ip => true
  | .tid => true
  | .time => true
  | .addr => true
  | .id => true
  | .cpu => true
  | .period => true
  | .callchain => true
  | _ => false

namespace Sample

/-- A field as it is written. -/
def bytes (s : Sample) : SampleField → List UInt8
  | .ip => leBytes 8 s.ip.toNat
  | .tid => leBytes 4 s.pid.toNat ++ leBytes 4 s.tid.toNat
  | .time => leBytes 8 s.time.toNat
  | .addr => leBytes 8 s.addr.toNat
  | .id => leBytes 8 s.id.toNat
  | .cpu => leBytes 4 s.cpu.toNat ++ leBytes 4 s.res.toNat
  | .period => leBytes 8 s.period.toNat
  | .callchain =>
    leBytes 8 s.callchain.length ++ s.callchain.flatMap fun ip => leBytes 8 ip.toNat
  | _ => []

/-- The fields of a sample behind its header. -/
def body (sampleType : ℕ) (s : Sample) : List UInt8 :=
  (SampleField.written.filter (selects sampleType)).flatMap s.bytes

/-- What reading a field leaves in the event. -/
def write (s : Sample) (e : RawEvent) : SampleField → RawEvent
  | .ip => { e with h_ip_addr := s.ip }
  | .tid => { e with h_pId := asInt s.pid.toNat, h_tId := asInt s.tid.toNat }
  | .time => { e with event_time := s.time }
  | .addr => { e with h_data_addr := s.addr }
  | .cpu => { e with h_cpu := asInt s.cpu.toNat }
  | _ => e

/-- What reading the sample leaves in the event. -/
def fill (sampleType : ℕ) (s : Sample) (e : RawEvent) : RawEvent :=
  (SampleField.written.filter (selects sampleType)).foldl s.write e

/-- The event has the fields of the sample that are selected. -/
structure Carries (sampleType : ℕ) (s : Sample) (e : RawEvent) : Prop where
  ip : selects sampleType .ip → e.h_ip_addr = s.ip
  pid : selects sampleType .tid → e.h_pId = asInt s.pid.toNat
  tid : selects sampleType .tid → e.h_tId = asInt s.tid.toNat
  time : selects sampleType .time → e.event_time = s.time
  addr : selects sampleType .addr → e.h_data_addr = s.addr
  cpu : selects sampleType .cpu → e.h_cpu = asInt s.cpu.toNat

end Sample

section Fields

variable {data : ℤ → UInt8} {readFormat regMask : ℕ} {s : Sample} {c : Cursor}

theorem length_callchain (ips : List UInt64) :
    (ips.flatMap fun ip => leBytes 8 ip.toNat).length = 8 * ips.length := by
  induction ips with
  | nil => rfl
  | cons ip ips ih =>
    rw [List.flatMap_cons, List.length_append, ih, length_leBytes, List.length_cons]
    omega

theorem asLong_of_lt {n : ℕ} (h : n < 2 ^ 63) : asLong n = n := by
  unfold asLong
  rw [Int.bmod_eq_of_le (by omega) (by omega)]

/-- **One field read back.** -/
theorem readField_of_holds {f : SampleField} (hf : f.used = true)
    (hlen : (s.bytes f).length < 2 ^ 16) (h : Holds data c.offset (s.bytes f)) :
    readField data readFormat regMask f c =
      ⟨c.offset + (s.bytes f).length, s.write c.event f⟩ := by
  have h64 : ∀ {x : UInt64}, Holds data c.offset (leBytes 8 x.toNat) →
      UInt64.ofNat (readLE data c.offset 8) = x := by
    intro x hx
    rw [readLE_of_holds hx x.toNat_lt, UInt64.ofNat_toNat]
  cases f with
  | ip => simp [readField, Sample.bytes, Sample.write, h64 h]
  | time => simp [readField, Sample.bytes, Sample.write, h64 h]
  | addr => simp [readField, Sample.bytes, Sample.write, h64 h]
  | tid =>
    obtain ⟨hpid, htid⟩ := holds_append.mp h
    rw [length_leBytes] at htid
    have hp := readLE_of_holds hpid s.pid.toNat_lt
    have ht := readLE_of_holds htid s.tid.toNat_lt
    simp only [Nat.cast_ofNat] at ht
    simp [readField, Sample.bytes, Sample.write, hp, ht]
  | cpu =>
    have hc := readLE_of_holds (holds_append.mp h).1 s.cpu.toNat_lt
    simp [readField, Sample.bytes, Sample.write, hc]
  | callchain =>
    -- the number of addresses fits, since they do
    simp only [Sample.bytes, List.length_append, length_leBytes, length_callchain] at hlen
    have hn := readLE_of_holds (holds_append.mp h).1 (by omega)
    simp only [readField, Cursor.skip, Sample.bytes, Sample.write, hn,
      asLong_of_lt (show s.callchain.length < 2 ^ 63 by omega), List.length_append,
      length_leBytes, length_callchain]
    simp
  | id => simp [readField, Cursor.skip, Sample.bytes, Sample.write]
  | period => simp [readField, Cursor.skip, Sample.bytes, Sample.write]
  | _ => cases hf

theorem foldl_readField {fs : List SampleField} (hfs : ∀ f ∈ fs, f.used = true)
    (hlen : (fs.flatMap s.bytes).length < 2 ^ 16)
    (h : Holds data c.offset (fs.flatMap s.bytes)) :
    fs.foldl (fun c f => readField data readFormat regMask f c) c =
      ⟨c.offset + (fs.flatMap s.bytes).length, fs.foldl s.write c.event⟩ := by
  induction fs generalizing c with
  | nil => simp
  | cons f fs ih =>
    rw [List.flatMap_cons] at h hlen
    rw [List.length_append] at hlen
    obtain ⟨hf, hrest⟩ := holds_append.mp h
    rw [List.foldl_cons, readField_of_holds (hfs f List.mem_cons_self) (by omega) hf,
      ih (fun f hf => hfs f (List.mem_cons_of_mem _ hf)) (by omega) hrest]
    simp [add_assoc]

/-- The devices select no field that the parser looks for in another place than the
kernel writes it. -/
theorem parsed_filter (d : DeviceType) :
    SampleField.parsed.filter (selects d.sampleType) =
      SampleField.written.filter (selects d.sampleType) := by
  cases d <;> decide

theorem used_of_selected (d : DeviceType) :
    ∀ f ∈ SampleField.written.filter (selects d.sampleType), f.used = true := by
  cases d <;> decide

/-- **A sample read back.** -/
theorem readSample_of_holds (d : DeviceType) (hlen : (s.body d.sampleType).length < 2 ^ 16)
    (h : Holds data c.offset (s.body d.sampleType)) :
    readSample data d.sampleType readFormat regMask c =
      ⟨c.offset + (s.body d.sampleType).length, s.fill d.sampleType c.event⟩ := by
  -- in the order of the kernel, which is the parser's for the fields the devices select
  unfold readSample
  rw [← List.foldl_filter, parsed_filter]
  exact foldl_readField (used_of_selected d) hlen h

theorem Sample.fill_carries (d : DeviceType) (e : RawEvent) :
    s.Carries d.sampleType (s.fill d.sampleType e) := by
  -- device by device: the fields that its `sample_type` selects are filled in
  cases d with
  | ebsDevice =>
    have hfs : SampleField.written.filter (selects DeviceType.ebsDevice.sampleType)
        = [.ip, .tid, .time, .cpu, .period] := by decide
    rw [Sample.fill, hfs]
    exact ⟨by simp [write], by simp [write], by simp [write], by simp [write],
      fun h => absurd h (by decide), by simp [write]⟩
  | pebsDevice =>
    have hfs : SampleField.written.filter (selects DeviceType.pebsDevice.sampleType)
        = [.ip, .tid, .addr, .id, .cpu, .callchain] := by decide
    rw [Sample.fill, hfs]
    exact ⟨by simp [write], by simp [write], by simp [write], fun h => absurd h (by decide),
      by simp [write], by simp [write]⟩
  | bpDevice =>
    have hfs : SampleField.written.filter (selects DeviceType.bpDevice.sampleType)
        = [.ip, .tid, .addr, .cpu, .callchain] := by decide
    rw [Sample.fill, hfs]
    exact ⟨by simp [write], by simp [write], by simp [write], fun h => absurd h (by decide),
      by simp [write], by simp [write]⟩

end Fields

/-- A record of the stream. -/
inductive PerfRecord
  | sample (misc : UInt16) (s : Sample)
  | other (type : UInt32) (misc : UInt16) (body : List UInt8)
  deriving DecidableEq, Repr

namespace PerfRecord

def type : PerfRecord → ℕ
  | sample _ _ => perfRecordSample
  | other type _ _ => type.toNat

def misc : PerfRecord → UInt16
  | sample misc _ => misc
  | other _ misc _ => misc

def body (sampleType : ℕ) : PerfRecord → List UInt8
  | sample _ s => s.body sampleType
  | other _ _ body => body

/-- The size in the header. -/
def size (sampleType : ℕ) (r : PerfRecord) : ℕ := 8 + (r.body sampleType).length

/-- A record as it is written. -/
def bytes (sampleType : ℕ) (r : PerfRecord) : List UInt8 :=
  leBytes 4 r.type ++ leBytes 2 r.misc.toNat ++ leBytes 2 (r.size sampleType) ++ r.body sampleType

theorem length_bytes (sampleType : ℕ) (r : PerfRecord) :
    (r.bytes sampleType).length = 8 + (r.body sampleType).length := by
  simp only [bytes, List.length_append, length_leBytes]

/-- The lengths that the kernel gives the records of a type, without their header. -/
def BodyLength (type n : ℕ) : Prop :=
  match type with
  | 1 => 32 ≤ n
  | 2 => n = 16
  | 3 => 8 ≤ n
  | 4 => n = 24
  | 5 => n = 24
  | 6 => n = 24
  | 7 => n = 24
  | 10 => 64 ≤ n
  | 11 => n = 24
  | 12 => n = 8
  | 13 => n = 8
  | 14 => n = 0
  | 15 => n = 8
  | _ => True

/-- The record is one the kernel can write: its size fits the header, and its body has
the length of its type. -/
def WellFormed (sampleType : ℕ) (r : PerfRecord) : Prop :=
  r.size sampleType < 2 ^ 16 ∧
    match r with
    | sample _ _ => True
    | other type _ body => type.toNat ≠ perfRecordSample ∧ BodyLength type.toNat body.length

/-- What the parser skips behind the header of the record. -/
def skip (sampleType : ℕ) : PerfRecord → ℤ
  | sample _ s => (s.body sampleType).length
  | other type misc body => recordSkip type.toNat ((other type misc body).size sampleType)

/-- The parser comes out at the end of every record, past it at the last one at most. -/
def InStep (sampleType : ℕ) : List PerfRecord → Prop
  | [] => True
  | [r] => (r.body sampleType).length ≤ r.skip sampleType
  | r :: r' :: rs =>
    r.skip sampleType = (r.body sampleType).length ∧ InStep sampleType (r' :: rs)

/-- The sample of a record, if it is one. -/
def sample? : PerfRecord → Option Sample
  | sample _ s => some s
  | other .. => none

/-- The samples among the records. -/
def samples (rs : List PerfRecord) : List Sample := rs.filterMap sample?

/-- The types of which the parser skips what the kernel writes. -/
def readWhole (type : ℕ) : Bool :=
  type ∈ [1, 2, 3, 4, 5, 6, 7, perfRecordSample, 10, 12]

/-- What reading the record leaves in the event. -/
def fill (sampleType : ℕ) (e : RawEvent) : PerfRecord → RawEvent
  | sample _ s => s.fill sampleType e
  | other .. => e

section Read

variable {data : ℤ → UInt8} {readFormat regMask : ℕ} {c : Cursor}

/-- **One record read back.** -/
theorem readRecord_of_holds (d : DeviceType) {r : PerfRecord} (hwf : r.WellFormed d.sampleType)
    (h : Holds data c.offset (r.bytes d.sampleType)) :
    readRecord data d.sampleType readFormat regMask c =
      ⟨c.offset + 8 + r.skip d.sampleType, r.fill d.sampleType c.event⟩ := by
  obtain ⟨hheader, hbody⟩ := holds_append.mp h
  obtain ⟨hfront, hsize⟩ := holds_append.mp hheader
  obtain ⟨htype, -⟩ := holds_append.mp hfront
  have hfit := hwf.1
  simp only [List.length_append, length_leBytes] at hsize hbody
  have hs := readLE_of_holds hsize (by omega)
  have ht : readLE data c.offset 4 = r.type := by
    refine readLE_of_holds htype ?_
    cases r with
    | sample misc s => simp [type, perfRecordSample]
    | other type misc body => exact type.toNat_lt
  -- the size in the header is read for the records that end in a name only
  unfold readRecord
  dsimp only
  rw [ht]
  cases r with
  | sample misc s =>
    simp only [size, body] at hfit
    have hpos : (sample misc s).type = perfRecordSample := rfl
    rw [if_pos hpos]
    exact readSample_of_holds d (by omega) hbody
  | other type misc body =>
    have hs' : readLE data (c.offset + 6) 2 = (other type misc body).size d.sampleType := hs
    have hneg : (other type misc body).type ≠ perfRecordSample := hwf.2.1
    rw [if_neg hneg, hs']
    rfl

/-- **A stretch of records read back.** -/
theorem readRecords_spec (d : DeviceType) {rs : List PerfRecord} {size : ℤ} {fuel : ℕ}
    (hwf : ∀ r ∈ rs, r.WellFormed d.sampleType) (hstep : InStep d.sampleType rs)
    (h : Holds data c.offset (rs.flatMap (bytes d.sampleType)))
    (hsize : size = c.offset + (rs.flatMap (bytes d.sampleType)).length)
    (hfuel : rs.length ≤ fuel) :
    readRecords data d.sampleType readFormat regMask size fuel c =
      some (rs.foldl (fill d.sampleType) c.event) := by
  -- over the records; the last one may lead past the end of the stretch
  induction rs generalizing c fuel with
  | nil =>
    unfold readRecords
    rw [if_neg (by simp [hsize])]
    rfl
  | cons r rs ih =>
    have hlen := length_bytes d.sampleType r
    rw [List.flatMap_cons] at h hsize
    rw [List.length_append, hlen] at hsize
    obtain ⟨hr, hrest⟩ := holds_append.mp h
    obtain ⟨fuel, rfl⟩ : ∃ n, fuel = n + 1 := by
      cases fuel with
      | zero => simp at hfuel
      | succ n => exact ⟨n, rfl⟩
    unfold readRecords
    rw [if_pos (by omega)]
    dsimp only
    rw [readRecord_of_holds d (hwf r List.mem_cons_self) hr, List.foldl_cons]
    cases rs with
    | nil =>
      have hend : ((r.body d.sampleType).length : ℤ) ≤ r.skip d.sampleType := hstep
      unfold readRecords
      rw [if_neg (by simp at hsize ⊢; omega)]
      rfl
    | cons r' rs =>
      obtain ⟨hskip, hstep⟩ := hstep
      rw [hlen] at hrest
      refine ih (fun r hr => hwf r (List.mem_cons_of_mem _ hr)) hstep ?_ ?_ (by simpa using hfuel)
      · rw [hskip]
        simpa [add_assoc] using hrest
      · rw [hskip, hsize]
        push_cast
        ring

end Read

/-- Only the samples of a stretch are written to the event. -/
theorem foldl_fill (sampleType : ℕ) (rs : List PerfRecord) (e : RawEvent) :
    rs.foldl (fill sampleType) e = (samples rs).foldl (fun e s => s.fill sampleType e) e := by
  induction rs generalizing e with
  | nil => rfl
  | cons r rs ih =>
    rw [List.foldl_cons, ih]
    cases r <;> rfl

/-- A record of such a type is skipped as a whole. -/
theorem skip_of_readWhole {sampleType : ℕ} {r : PerfRecord} (hwf : r.WellFormed sampleType)
    (htype : readWhole r.type = true) : r.skip sampleType = (r.body sampleType).length := by
  cases r with
  | sample misc s => rfl
  | other type misc body =>
    obtain ⟨hfit, hne, hlen⟩ := hwf
    simp only [readWhole, PerfRecord.type, List.mem_cons, List.not_mem_nil, or_false,
      decide_eq_true_eq] at htype
    simp only [skip, PerfRecord.body]
    rcases htype with ht | ht | ht | ht | ht | ht | ht | ht | ht | ht <;> rw [ht] at hlen ⊢ <;>
      first
      | exact absurd ht hne
      | (simp only [BodyLength] at hlen; simp only [recordSkip, PerfRecord.size, PerfRecord.body]
         omega)

theorem inStep_of_readWhole {sampleType : ℕ} {rs : List PerfRecord}
    (hwf : ∀ r ∈ rs, r.WellFormed sampleType) (htype : ∀ r ∈ rs, readWhole r.type = true) :
    InStep sampleType rs := by
  induction rs with
  | nil => trivial
  | cons r rs ih =>
    have hskip := skip_of_readWhole (hwf r List.mem_cons_self) (htype r List.mem_cons_self)
    have hrest := ih (fun r hr => hwf r (List.mem_cons_of_mem _ hr))
      fun r hr => htype r (List.mem_cons_of_mem _ hr)
    cases rs with
    | nil => exact hskip.ge
    | cons r' rs => exact ⟨hskip, hrest⟩

end PerfRecord

end Kognizance
