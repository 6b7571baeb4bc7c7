import Kognizance.Lib.LittleEndian
import Kognizance.Lib.Ring
import Kognizance.Platform.Device

/-!
# The ring buffer parser

`perf_mmap_read`: the bytes that are new in a device's ring are copied out and read
record by record. Every record starts with a header of 8 bytes; what is skipped behind
it depends on its type, and for a sample on the fields that `sample_type` selects. The
fields of a sample are written into one event, whose pointer the caller passes; the
values that are only printed are not kept.

* `readField` reads one field of a sample, `readSample` all that are selected.
* `recordSkip` is what the parser skips behind the header of any other record.
* `readRecords` is the loop, `perfMmapRead` the function.
* `PerfDevice.devSignalHandler` is the part of the device's signal handler that makes
  the event and passes it on, unless the agent has the tool called later.
-/

namespace Kognizance

open LittleEndian

/-- The fields of a sample, as `PERF_SAMPLE_*` names them. -/
inductive SampleField
  | ip
  | tid
  | time
  | addr
  | read
  | callchain
  | id
  | cpu
  | period
  | streamId
  | raw
  | branchStack
  | regsUser
  | stackUser
  | weight
  | dataSrc
  | identifier
  | transaction
  | regsIntr
  deriving DecidableEq, Repr

namespace SampleField

/-- The bit of `sample_type` that selects a field. -/
def bit : SampleField → ℕ
  | ip => 0
  | tid => 1
  | time => 2
  | addr => 3
  | read => 4
  | callchain => 5
  | id => 6
  | cpu => 7
  | period => 8
  | streamId => 9
  | raw => 10
  | branchStack => 11
  | regsUser => 12
  | stackUser => 13
  | weight => 14
  | dataSrc => 15
  | identifier => 16
  | transaction => 17
  | regsIntr => 18

/-- The order in which the parser looks for the fields. -/
def parsed : List SampleField :=
  [ip, tid, time, addr, id, streamId, cpu, period, read, callchain, raw, branchStack, regsUser,
    regsIntr, stackUser, weight, dataSrc, identifier, transaction]

end SampleField

/-- The field is selected. -/
def selects (sampleType : ℕ) (f : SampleField) : Bool := sampleType.testBit f.bit

/-- The `sample_type` that selects these fields. -/
def sampleTypeOf (fs : List SampleField) : ℕ := fs.foldl (fun st f => st ||| 1 <<< f.bit) 0

/-- `EBS_SAMPLE_TYPE`, `PEBS_SAMPLE_TYPE` and `BP_SAMPLE_TYPE`. -/
def DeviceType.sampleType : DeviceType → ℕ
  | .ebsDevice => sampleTypeOf [.ip, .tid, .time, .cpu, .period]
  | .pebsDevice => sampleTypeOf [.ip, .tid, .addr, .id, .callchain, .cpu]
  | .bpDevice => sampleTypeOf [.ip, .tid, .addr, .callchain, .cpu]

/-- An `int` from its 32 bits. -/
def asInt (n : ℕ) : ℤ := (n : ℤ).bmod (2 ^ 32)

/-- A `long long` from its 64 bits. -/
def asLong (n : ℕ) : ℤ := (n : ℤ).bmod (2 ^ 64)

/-- Where the parser is, and the event it writes to. -/
structure Cursor where
  offset : ℤ
  event : RawEvent
  deriving DecidableEq, Repr

namespace Cursor

def skip (c : Cursor) (n : ℤ) : Cursor := { c with offset := c.offset + n }

end Cursor

/-- `handle_struct_read_format`, its length. -/
def handleStructReadFormat (data : ℤ → UInt8) (offset : ℤ) (readFormat : ℕ) : ℤ :=
  let timeEnabled := if readFormat.testBit 0 then 8 else 0
  let timeRunning := if readFormat.testBit 1 then 8 else 0
  let id := if readFormat.testBit 2 then 8 else 0
  -- `PERF_FORMAT_GROUP`: the values of all events of a group
  if readFormat.testBit 3 then
    8 + timeEnabled + timeRunning + (asLong (readLE data offset 8)).toNat * (8 + id)
  else 8 + timeEnabled + timeRunning + id

/-- `print_regs`, its length. -/
def printRegs (regMask : ℕ) : ℤ := 8 * ((List.range 64).filter regMask.testBit).length

/-- Read one field of a sample. -/
def readField (data : ℤ → UInt8) (readFormat regMask : ℕ) (f : SampleField) (c : Cursor) :
    Cursor :=
  match f with
  | .ip =>
    { offset := c.offset + 8
      event := { c.event with h_ip_addr := UInt64.ofNat (readLE data c.offset 8) } }
  | .tid =>
    { offset := c.offset + 8
      event := { c.event with
        h_pId := asInt (readLE data c.offset 4)
        h_tId := asInt (readLE data (c.offset + 4) 4) } }
  | .time =>
    { offset := c.offset + 8
      event := { c.event with event_time := UInt64.ofNat (readLE data c.offset 8) } }
  | .addr =>
    { offset := c.offset + 8
      event := { c.event with h_data_addr := UInt64.ofNat (readLE data c.offset 8) } }
  | .cpu =>
    { offset := c.offset + 8
      event := { c.event with h_cpu := asInt (readLE data c.offset 4) } }
  | .read => c.skip (handleStructReadFormat data c.offset readFormat)
  | .callchain => c.skip (8 + 8 * (asLong (readLE data c.offset 8)).toNat)
  | .raw => c.skip (4 + asInt (readLE data c.offset 4))
  | .branchStack => c.skip (8 + 24 * (asLong (readLE data c.offset 8)).toNat)
  | .regsUser => c.skip (8 + printRegs regMask)
  | .regsIntr => c.skip (8 + printRegs regMask)
  | .stackUser => c.skip (8 + asLong (readLE data c.offset 8) + 8)
  | .id => c.skip 8
  | .streamId => c.skip 8
  | .period => c.skip 8
  | .weight => c.skip 8
  | .dataSrc => c.skip 8
  | .identifier => c.skip 8
  | .transaction => c.skip 8

/-- Read the selected fields of a sample. -/
def readSample (data : ℤ → UInt8) (sampleType readFormat regMask : ℕ) (c : Cursor) : Cursor :=
  SampleField.parsed.foldl
    (fun c f => if selects sampleType f then readField data readFormat regMask f c else c) c

/-- `PERF_RECORD_SAMPLE`. -/
def perfRecordSample : ℕ := 9

/-- What is skipped behind the header of a record that is not a sample, by its type and
the size in its header. -/
def recordSkip (type size : ℕ) : ℤ :=
  match type with
  -- `PERF_RECORD_MMAP`
  | 1 => 4 + 4 + 8 + 8 + 8 + (size - 40)
  -- `PERF_RECORD_LOST`
  | 2 => 8 + 8
  -- `PERF_RECORD_COMM`
  | 3 => 4 + 4 + (size - 16)
  -- `PERF_RECORD_EXIT`
  | 4 => 4 + 4 + 4 + 4 + 8
  -- `PERF_RECORD_THROTTLE`
  | 5 => 8 + 8 + 8
  -- `PERF_RECORD_UNTHROTTLE`
  | 6 => 8 + 8 + 8
  -- `PERF_RECORD_FORK`
  | 7 => 4 + 4 + 4 + 4 + 8
  -- `PERF_RECORD_MMAP2`
  | 10 => 4 + 4 + 8 + 8 + 8 + 4 + 4 + 8 + 8 + 4 + 4 + (size - 72)
  -- `PERF_RECORD_AUX`
  | 11 => 8 + 8 + 8 + 8
  -- `PERF_RECORD_ITRACE_START`
  | 12 => 4 + 4
  -- `PERF_RECORD_LOST_SAMPLES`
  | 13 => 8 + 8
  -- `PERF_RECORD_SWITCH`
  | 14 => 8
  -- `PERF_RECORD_SWITCH_CPU_WIDE`
  | 15 => 4 + 4 + 8
  -- the size in the header is not used
  | _ => 0

/-- Read one record. -/
def readRecord (data : ℤ → UInt8) (sampleType readFormat regMask : ℕ) (c : Cursor) : Cursor :=
  let type := readLE data c.offset 4
  let size := readLE data (c.offset + 6) 2
  let c := c.skip 8
  if type = perfRecordSample then readSample data sampleType readFormat regMask c
  else c.skip (recordSkip type size)

/-- The loop over the records, up to `size`. It may run for ever, since a skip can be
negative; `none` is a loop that is not done after `fuel` records. -/
def readRecords (data : ℤ → UInt8) (sampleType readFormat regMask : ℕ) (size : ℤ) :
    ℕ → Cursor → Option RawEvent
  | fuel, c =>
    if c.offset < size then
      match fuel with
      | 0 => none
      | fuel + 1 =>
        readRecords data sampleType readFormat regMask size fuel
          (readRecord data sampleType readFormat regMask c)
    else some c.event

/-- The control page and the cells of a device's ring. -/
structure PerfBuffer where
  dataHead : ℕ
  dataTail : ℕ
  cells : ℕ → UInt8

/-- The buffer `perf_mmap_read` copies the ring to. Both copies together start at the
previous head. -/
def linearised (pageSize mmapSize : ℕ) (buf : PerfBuffer) (prevHead : ℕ) : List UInt8 :=
  Ring.linearise (mmapSize * pageSize) buf.cells (prevHead % (mmapSize * pageSize))

/-- `perf_mmap_read`: the head it returns, the buffer and the event. -/
def perfMmapRead (pageSize mmapSize : ℕ) (buf : PerfBuffer) (prevHead : ℕ)
    (sampleType readFormat regMask : ℕ) (event : RawEvent) :
    Option (ℕ × PerfBuffer × RawEvent) :=
  if mmapSize = 0 then some (0, buf, event)
  else
    let size : ℤ := buf.dataHead - prevHead
    let data := linearised pageSize mmapSize buf prevHead
    match readRecords (fun o => data.getD o.toNat 0) sampleType readFormat regMask size size.toNat
        ⟨0, event⟩ with
    | none => none
    | some event => some (buf.dataHead, { buf with dataTail := buf.dataHead }, event)

/-- `NUM_MMAP_PAGES`. -/
def numMmapPages : ℕ := 8

/-- A device with its ring. -/
structure PerfDevice where
  deviceType : DeviceType
  deviceFileId : ℤ
  readHead : ℕ
  buffer : PerfBuffer

namespace PerfDevice

/-- `handle_perf_event`. `eventId` is what `generate_event_key` returns. -/
def handlePerfEvent (pageSize : ℕ) (dev : PerfDevice) (eventId : ℤ) :
    Option (RawEvent × PerfDevice) :=
  let event := { RawEvent.new with eventId := eventId, deviceFileId := dev.deviceFileId }
  match perfMmapRead pageSize numMmapPages dev.buffer dev.readHead dev.deviceType.sampleType 0 0
      event with
  | none => none
  | some (head, buf, event) =>
    let event :=
      if event.sample_index ≠ 0 then { event with eventId := asInt event.sample_index.toNat }
      else event
    some (event, { dev with readHead := head, buffer := buf })

/-- `dev_signal_handler`, the events that it passes on to the tool. An agent with
`requestWillBeNotified` has the tool called later, on the guest's notification, and then
with an event of its own. -/
def devSignalHandler (pageSize : ℕ) (requestWillBeNotified : Bool) (dev : PerfDevice)
    (eventId : ℤ) : Option (List RawEvent × PerfDevice) :=
  (dev.handlePerfEvent pageSize eventId).map fun (event, dev) =>
    let event := if dev.deviceType = .bpDevice then { event with fixSkid := true } else event
    (if requestWillBeNotified then [] else [event], dev)

end PerfDevice

end Kognizance
