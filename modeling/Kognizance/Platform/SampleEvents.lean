import Kognizance.Platform.PerfRecord

/-!
# Samples and events

The kernel writes records into a device's ring and signals the thread; the handler
makes one event, lets the parser write all samples that are new into it and passes it
on, unless the agent has the tool called later. How many records there are between two
signals is the kernel's choice.

* `PerfDevice.signals` is a run: records are written, the device signals, and so on.
* `OneEventPerSample` is what the events of a run are for.
* `one_event_per_sample` says how the records must fall for it.
-/

namespace Kognizance

open LittleEndian

/-- One signal of a device: what the kernel has written since the last one, the event key
the handler is given and what the agent's flag is then; the guest can change the flag at
any time. -/
structure DeviceSignal where
  eventId : ℤ
  requestWillBeNotified : Bool
  records : List PerfRecord

namespace DeviceSignal

def samples (sig : DeviceSignal) : List Sample := PerfRecord.samples sig.records

/-- How many events the handler passes on. -/
def passes (sig : DeviceSignal) : ℕ := if sig.requestWillBeNotified then 0 else 1

theorem passes_le_one (sig : DeviceSignal) : sig.passes ≤ 1 := by
  unfold passes
  split
  · exact Nat.zero_le 1
  · exact le_rfl

/-- What the kernel writes into the ring. -/
def bytes (sampleType : ℕ) (sig : DeviceSignal) : List UInt8 :=
  sig.records.flatMap (PerfRecord.bytes sampleType)

end DeviceSignal

namespace PerfDevice

/-- A device whose ring has just been mapped. -/
def opened (deviceType : DeviceType) (deviceFileId : ℤ) (cells : ℕ → UInt8) : PerfDevice where
  deviceType := deviceType
  deviceFileId := deviceFileId
  readHead := 0
  buffer := ⟨0, 0, cells⟩

/-- The kernel writes into the ring. -/
def produce (pageSize : ℕ) (dev : PerfDevice) (bytes : List UInt8) : PerfDevice :=
  { dev with buffer := { dev.buffer with
      dataHead := dev.buffer.dataHead + bytes.length
      cells :=
        Ring.write (numMmapPages * pageSize) dev.buffer.cells dev.buffer.dataHead bytes } }

/-- A run over the signals of the device, with the events passed on at each of them.
There is none when a handler does not return. -/
def signals (pageSize : ℕ) :
    PerfDevice → List DeviceSignal → Option (List (List RawEvent) × PerfDevice)
  | dev, [] => some ([], dev)
  | dev, sig :: sigs =>
    match (dev.produce pageSize (sig.bytes dev.deviceType.sampleType)).devSignalHandler pageSize
        sig.requestWillBeNotified sig.eventId with
    | none => none
    | some (events, dev) =>
      match signals pageSize dev sigs with
      | none => none
      | some (passed, dev) => some (events :: passed, dev)

end PerfDevice

/-- Every sample is passed on in one event of its own, and no event without one. -/
structure OneEventPerSample (sampleType : ℕ) (sigs : List DeviceSignal)
    (passed : List (List RawEvent)) : Prop where
  each : List.Forall₂ (Sample.Carries sampleType) (sigs.flatMap DeviceSignal.samples) passed.flatten
  quiet : ∀ p ∈ sigs.zip passed, p.1.samples = [] → p.2 = []

/-- The run returns and passes every sample on in one event. -/
def PerfDevice.Lawful (pageSize : ℕ) (dev : PerfDevice) (sigs : List DeviceSignal) : Prop :=
  ∃ passed dev', dev.signals pageSize sigs = some (passed, dev') ∧
    OneEventPerSample dev.deviceType.sampleType sigs passed

/-! ### One signal -/

theorem Sample.Carries.congr {sampleType : ℕ} {s : Sample} {e e' : RawEvent}
    (h : s.Carries sampleType e) (hip : e'.h_ip_addr = e.h_ip_addr) (hpid : e'.h_pId = e.h_pId)
    (htid : e'.h_tId = e.h_tId) (htime : e'.event_time = e.event_time)
    (haddr : e'.h_data_addr = e.h_data_addr) (hcpu : e'.h_cpu = e.h_cpu) :
    s.Carries sampleType e' where
  ip := fun hs => hip.trans (h.ip hs)
  pid := fun hs => hpid.trans (h.pid hs)
  tid := fun hs => htid.trans (h.tid hs)
  time := fun hs => htime.trans (h.time hs)
  addr := fun hs => haddr.trans (h.addr hs)
  cpu := fun hs => hcpu.trans (h.cpu hs)

/-- The parser gives no event a `sample_index`. -/
theorem Sample.sample_index_write (s : Sample) (f : SampleField) (e : RawEvent) :
    (s.write e f).sample_index = e.sample_index := by
  unfold Sample.write
  split <;> rfl

theorem Sample.sample_index_fill (sampleType : ℕ) (s : Sample) (e : RawEvent) :
    (s.fill sampleType e).sample_index = e.sample_index := by
  unfold Sample.fill
  generalize SampleField.written.filter (selects sampleType) = fs
  induction fs generalizing e with
  | nil => rfl
  | cons f fs ih => rw [List.foldl_cons, ih, Sample.sample_index_write]

theorem Sample.sample_index_foldl (sampleType : ℕ) (ss : List Sample) (e : RawEvent) :
    (ss.foldl (fun e s => s.fill sampleType e) e).sample_index = e.sample_index := by
  induction ss generalizing e with
  | nil => rfl
  | cons s ss ih => rw [List.foldl_cons, ih, Sample.sample_index_fill]

/-- A record takes up some of the ring. -/
theorem PerfRecord.length_le_length_bytes (sampleType : ℕ) (rs : List PerfRecord) :
    rs.length ≤ (rs.flatMap (PerfRecord.bytes sampleType)).length := by
  induction rs with
  | nil => exact Nat.zero_le _
  | cons r rs ih =>
    rw [List.flatMap_cons, List.length_append, List.length_cons]
    have hheader := r.length_bytes sampleType
    omega

/-- What was written into the ring since the last read is what the next one copies out. -/
theorem holds_linearise (n head : ℕ) (cells : ℕ → UInt8) {bytes : List UInt8}
    (hfit : bytes.length ≤ n) :
    Holds (fun o => (Ring.linearise n (Ring.write n cells head bytes) (head % n)).getD o.toNat 0) 0
      bytes := by
  intro i hi
  have hget : (Ring.linearise n (Ring.write n cells head bytes) (head % n))[i]? = some bytes[i] :=
    Ring.linearise_write hfit hi
  simp [List.getD_eq_getElem?_getD, hget]

namespace PerfDevice

variable {pageSize : ℕ} {dev dev' : PerfDevice} {sig : DeviceSignal} {sigs : List DeviceSignal}
  {passed : List (List RawEvent)}

/-- **What one read makes of what is new**: every sample is written into the event. -/
theorem perfMmapRead_spec (event : RawEvent) (hsync : dev.readHead = dev.buffer.dataHead)
    (hwf : ∀ r ∈ sig.records, r.WellFormed dev.deviceType.sampleType)
    (hfit : (sig.bytes dev.deviceType.sampleType).length ≤ numMmapPages * pageSize)
    (hstep : PerfRecord.InStep dev.deviceType.sampleType sig.records) :
    ∃ buf, perfMmapRead pageSize numMmapPages
        (dev.produce pageSize (sig.bytes dev.deviceType.sampleType)).buffer dev.readHead
        dev.deviceType.sampleType 0 0 event
      = some (buf.dataHead, buf,
          sig.samples.foldl (fun e s => s.fill dev.deviceType.sampleType e) event) := by
  have hholds := holds_linearise (numMmapPages * pageSize) dev.buffer.dataHead dev.buffer.cells hfit
  have hfuel : sig.records.length ≤ (sig.bytes dev.deviceType.sampleType).length :=
    PerfRecord.length_le_length_bytes dev.deviceType.sampleType sig.records
  have hsize : ((dev.buffer.dataHead + (sig.bytes dev.deviceType.sampleType).length : ℕ) : ℤ)
      - dev.buffer.dataHead = (sig.bytes dev.deviceType.sampleType).length := by
    push_cast
    ring
  have hend : ((sig.bytes dev.deviceType.sampleType).length : ℤ)
      = 0 + (sig.records.flatMap (PerfRecord.bytes dev.deviceType.sampleType)).length :=
    (zero_add _).symm
  -- the parser starts at what the kernel has just written
  unfold perfMmapRead
  rw [if_neg (by decide), hsync]
  dsimp only [produce]
  rw [hsize, Int.toNat_natCast, PerfRecord.readRecords_spec dev.deviceType hwf hstep hholds
    hend hfuel, PerfRecord.foldl_fill]
  exact ⟨⟨_, dev.buffer.dataHead + (sig.bytes dev.deviceType.sampleType).length, _⟩, rfl⟩

/-- The handler's event is the one that the samples of the signal were written into. -/
theorem handlePerfEvent_spec (hsync : dev.readHead = dev.buffer.dataHead)
    (hwf : ∀ r ∈ sig.records, r.WellFormed dev.deviceType.sampleType)
    (hfit : (sig.bytes dev.deviceType.sampleType).length ≤ numMmapPages * pageSize)
    (hstep : PerfRecord.InStep dev.deviceType.sampleType sig.records) :
    ∃ event dev', (dev.produce pageSize
        (sig.bytes dev.deviceType.sampleType)).handlePerfEvent pageSize sig.eventId
          = some (event, dev') ∧
      (∀ s, sig.samples = [s] → s.Carries dev.deviceType.sampleType event) ∧
      dev'.deviceType = dev.deviceType ∧ dev'.readHead = dev'.buffer.dataHead := by
  obtain ⟨new, hnew⟩ : ∃ new, new =
      { RawEvent.new with eventId := sig.eventId, deviceFileId := dev.deviceFileId } := ⟨_, rfl⟩
  obtain ⟨buf, hread⟩ := perfMmapRead_spec new hsync hwf hfit hstep
  obtain ⟨event, hevent⟩ : ∃ event, event =
      sig.samples.foldl (fun e s => s.fill dev.deviceType.sampleType e) new := ⟨_, rfl⟩
  rw [← hevent] at hread
  -- the event keeps the key it was given
  have hindex : event.sample_index = 0 := by
    rw [hevent, Sample.sample_index_foldl, hnew]
    rfl
  refine ⟨event, { dev with readHead := buf.dataHead, buffer := buf }, ?_, ?_, rfl, rfl⟩
  · unfold handlePerfEvent
    dsimp only [produce] at hread ⊢
    rw [← hnew, hread]
    dsimp only
    rw [if_neg (not_not_intro hindex)]
  · intro s hs
    rw [hevent, hs, List.foldl_cons, List.foldl_nil]
    exact Sample.fill_carries _ _

/-- **One signal.** The device has read all of its ring, and if the signal has one sample
for each event that is passed on, the events carry the samples. -/
theorem devSignalHandler_spec (hsync : dev.readHead = dev.buffer.dataHead)
    (hwf : ∀ r ∈ sig.records, r.WellFormed dev.deviceType.sampleType)
    (hfit : (sig.bytes dev.deviceType.sampleType).length ≤ numMmapPages * pageSize)
    (hstep : PerfRecord.InStep dev.deviceType.sampleType sig.records)
    (hone : sig.samples.length = sig.passes) :
    ∃ events dev', (dev.produce pageSize
        (sig.bytes dev.deviceType.sampleType)).devSignalHandler pageSize
          sig.requestWillBeNotified sig.eventId = some (events, dev') ∧
      List.Forall₂ (Sample.Carries dev.deviceType.sampleType) sig.samples events ∧
      dev'.deviceType = dev.deviceType ∧ dev'.readHead = dev'.buffer.dataHead := by
  obtain ⟨event, dev', hperf, hcarries, htype, hsync'⟩ :=
    handlePerfEvent_spec hsync hwf hfit hstep
  refine ⟨_, dev', by rw [devSignalHandler, hperf, Option.map_some], ?_, htype, hsync'⟩
  unfold DeviceSignal.passes at hone
  split at hone
  · next hnotified =>
    rw [if_pos hnotified, List.length_eq_zero_iff.mp hone]
    exact List.Forall₂.nil
  · next hnotified =>
    obtain ⟨s, hs⟩ := List.length_eq_one_iff.mp hone
    rw [if_neg hnotified, hs]
    refine List.Forall₂.cons ?_ List.Forall₂.nil
    -- what a breakpoint's event is marked with is none of the sample's fields
    split
    · exact (hcarries s hs).congr rfl rfl rfl rfl rfl rfl
    · exact hcarries s hs

/-! ### Runs -/

/-- When every signal has one sample for each event it passes on, the events carry them. -/
theorem signals_of_one (hsync : dev.readHead = dev.buffer.dataHead)
    (hwf : ∀ sig ∈ sigs, ∀ r ∈ sig.records, r.WellFormed dev.deviceType.sampleType)
    (hfit : ∀ sig ∈ sigs,
      (sig.bytes dev.deviceType.sampleType).length ≤ numMmapPages * pageSize)
    (hone : ∀ sig ∈ sigs, sig.samples.length = sig.passes ∧
      PerfRecord.InStep dev.deviceType.sampleType sig.records) :
    dev.Lawful pageSize sigs := by
  -- over the signals; the device has read all of its ring before each of them
  induction sigs generalizing dev with
  | nil => exact ⟨[], dev, rfl, ⟨List.Forall₂.nil, fun p hp => absurd hp List.not_mem_nil⟩⟩
  | cons sig sigs ih =>
    obtain ⟨hlen, hstep⟩ := hone sig List.mem_cons_self
    obtain ⟨events, dev', hhandler, hcarries, htype, hsync'⟩ := devSignalHandler_spec hsync
      (hwf sig List.mem_cons_self) (hfit sig List.mem_cons_self) hstep hlen
    obtain ⟨passed, dev'', hrun, heach, hquiet⟩ := ih hsync'
      (fun sig hsig => by rw [htype]; exact hwf sig (List.mem_cons_of_mem _ hsig))
      (fun sig hsig => by rw [htype]; exact hfit sig (List.mem_cons_of_mem _ hsig))
      (fun sig hsig => by rw [htype]; exact hone sig (List.mem_cons_of_mem _ hsig))
    rw [htype] at heach
    refine ⟨events :: passed, dev'', ?_, ?_, ?_⟩
    · rw [signals, hhandler]
      dsimp only
      rw [hrun]
    · rw [List.flatMap_cons, List.flatten_cons]
      exact List.rel_append hcarries heach
    · intro p hp hnone
      rw [List.zip_cons_cons] at hp
      rcases List.mem_cons.mp hp with rfl | hp
      · rw [hnone] at hcarries
        exact List.forall₂_nil_left_iff.mp hcarries
      · exact hquiet p hp hnone

/-- At every signal as many events are passed on as the agent's flag says. -/
theorem passed_of_signals (h : dev.signals pageSize sigs = some (passed, dev')) :
    List.Forall₂ (fun sig events => events.length = sig.passes) sigs passed := by
  induction sigs generalizing dev passed with
  | nil =>
    obtain ⟨rfl, -⟩ := Prod.mk.inj (Option.some.inj h)
    exact List.Forall₂.nil
  | cons sig sigs ih =>
    rw [signals] at h
    split at h
    · exact absurd h (Option.some_ne_none _).symm
    · split at h
      · exact absurd h (Option.some_ne_none _).symm
      · rename_i _ _ hhandler _ _ _ hrun
        obtain ⟨rfl, rfl⟩ := Prod.mk.inj (Option.some.inj h)
        refine List.Forall₂.cons ?_ (ih hrun)
        obtain ⟨_, -, hevents⟩ := Option.map_eq_some_iff.mp hhandler
        obtain ⟨rfl, -⟩ := Prod.mk.inj hevents
        unfold DeviceSignal.passes
        split <;> rfl

/-- A signal has a sample for each event it passes on. -/
theorem passed_le_of_quiet
    (h : List.Forall₂ (fun sig events => events.length = sig.passes) sigs passed)
    (hquiet : ∀ p ∈ sigs.zip passed, p.1.samples = [] → p.2 = []) :
    List.Forall₂ (fun sig events => events.length = sig.passes ∧
      events.length ≤ sig.samples.length) sigs passed := by
  induction h with
  | nil => exact List.Forall₂.nil
  | @cons sig events _ _ hevents _ ih =>
    rw [List.zip_cons_cons] at hquiet
    obtain ⟨hfirst, hrest⟩ := List.forall_mem_cons.mp hquiet
    refine List.Forall₂.cons ⟨hevents, ?_⟩ (ih hrest)
    rcases Nat.eq_zero_or_pos sig.samples.length with hnone | hsome
    · have hnil : events = [] := hfirst (List.length_eq_zero_iff.mp hnone)
      rw [hnil]
      exact Nat.zero_le _
    · exact hevents.le.trans (sig.passes_le_one.trans hsome)

theorem length_flatten_passed
    (h : List.Forall₂ (fun sig events => events.length = sig.passes ∧
      events.length ≤ sig.samples.length) sigs passed) :
    passed.flatten.length ≤ (sigs.flatMap DeviceSignal.samples).length := by
  induction h with
  | nil => exact Nat.zero_le _
  | cons hevents _ ih =>
    rw [List.flatten_cons, List.flatMap_cons, List.length_append, List.length_append]
    exact Nat.add_le_add hevents.2 ih

/-- No more events than samples at each signal, and as many in all. -/
theorem length_samples_eq_passes
    (h : List.Forall₂ (fun sig events => events.length = sig.passes ∧
      events.length ≤ sig.samples.length) sigs passed)
    (hlen : (sigs.flatMap DeviceSignal.samples).length ≤ passed.flatten.length) :
    ∀ sig ∈ sigs, sig.samples.length = sig.passes := by
  induction h with
  | nil => exact fun sig hsig => absurd hsig List.not_mem_nil
  | cons hevents hrest ih =>
    obtain ⟨hpasses, hfirst⟩ := hevents
    -- what the first signal has too many the others would have too few
    have hmany := length_flatten_passed hrest
    rw [List.flatMap_cons, List.flatten_cons, List.length_append, List.length_append] at hlen
    exact List.forall_mem_cons.mpr ⟨by omega, ih (by omega)⟩

theorem passes_of_lawful (h : dev.Lawful pageSize sigs) :
    ∀ sig ∈ sigs, sig.samples.length = sig.passes := by
  obtain ⟨passed, dev', hrun, heach, hquiet⟩ := h
  have hpassed := passed_of_signals hrun
  exact length_samples_eq_passes (passed_le_of_quiet hpassed hquiet) heach.length_eq.le

variable {d : DeviceType} {fd : ℤ} {cells : ℕ → UInt8}

/-- **Samples and events of a run.** If every signal has exactly one sample while the agent's
flag is clear and none while it is set, in a stretch of records that the parser keeps in step
with, every sample is passed on in one event; and if every sample is, every signal has that
many. What is written between two signals fits the ring, since the kernel does not overwrite
what has not been read. -/
theorem one_event_per_sample
    (hwf : ∀ sig ∈ sigs, ∀ r ∈ sig.records, r.WellFormed d.sampleType)
    (hfit : ∀ sig ∈ sigs, (sig.bytes d.sampleType).length ≤ numMmapPages * pageSize) :
    ((∀ sig ∈ sigs, sig.samples.length = (if sig.requestWillBeNotified then 0 else 1) ∧
        PerfRecord.InStep d.sampleType sig.records) →
      (opened d fd cells).Lawful pageSize sigs) ∧
    ((opened d fd cells).Lawful pageSize sigs →
      ∀ sig ∈ sigs, sig.samples.length = if sig.requestWillBeNotified then 0 else 1) := by
  constructor
  · intro hone
    have hsync : (opened d fd cells).readHead = (opened d fd cells).buffer.dataHead := rfl
    exact signals_of_one hsync hwf hfit hone
  · intro h
    exact passes_of_lawful h

/-- Among records of the types that are read whole the number of samples decides. -/
theorem lawful_iff_of_readWhole
    (hwf : ∀ sig ∈ sigs, ∀ r ∈ sig.records, r.WellFormed d.sampleType)
    (hfit : ∀ sig ∈ sigs, (sig.bytes d.sampleType).length ≤ numMmapPages * pageSize)
    (htype : ∀ sig ∈ sigs, ∀ r ∈ sig.records, PerfRecord.readWhole r.type = true) :
    (opened d fd cells).Lawful pageSize sigs ↔
      ∀ sig ∈ sigs, sig.samples.length = if sig.requestWillBeNotified then 0 else 1 := by
  constructor
  · intro h
    exact passes_of_lawful h
  · intro hone
    have hsync : (opened d fd cells).readHead = (opened d fd cells).buffer.dataHead := rfl
    refine signals_of_one hsync hwf hfit fun sig hsig => ⟨hone sig hsig, ?_⟩
    exact PerfRecord.inStep_of_readWhole (hwf sig hsig) (htype sig hsig)

/-- Two samples of a thread, and a record of lost ones. -/
def firstSample : Sample where
  ip := 0x401000
  pid := 7
  tid := 8
  time := 100
  addr := 0
  id := 0
  cpu := 1
  res := 0
  period := 5000
  callchain := []

def secondSample : Sample := { firstSample with ip := 0x402000, time := 200 }

def lostRecord : PerfRecord := .other 2 0 (List.replicate 16 0)

theorem wellFormed_firstSample :
    (PerfRecord.sample 2 firstSample).WellFormed DeviceType.ebsDevice.sampleType :=
  ⟨by decide, trivial⟩

theorem wellFormed_secondSample :
    (PerfRecord.sample 2 secondSample).WellFormed DeviceType.ebsDevice.sampleType :=
  ⟨by decide, trivial⟩

theorem wellFormed_lostRecord : lostRecord.WellFormed DeviceType.ebsDevice.sampleType :=
  ⟨by decide, by decide, rfl⟩

/-- Two signals with one sample each, one of them behind a record of lost ones, and one
without a sample while the flag is set. -/
theorem one_event_per_sample_lost :
    (opened .ebsDevice 3 fun _ => 0).Lawful 4096
      [⟨0, false, [.sample 2 firstSample]⟩, ⟨1, false, [lostRecord, .sample 2 secondSample]⟩,
        ⟨2, true, [lostRecord]⟩] := by
  refine (one_event_per_sample ?_ ?_).1 ?_
  · simpa using ⟨wellFormed_firstSample, ⟨wellFormed_lostRecord, wellFormed_secondSample⟩,
      wellFormed_lostRecord⟩
  · decide
  · refine List.forall_mem_cons.mpr ⟨⟨rfl, le_rfl⟩, List.forall_mem_cons.mpr ⟨⟨rfl, ?_⟩, ?_⟩⟩
    · exact ⟨by decide, le_rfl⟩
    · exact List.forall_mem_singleton.mpr ⟨rfl, le_rfl⟩

/-- Two samples at one signal leave one event, and a signal with none leaves one too; while
the flag is set a sample leaves none. -/
theorem not_lawful_grouped :
    (∀ r ∈ [PerfRecord.sample 2 firstSample, .sample 2 secondSample, lostRecord],
      r.WellFormed DeviceType.ebsDevice.sampleType) ∧
    ¬ (opened .ebsDevice 3 fun _ => 0).Lawful 4096
      [⟨0, false, [.sample 2 firstSample, .sample 2 secondSample]⟩] ∧
    ¬ (opened .ebsDevice 3 fun _ => 0).Lawful 4096 [⟨0, false, [lostRecord]⟩] ∧
    ¬ (opened .ebsDevice 3 fun _ => 0).Lawful 4096 [⟨0, true, [.sample 2 firstSample]⟩] := by
  refine ⟨?_, ?_, ?_, ?_⟩
  · simpa using ⟨wellFormed_firstSample, wellFormed_secondSample, wellFormed_lostRecord⟩
  · intro h
    exact absurd (passes_of_lawful h _ List.mem_cons_self) (by decide)
  · intro h
    exact absurd (passes_of_lawful h _ List.mem_cons_self) (by decide)
  · intro h
    exact absurd (passes_of_lawful h _ List.mem_cons_self) (by decide)

end PerfDevice

end Kognizance
