import Kognizance.Platform.SampleEvents

/-!
# The byte stream of a device

The kernel writes into a device's ring while it does not get more than the ring ahead of
`data_tail`. Every `perf_mmap_read` copies the ring out so that the bytes after the previous head
come first, and moves `data_tail` to the head. The ring is taken to be smaller than 2^31
bytes: the parser computes its length as a product of two `int`s, and keeps the number of
new bytes in an `int`.

* `getElem?_linearised`: byte `i` of the copy is the one at position `prev_head + i`.
* `Reader.Run` is a history of the ring, with the bytes written and the parts read.
* `reads_lossless`: the parts read are the bytes written.
-/

namespace Kognizance

/-- What a device keeps of its ring. -/
structure Reader where
  readHead : ℕ
  buffer : PerfBuffer

namespace Reader

variable {pageSize mmapSize : ℕ}

/-- The kernel writes into the ring. -/
def produce (pageSize mmapSize : ℕ) (r : Reader) (bytes : List UInt8) : Reader :=
  { r with buffer := { r.buffer with
      dataHead := r.buffer.dataHead + bytes.length
      cells := Ring.write (mmapSize * pageSize) r.buffer.cells r.buffer.dataHead bytes } }

/-- A `perf_mmap_read` that returns: the part of the copy that is new, and what it leaves. -/
inductive Reads (pageSize mmapSize : ℕ) : Reader → List UInt8 → Reader → Prop
  | mk {r : Reader} {sampleType readFormat regMask head : ℕ} {event event' : RawEvent}
    {buf : PerfBuffer}
    (h : perfMmapRead pageSize mmapSize r.buffer r.readHead sampleType readFormat regMask event =
      some (head, buf, event')) :
    Reads pageSize mmapSize r
      ((linearised pageSize mmapSize r.buffer r.readHead).take (head - r.readHead)) ⟨head, buf⟩

/-- A history from `r` on: the bytes written, the parts read, and the ring now. -/
inductive Run (pageSize mmapSize : ℕ) (r : Reader) : List UInt8 → List (List UInt8) → Reader → Prop
  | start : Run pageSize mmapSize r [] [] r
  | produce {written : List UInt8} {parts : List (List UInt8)} {r' : Reader}
    (run : Run pageSize mmapSize r written parts r') (bytes : List UInt8)
    (room : r'.buffer.dataHead + bytes.length ≤ r'.buffer.dataTail + mmapSize * pageSize) :
    Run pageSize mmapSize r (written ++ bytes) parts (r'.produce pageSize mmapSize bytes)
  | read {written part : List UInt8} {parts : List (List UInt8)} {r' r'' : Reader}
    (run : Run pageSize mmapSize r written parts r') (read : Reads pageSize mmapSize r' part r'') :
    Run pageSize mmapSize r written (parts ++ [part]) r''

/-- The device reads from the tail on, and the ring is not over-full. -/
structure InSync (n : ℕ) (r : Reader) : Prop where
  readHead_eq : r.readHead = r.buffer.dataTail
  le_head : r.buffer.dataTail ≤ r.buffer.dataHead
  head_le : r.buffer.dataHead ≤ r.buffer.dataTail + n

/-- The bytes of the ring that have not been read. -/
def unread (n : ℕ) (r : Reader) : List UInt8 :=
  Ring.contents n r.buffer.cells r.readHead (r.buffer.dataHead - r.readHead)

variable {r r' : Reader} {part written : List UInt8} {parts : List (List UInt8)}

/-- A device's `handle_perf_event` is such a read. -/
theorem reads_of_handlePerfEvent {dev dev' : PerfDevice} {eventId : ℤ} {event : RawEvent}
    (h : dev.handlePerfEvent pageSize eventId = some (event, dev')) :
    Reads pageSize numMmapPages ⟨dev.readHead, dev.buffer⟩
      ((linearised pageSize numMmapPages dev.buffer dev.readHead).take
        (dev'.readHead - dev.readHead)) ⟨dev'.readHead, dev'.buffer⟩ := by
  unfold PerfDevice.handlePerfEvent at h
  dsimp only at h
  split at h
  · cases h
  · next head buf event' hread =>
    obtain ⟨-, rfl⟩ := Prod.mk.inj (Option.some.inj h)
    exact .mk hread

/-- What a read that returns has done. -/
theorem perfMmapRead_returns {buf buf' : PerfBuffer}
    {prevHead sampleType readFormat regMask head : ℕ} {event event' : RawEvent}
    (hsize : 0 < mmapSize)
    (h : perfMmapRead pageSize mmapSize buf prevHead sampleType readFormat regMask event =
      some (head, buf', event')) :
    readRecords (fun o => (linearised pageSize mmapSize buf prevHead).getD o.toNat 0) sampleType
        readFormat regMask (buf.dataHead - prevHead) (buf.dataHead - prevHead : ℤ).toNat
        ⟨0, event⟩ = some event' ∧
      head = buf.dataHead ∧ buf' = { buf with dataTail := buf.dataHead } := by
  -- the read returns nothing but the records' event, and moves the tail to the head
  unfold perfMmapRead at h
  rw [if_neg hsize.ne'] at h
  dsimp only at h
  split at h
  · cases h
  · next event'' hrecords =>
    obtain ⟨rfl, hrest⟩ := Prod.mk.inj (Option.some.inj h)
    obtain ⟨rfl, rfl⟩ := Prod.mk.inj hrest
    exact ⟨hrecords, rfl, rfl⟩

theorem InSync.produce (h : r.InSync (mmapSize * pageSize)) {bytes : List UInt8}
    (room : r.buffer.dataHead + bytes.length ≤ r.buffer.dataTail + mmapSize * pageSize) :
    (r.produce pageSize mmapSize bytes).InSync (mmapSize * pageSize) ∧
      (r.produce pageSize mmapSize bytes).unread (mmapSize * pageSize) =
        r.unread (mmapSize * pageSize) ++ bytes := by
  obtain ⟨hread, hle, hhead⟩ := h
  refine ⟨⟨hread, hle.trans (Nat.le_add_right _ _), room⟩, ?_⟩
  -- the bytes go in behind those that are unread
  have hpos : r.buffer.dataHead = r.readHead + (r.buffer.dataHead - r.readHead) := by omega
  have hcells : Ring.write (mmapSize * pageSize) r.buffer.cells r.buffer.dataHead bytes =
      Ring.write (mmapSize * pageSize) r.buffer.cells
        (r.readHead + (r.buffer.dataHead - r.readHead)) bytes := by
    rw [← hpos]
  have hlen : r.buffer.dataHead + bytes.length - r.readHead =
      r.buffer.dataHead - r.readHead + bytes.length := by omega
  unfold unread Reader.produce
  dsimp only
  rw [hlen, hcells]
  exact Ring.contents_write (by omega)

/-- **A read gives what has not been read**, and leaves nothing. -/
theorem InSync.read (h : r.InSync (mmapSize * pageSize)) (hsize : 0 < mmapSize * pageSize)
    (hreads : Reads pageSize mmapSize r part r') :
    r'.InSync (mmapSize * pageSize) ∧ part = r.unread (mmapSize * pageSize) ∧
      r'.unread (mmapSize * pageSize) = [] := by
  obtain ⟨hreads⟩ := hreads
  obtain ⟨-, rfl, rfl⟩ := perfMmapRead_returns (Nat.pos_of_mul_pos_right hsize) hreads
  refine ⟨⟨rfl, le_rfl, Nat.le_add_right _ _⟩, ?_, ?_⟩
  · have hfit : r.buffer.dataHead - r.readHead ≤ mmapSize * pageSize := by
      have hhead := h.head_le
      rw [← h.readHead_eq] at hhead
      omega
    exact Ring.take_linearise hsize hfit
  · unfold unread
    rw [Nat.sub_self]
    rfl

/-- What the histories keep: what was unread and what was written is what was read and what is
unread now. -/
theorem Run.conserves (hsync : r.InSync (mmapSize * pageSize)) (hsize : 0 < mmapSize * pageSize)
    (hrun : Run pageSize mmapSize r written parts r') :
    r'.InSync (mmapSize * pageSize) ∧
      r.unread (mmapSize * pageSize) ++ written =
        parts.flatten ++ r'.unread (mmapSize * pageSize) := by
  -- over the history, at its last step
  induction hrun with
  | start => exact ⟨hsync, List.append_nil _⟩
  -- what is written comes at the end of what is unread
  | produce run bytes room ih =>
    obtain ⟨hsync', heq⟩ := ih
    obtain ⟨hsync'', hunread⟩ := hsync'.produce room
    rw [hunread, ← List.append_assoc, heq, List.append_assoc]
    exact ⟨hsync'', rfl⟩
  -- a read takes all that is unread
  | read run hreads ih =>
    obtain ⟨hsync', heq⟩ := ih
    obtain ⟨hsync'', hpart, hnil⟩ := hsync'.read hsize hreads
    rw [heq, hnil, hpart, List.flatten_append, List.append_nil]
    exact ⟨hsync'', by simp⟩

/-- **The linearised copy.** -/
theorem getElem?_linearised (hsize : 0 < mmapSize * pageSize) {buf : PerfBuffer} {prevHead i : ℕ}
    (hfit : buf.dataHead - prevHead ≤ mmapSize * pageSize) (hi : i < buf.dataHead - prevHead) :
    (linearised pageSize mmapSize buf prevHead)[i]? =
      some (buf.cells ((prevHead + i) % (mmapSize * pageSize))) := by
  unfold linearised
  rw [Ring.getElem?_linearise (Nat.mod_lt _ hsize) (by omega), Nat.mod_add_mod]

/-- **Nothing is lost**: at every read of a history, the copy starts with the new bytes of the
ring, and the parts read until then are the bytes written, in order. -/
theorem reads_lossless (hsize : 0 < mmapSize * pageSize) (hsync : r.InSync (mmapSize * pageSize))
    (hrun : Run pageSize mmapSize r written parts r') {r'' : Reader}
    (hread : Reads pageSize mmapSize r' part r'') :
    (∀ i < r'.buffer.dataHead - r'.readHead,
      (linearised pageSize mmapSize r'.buffer r'.readHead)[i]? =
        some (r'.buffer.cells ((r'.readHead + i) % (mmapSize * pageSize)))) ∧
      part = (linearised pageSize mmapSize r'.buffer r'.readHead).take
        (r'.buffer.dataHead - r'.readHead) ∧
      (parts ++ [part]).flatten = r.unread (mmapSize * pageSize) ++ written := by
  -- the ring is in step with the reader at every point of the history
  obtain ⟨hsync', -⟩ := hrun.conserves hsync hsize
  have hfit : r'.buffer.dataHead - r'.readHead ≤ mmapSize * pageSize := by
    have hhead := hsync'.head_le
    rw [← hsync'.readHead_eq] at hhead
    omega
  obtain ⟨-, hpart, hnil⟩ := hsync'.read hsize hread
  refine ⟨fun i hi => getElem?_linearised hsize hfit hi, ?_, ?_⟩
  · exact hpart.trans (Ring.take_linearise hsize hfit).symm
  · -- the read is one more step of the history, and leaves nothing unread
    obtain ⟨-, heq⟩ := (hrun.read hread).conserves hsync hsize
    rw [heq, hnil, List.append_nil]

/-- A record of a type the parser does not know. -/
def unknownRecord (type : UInt8) : List UInt8 := [type, 0, 0, 0, 0, 0, 8, 0]

/-- A ring of 12 bytes that has just been mapped. -/
def smallRing : Reader := ⟨0, ⟨0, 0, fun _ => 0⟩⟩

/-- The ring with one record in it. -/
def firstWritten : Reader := smallRing.produce 4 3 (unknownRecord 20)

/-- The ring after that record has been read. -/
def firstRead : Reader := ⟨8, { firstWritten.buffer with dataTail := 8 }⟩

/-- Two records, each read on its own; the second one is written around the end of the ring. -/
theorem reads_lossless_twoRecords :
    ∃ part part' r'', Reads 4 3 firstWritten part firstRead ∧
      Reads 4 3 (firstRead.produce 4 3 (unknownRecord 21)) part' r'' ∧
      [part, part'].flatten = unknownRecord 20 ++ unknownRecord 21 := by
  have first : Run 4 3 smallRing (unknownRecord 20) [] firstWritten := .produce .start _ (by decide)
  have read : Reads 4 3 firstWritten _ firstRead :=
    .mk (show perfMmapRead 4 3 _ _ 0 0 0 RawEvent.new = some (_, _, _) from rfl)
  have second := (first.read read).produce (unknownRecord 21) (by decide)
  have read' : Reads 4 3 (firstRead.produce 4 3 (unknownRecord 21)) _ _ :=
    .mk (show perfMmapRead 4 3 _ _ 0 0 0 RawEvent.new = some (_, _, _) from rfl)
  exact ⟨_, _, _, read, read',
    (reads_lossless (by decide) ⟨rfl, le_rfl, by decide⟩ second read').2.2⟩

end Reader

end Kognizance
