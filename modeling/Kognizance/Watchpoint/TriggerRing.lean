import Mathlib.Data.UInt
import Kognizance.Lib.Ring
import Kognizance.Lib.Run

/-!
# The ring buffer of a watchpoint

`watchpoint_mmap.cpp`: the kernel writes records into the pages behind the control page of a
watchpoint's buffer, `ReadMmapBuffer` takes bytes off it and `ConsumeAllRingBufferData` all of
them. `data_head` and `data_tail` are free-running counters of 64 bits.

* `unread` is the queue a buffer stands for, and `Queue.step` what a queue does.
* `readMmapBuffer_spec`, `produce_unread` and `consume_unread`: one operation is one of the queue.
* `ring_is_fifo`: so is a run.
-/

namespace Kognizance

open Process

/-- The counters of a `perf_event_mmap_page`, and the payload behind it. -/
structure MmapPage where
  data_head : UInt64
  data_tail : UInt64
  data : ℕ → UInt8

/-- What `memcpy` copies from `offset` on. -/
def copyOut (data : ℕ → UInt8) (offset len : UInt64) : List UInt8 :=
  (List.range len.toNat).map fun i => data (offset.toNat + i)

/-- `ReadMmapBuffer`: the bytes copied to `buf`, or none when it returns -1. -/
def readMmapBuffer (pgsz : UInt64) (hdr : MmapPage) (sz : UInt64) :
    Option (List UInt8) × MmapPage :=
  let pgmsk := pgsz - 1
  let tail := hdr.data_tail &&& pgmsk
  let avail_sz := hdr.data_head - hdr.data_tail
  if sz > avail_sz then (none, hdr)
  else
    -- `c` is the size to the end of the buffer
    let c := pgmsk + 1 - tail
    let m := if c < sz then c else sz
    let leftover := if sz > m then copyOut hdr.data 0 (sz - m) else []
    (some (copyOut hdr.data tail m ++ leftover), { hdr with data_tail := hdr.data_tail + sz })

/-- `ConsumeAllRingBufferData` -/
def consumeAllRingBufferData (hdr : MmapPage) : MmapPage := { hdr with data_tail := hdr.data_head }

/-- The kernel writes bytes behind the head. -/
def MmapPage.produce (pgsz : UInt64) (hdr : MmapPage) (bytes : List UInt8) : MmapPage :=
  { hdr with
    data_head := hdr.data_head + UInt64.ofNat bytes.length
    data := Ring.write pgsz.toNat hdr.data hdr.data_head.toNat bytes }

/-- An operation on the buffer. -/
inductive RingOp
  | read (sz : UInt64)
  | produce (bytes : List UInt8)
  | consume

/-- An operation, with the bytes read. -/
def MmapPage.step (pgsz : UInt64) (hdr : MmapPage) : RingOp → Outcome MmapPage (Option (List UInt8))
  | .read sz => .running (readMmapBuffer pgsz hdr sz).1 (readMmapBuffer pgsz hdr sz).2
  | .produce bytes => .running (some []) (hdr.produce pgsz bytes)
  | .consume => .running (some []) (consumeAllRingBufferData hdr)

/-- The kernel does not write over bytes that are unread. -/
def MmapPage.RespectsTail (pgsz : UInt64) (hdr : MmapPage) : RingOp → Prop
  | .produce bytes => (hdr.data_head - hdr.data_tail).toNat + bytes.length ≤ pgsz.toNat
  | _ => True

/-! ### The queue -/

/-- The operations on a queue of bytes. -/
def Queue.step (q : List UInt8) : RingOp → Outcome (List UInt8) (Option (List UInt8))
  | .read sz =>
    if sz.toNat ≤ q.length then .running (some (q.take sz.toNat)) (q.drop sz.toNat)
    else .running none q
  | .produce bytes => .running (some []) (q ++ bytes)
  | .consume => .running (some []) []

/-- The unread bytes of a buffer, in the order they were written in. -/
def MmapPage.unread (pgsz : UInt64) (hdr : MmapPage) : List UInt8 :=
  Ring.contents pgsz.toNat hdr.data hdr.data_tail.toNat (hdr.data_head - hdr.data_tail).toNat

/-- A page size: a power of two. -/
def IsPageSize (pgsz : UInt64) : Prop := ∃ k, pgsz.toNat = 2 ^ k

/-! ### One operation -/

variable {pgsz : UInt64} {hdr : MmapPage}

theorem IsPageSize.pos (h : IsPageSize pgsz) : 0 < pgsz.toNat := by
  obtain ⟨k, hk⟩ := h
  exact hk ▸ Nat.two_pow_pos k

/-- The counters wrap around at a multiple of the page size. -/
theorem IsPageSize.dvd (h : IsPageSize pgsz) : pgsz.toNat ∣ 2 ^ 64 := by
  obtain ⟨k, hk⟩ := h
  have hlt := pgsz.toNat_lt
  rw [hk] at hlt ⊢
  exact Nat.pow_dvd_pow 2 ((Nat.pow_lt_pow_iff_right (by decide)).mp hlt).le

/-- The masked tail is the position in the payload. -/
theorem IsPageSize.toNat_and (h : IsPageSize pgsz) (a : UInt64) :
    (a &&& (pgsz - 1)).toNat = a.toNat % pgsz.toNat := by
  have hpos := h.pos
  obtain ⟨k, hk⟩ := h
  have hmask : (pgsz - 1).toNat = pgsz.toNat - 1 :=
    UInt64.toNat_sub_of_le _ _ (UInt64.le_iff_toNat_le.mpr hpos)
  rw [UInt64.toNat_and, hmask, hk, Nat.and_two_pow_sub_one_eq_mod]

@[simp] theorem length_unread :
    (hdr.unread pgsz).length = (hdr.data_head - hdr.data_tail).toNat := Ring.length_contents

/-- `m`, the smaller one of two sizes. -/
theorem toNat_smaller (c sz : UInt64) :
    (if c < sz then c else sz).toNat = min c.toNat sz.toNat := by
  by_cases h : c < sz
  · rw [if_pos h, Nat.min_eq_left (UInt64.lt_iff_toNat_lt.mp h).le]
  · rw [if_neg h, Nat.min_eq_right (UInt64.le_iff_toNat_le.mp (UInt64.not_lt.mp h))]

/-- What is copied from the start of the payload; it is nothing if `m` was enough. -/
theorem leftover_eq (data : ℕ → UInt8) {sz m : UInt64} (h : m.toNat ≤ sz.toNat) :
    (if sz > m then copyOut data 0 (sz - m) else []) =
      (List.range (sz.toNat - m.toNat)).map data := by
  by_cases hlt : sz > m
  · rw [if_pos hlt, copyOut, UInt64.toNat_sub_of_le _ _ (UInt64.le_iff_toNat_le.mpr h)]
    exact List.map_congr_left fun i _ => congrArg data (Nat.zero_add i)
  · have heq : sz.toNat - m.toNat = 0 :=
      Nat.sub_eq_zero_of_le (UInt64.le_iff_toNat_le.mp (UInt64.not_lt.mp hlt))
    rw [if_neg hlt, heq]
    rfl

/-- **One call of `ReadMmapBuffer`**: the next bytes, or nothing at all. -/
theorem readMmapBuffer_spec (hp : IsPageSize pgsz)
    (hfit : hdr.data_head - hdr.data_tail ≤ pgsz) (sz : UInt64) :
    readMmapBuffer pgsz hdr sz =
      if sz.toNat ≤ (hdr.unread pgsz).length then
        (some ((hdr.unread pgsz).take sz.toNat), { hdr with data_tail := hdr.data_tail + sz })
      else (none, hdr) := by
  have hfit' := UInt64.le_iff_toNat_le.mp hfit
  rw [length_unread]
  by_cases hsz : sz.toNat ≤ (hdr.data_head - hdr.data_tail).toNat
  · -- the bytes are there, so they are copied, in one piece or in two
    have havail : ¬ sz > hdr.data_head - hdr.data_tail :=
      UInt64.not_lt.mpr (UInt64.le_iff_toNat_le.mpr hsz)
    have htail := hp.toNat_and hdr.data_tail
    have hmod := Nat.mod_lt hdr.data_tail.toNat hp.pos
    have hc : (pgsz - 1 + 1 - (hdr.data_tail &&& (pgsz - 1))).toNat =
        pgsz.toNat - hdr.data_tail.toNat % pgsz.toNat := by
      rw [UInt64.sub_add_cancel, UInt64.toNat_sub_of_le _ _
        (UInt64.le_iff_toNat_le.mpr (by omega)), htail]
    have hm := toNat_smaller (pgsz - 1 + 1 - (hdr.data_tail &&& (pgsz - 1))) sz
    rw [hc] at hm
    have hcopy : _ = Ring.contents pgsz.toNat hdr.data hdr.data_tail.toNat sz.toNat :=
      Ring.copy_contents hp.pos (hsz.trans hfit')
    unfold readMmapBuffer
    rw [if_neg havail, if_pos hsz]
    dsimp only
    rw [leftover_eq hdr.data (hm ▸ Nat.min_le_right _ _), copyOut, htail, hm, hcopy,
      MmapPage.unread, Ring.take_contents hsz]
  · -- too few bytes are there, and nothing is read
    have havail : sz > hdr.data_head - hdr.data_tail :=
      UInt64.lt_iff_toNat_lt.mpr (Nat.lt_of_not_le hsz)
    unfold readMmapBuffer
    rw [if_pos havail, if_neg hsz]

/-- What is left after `sz` bytes have been read. -/
theorem unread_advance (hp : IsPageSize pgsz) {sz : UInt64}
    (hsz : sz.toNat ≤ (hdr.unread pgsz).length) :
    ({ hdr with data_tail := hdr.data_tail + sz } : MmapPage).unread pgsz =
      (hdr.unread pgsz).drop sz.toNat := by
  rw [length_unread] at hsz
  have hleft : (hdr.data_head - (hdr.data_tail + sz)).toNat =
      (hdr.data_head - hdr.data_tail).toNat - sz.toNat := by
    have htail := hdr.data_tail.toNat_lt
    have hhead := hdr.data_head.toNat_lt
    rw [UInt64.toNat_sub, UInt64.toNat_add]
    rw [UInt64.toNat_sub] at hsz ⊢
    omega
  unfold MmapPage.unread
  rw [Ring.drop_contents, hleft, UInt64.toNat_add, Ring.contents_mod hp.dvd]

/-- What the kernel writes is behind what is unread. -/
theorem produce_unread (hp : IsPageSize pgsz) {bytes : List UInt8}
    (hroom : (hdr.data_head - hdr.data_tail).toNat + bytes.length ≤ pgsz.toNat) :
    (hdr.produce pgsz bytes).unread pgsz = hdr.unread pgsz ++ bytes := by
  have hlt := pgsz.toNat_lt
  have hbytes : (UInt64.ofNat bytes.length).toNat = bytes.length :=
    UInt64.toNat_ofNat_of_lt' (show bytes.length < 2 ^ 64 by omega)
  -- the room keeps the head from lapping the tail, so the difference does not wrap
  have hlen : (hdr.data_head + UInt64.ofNat bytes.length - hdr.data_tail).toNat =
      (hdr.data_head - hdr.data_tail).toNat + bytes.length := by
    rw [UInt64.toNat_sub] at hroom
    rw [UInt64.toNat_sub, UInt64.toNat_sub, UInt64.toNat_add, hbytes]
    omega
  -- the page size divides 2^64, so the wrapped counter still names the same place
  have hhead : hdr.data_head.toNat ≡
      hdr.data_tail.toNat + (hdr.data_head - hdr.data_tail).toNat [MOD pgsz.toNat] := by
    have hsum : hdr.data_head = hdr.data_tail + (hdr.data_head - hdr.data_tail) := by
      rw [UInt64.add_comm, UInt64.sub_add_cancel]
    have hnat := congrArg UInt64.toNat hsum
    rw [UInt64.toNat_add] at hnat
    rw [hnat]
    exact (Nat.mod_modEq _ _).of_dvd hp.dvd
  unfold MmapPage.unread MmapPage.produce
  rw [hlen, Ring.write_congr hhead, Ring.contents_write hroom]

theorem consume_unread : (consumeAllRingBufferData hdr).unread pgsz = [] := by
  unfold MmapPage.unread consumeAllRingBufferData
  rw [UInt64.sub_self]
  rfl

/-! ### A run -/

/-- What an operation is in terms of the unread bytes. -/
def MmapPage.FifoStep (pgsz : UInt64) (hdr : MmapPage) : RingOp → Prop
  | .read sz =>
    if sz.toNat ≤ (hdr.unread pgsz).length then
      readMmapBuffer pgsz hdr sz =
          (some ((hdr.unread pgsz).take sz.toNat), { hdr with data_tail := hdr.data_tail + sz }) ∧
        (readMmapBuffer pgsz hdr sz).2.unread pgsz = (hdr.unread pgsz).drop sz.toNat
    else readMmapBuffer pgsz hdr sz = (none, hdr)
  | .produce bytes => (hdr.produce pgsz bytes).unread pgsz = hdr.unread pgsz ++ bytes
  | .consume => (consumeAllRingBufferData hdr).unread pgsz = []

/-- The buffer is not over-full. -/
def MmapPage.Fits (pgsz : UInt64) (hdr : MmapPage) : Prop :=
  hdr.data_head - hdr.data_tail ≤ pgsz

theorem fifoStep_of_fits (hp : IsPageSize pgsz) (hfit : hdr.Fits pgsz) {op : RingOp}
    (hop : hdr.RespectsTail pgsz op) : hdr.FifoStep pgsz op := by
  cases op with
  | read sz =>
    have hspec := readMmapBuffer_spec hp hfit sz
    rw [MmapPage.FifoStep]
    by_cases hsz : sz.toNat ≤ (hdr.unread pgsz).length
    · rw [if_pos hsz] at hspec ⊢
      rw [hspec]
      exact ⟨rfl, unread_advance hp hsz⟩
    · rwa [if_neg hsz] at hspec ⊢
  | produce bytes => exact produce_unread hp hop
  | consume => exact consume_unread

/-- One operation is the one of the queue, and the buffer does not get over-full. -/
theorem step_queue (hp : IsPageSize pgsz) (hfit : hdr.Fits pgsz) {op : RingOp}
    (hop : hdr.RespectsTail pgsz op) :
    ∃ bytes hdr', hdr.step pgsz op = .running bytes hdr' ∧
      Queue.step (hdr.unread pgsz) op = .running bytes (hdr'.unread pgsz) ∧ hdr'.Fits pgsz := by
  have hfit' := UInt64.le_iff_toNat_le.mp hfit
  -- what a step does to the unread bytes is what the queue does to its own
  have hfifo := fifoStep_of_fits hp hfit hop
  have hlen : ∀ hdr' : MmapPage, (hdr'.unread pgsz).length ≤ pgsz.toNat → hdr'.Fits pgsz :=
    fun hdr' h => UInt64.le_iff_toNat_le.mpr
      ((length_unread ▸ h : (hdr'.data_head - hdr'.data_tail).toNat ≤ _))
  cases op with
  | read sz =>
    rw [MmapPage.FifoStep] at hfifo
    refine ⟨_, _, rfl, ?_⟩
    rw [Queue.step]
    by_cases hsz : sz.toNat ≤ (hdr.unread pgsz).length
    · rw [if_pos hsz] at hfifo ⊢
      rw [hfifo.2, hfifo.1]
      refine ⟨rfl, hlen _ ?_⟩
      rw [unread_advance hp hsz, List.length_drop, length_unread]
      omega
    · rw [if_neg hsz] at hfifo ⊢
      rw [hfifo]
      exact ⟨rfl, hfit⟩
  -- the kernel respects the tail, so the buffer holds what it writes
  | produce bytes =>
    refine ⟨_, _, rfl, ?_, hlen _ ?_⟩
    · rw [produce_unread hp hop]
      rfl
    · rw [produce_unread hp hop, List.length_append, length_unread]
      exact hop
  | consume =>
    refine ⟨_, _, rfl, ?_, hlen _ ?_⟩
    · rw [consume_unread]
      rfl
    · rw [consume_unread]
      exact Nat.zero_le _

/-- **The buffer is a FIFO queue**: at each operation of a run, and over the whole run. -/
theorem ring_is_fifo (hp : IsPageSize pgsz) (hfit : hdr.data_head - hdr.data_tail ≤ pgsz)
    {ops : List RingOp} (hrun : Along (MmapPage.step pgsz) (MmapPage.RespectsTail pgsz) hdr ops) :
    Along (MmapPage.step pgsz) (MmapPage.FifoStep pgsz) hdr ops ∧
      values (MmapPage.step pgsz) hdr ops = values Queue.step (hdr.unread pgsz) ops ∧
      (exec (MmapPage.step pgsz) hdr ops).state.unread pgsz =
        (exec Queue.step (hdr.unread pgsz) ops).state := by
  -- the invariant: at most a page is unread
  have hfits : ∀ s i a s', MmapPage.Fits pgsz s → s.RespectsTail pgsz i →
      s.step pgsz i = .running a s' → s'.Fits pgsz := by
    intro s i a s' hs hi hstep
    obtain ⟨b, t, ht, -, hfit'⟩ := step_queue hp hs hi
    obtain ⟨-, rfl⟩ := Outcome.running.inj (hstep.symm.trans ht)
    exact hfit'
  refine ⟨hrun.of_invariant hfits (fun s i hs hi => fifoStep_of_fits hp hs hi) hfit, ?_⟩
  -- the page and the queue go in step, with the unread bytes as the queue
  have hstep : ∀ (s : MmapPage) (q : List UInt8) i, s.Fits pgsz ∧ s.unread pgsz = q →
      s.RespectsTail pgsz i → ∃ bytes s' q', s.step pgsz i = .running bytes s' ∧
        Queue.step q i = .running bytes q' ∧ s'.Fits pgsz ∧ s'.unread pgsz = q' := by
    rintro s q i ⟨hs, rfl⟩ hi
    obtain ⟨bytes, s', hrunning, hqueue, hfit'⟩ := step_queue hp hs hi
    exact ⟨bytes, s', _, hrunning, hqueue, hfit', rfl⟩
  obtain ⟨hvalues, -, hunread⟩ :=
    lockstep_along (R := fun s q => s.Fits pgsz ∧ s.unread pgsz = q) hstep ⟨hfit, rfl⟩ hrun
  exact ⟨hvalues, hunread⟩

/-- A new buffer. -/
def emptyPage : MmapPage := ⟨0, 0, fun _ => 0⟩

/-- A buffer of four bytes is read in part, filled up and read once around. -/
def wrapping : List RingOp :=
  [.produce [1, 2, 3], .read 2, .produce [4, 5, 6], .read 4, .read 1, .consume]

theorem wrapping_respects :
    Along (MmapPage.step 4) (MmapPage.RespectsTail 4) emptyPage wrapping := by
  refine .cons ?_ rfl (.cons trivial rfl (.cons ?_ rfl (.cons trivial rfl (.cons trivial rfl
    (.cons trivial rfl trivial)))))
  · show (emptyPage.data_head - emptyPage.data_tail).toNat + 3 ≤ 4
    decide
  · show (3 - 2 : UInt64).toNat + 3 ≤ 4
    decide

theorem ring_is_fifo_wrapping :
    values (MmapPage.step 4) emptyPage wrapping =
      [some [], some [1, 2], some [], some [3, 4, 5, 6], none, some []] :=
  (ring_is_fifo ⟨2, rfl⟩ (by decide) wrapping_respects).2.1.trans (by decide)

end Kognizance
