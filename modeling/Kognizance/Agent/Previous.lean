import Mathlib.Data.UInt
import Mathlib.Data.Nat.Notation
import Kognizance.Lib.Sweep

/-!
# The previous instruction

A breakpoint fires after the instruction that made the access, so the tool looks for the
instruction before. Both agents decode from the start of the function on, one instruction after
the other and one byte on where XED fails, until an instruction ends at `ins`. The native agent
decodes the code in place; the KVM agent decodes a copy of the bytes before `ins`.

XED is an oracle that answers with an error or with an instruction, of which only the length
matters here. `*pip` is also what the functions return.

* `NativeAgent.previousLoop_eq`, `KvmAgent.previousLoop_eq`: both loops are searches of a sweep.
-/

namespace Kognizance

/-- `MAX_BYTES_TO_DECODE` -/
abbrev maxBytesToDecode : ℕ := 15

namespace NativeAgent

/-- The loop of `get_previous_instruction__decoder`; there is no result when `fuel` runs out. -/
def previousLoop (xed_decode : UInt64 → Option ℕ) (ins : UInt64) : ℕ → UInt64 → Option UInt64
  | 0, _ => none
  | fuel + 1, pins =>
    if pins ≤ ins then
      match xed_decode pins with
      | none => previousLoop xed_decode ins fuel (pins + 1)
      | some len =>
        if pins + UInt64.ofNat len = ins then some pins
        else previousLoop xed_decode ins fuel (pins + UInt64.ofNat len)
    else some 0

/-- `get_previous_instruction__decoder`: `*pip`. -/
def getPreviousInstruction (xed_decode : UInt64 → Option ℕ) (getStartAddress : UInt64 → UInt64)
    (fuel : ℕ) (ins : UInt64) (excludeList : List UInt64) (numExcludes : ℕ) : Option UInt64 :=
  let fn_start := getStartAddress ins
  if fn_start = -1 then some 0
  -- addresses that are being monitored cannot be touched
  else if (excludeList.take numExcludes).any fun e => fn_start ≤ e ∧ e < ins then some 0
  else previousLoop xed_decode ins fuel fn_start

end NativeAgent

/-! ### The sweep -/

/-- Where the sweep goes on: past the instruction, or one byte on. -/
def sweepNext (xed_decode : UInt64 → Option ℕ) (x : ℕ) : ℕ :=
  x + (xed_decode (UInt64.ofNat x)).getD 1

/-- The instruction at `x` ends at `ins`. -/
def EndsAt (xed_decode : UInt64 → Option ℕ) (ins : UInt64) (x : ℕ) : Prop :=
  ∃ len, xed_decode (UInt64.ofNat x) = some len ∧ x + len = ins.toNat

instance (xed_decode : UInt64 → Option ℕ) (ins : UInt64) (x : ℕ) :
    Decidable (EndsAt xed_decode ins x) :=
  match h : xed_decode (UInt64.ofNat x) with
  | none => isFalse fun ⟨_, hlen, _⟩ => by rw [h] at hlen; cases hlen
  | some len => decidable_of_iff (x + len = ins.toNat)
    ⟨fun hend => ⟨len, h, hend⟩, fun ⟨len', hlen, hend⟩ => by
      rw [h] at hlen; cases hlen; exact hend⟩

/-- An instruction has up to 15 bytes, and one at least. -/
def LengthsOk (xed_decode : UInt64 → Option ℕ) : Prop :=
  ∀ a len, xed_decode a = some len → 1 ≤ len ∧ len ≤ maxBytesToDecode

variable {xed_decode : UInt64 → Option ℕ} {ins : UInt64}

theorem sweepNext_error {x : ℕ} (h : xed_decode (UInt64.ofNat x) = none) :
    sweepNext xed_decode x = x + 1 := by
  unfold sweepNext
  rw [h]
  rfl

theorem sweepNext_some {x len : ℕ} (h : xed_decode (UInt64.ofNat x) = some len) :
    sweepNext xed_decode x = x + len := by
  unfold sweepNext
  rw [h]
  rfl

theorem not_endsAt_error {x : ℕ} (h : xed_decode (UInt64.ofNat x) = none) :
    ¬ EndsAt xed_decode ins x := by
  rintro ⟨len, hlen, -⟩
  rw [h] at hlen
  cases hlen

theorem endsAt_iff {x len : ℕ} (h : xed_decode (UInt64.ofNat x) = some len) :
    EndsAt xed_decode ins x ↔ x + len = ins.toNat := by
  unfold EndsAt
  simp only [h, Option.some.injEq, exists_eq_left']

theorem lt_sweepNext (h : LengthsOk xed_decode) (x : ℕ) : x < sweepNext xed_decode x := by
  cases hx : xed_decode (UInt64.ofNat x) with
  | none => exact sweepNext_error hx ▸ Nat.lt_succ_self x
  | some len => exact sweepNext_some hx ▸ Nat.lt_add_of_pos_right (h _ len hx).1

theorem EndsAt.sweepNext {x : ℕ} (h : EndsAt xed_decode ins x) :
    sweepNext xed_decode x = ins.toNat := by
  obtain ⟨len, hlen, hend⟩ := h
  exact (sweepNext_some hlen).trans hend

/-- The search that `*pip` is the result of. -/
def pipOf (r : Option ℕ) : UInt64 := (r.map UInt64.ofNat).getD 0

/-- Different results are different values, if none is 0. -/
theorem pipOf_inj {r r' : Option ℕ} (hr : ∀ p, r = some p → 0 < p ∧ p < 2 ^ 64)
    (hr' : ∀ p, r' = some p → 0 < p ∧ p < 2 ^ 64) : pipOf r = pipOf r' ↔ r = r' := by
  have hvalue : ∀ {p : ℕ}, p < 2 ^ 64 → (pipOf (some p)).toNat = p :=
    fun hp => UInt64.toNat_ofNat_of_lt' hp
  have hnull : (pipOf none).toNat = 0 := rfl
  -- a null result is 0, and no address of an instruction is
  refine ⟨fun heq => ?_, fun heq => heq ▸ rfl⟩
  have hnat := congrArg UInt64.toNat heq
  cases r with
  | none =>
    cases r' with
    | none => rfl
    | some p' =>
      rw [hnull, hvalue (hr' p' rfl).2] at hnat
      exact absurd hnat (hr' p' rfl).1.ne
  | some p =>
    rw [hvalue (hr p rfl).2] at hnat
    cases r' with
    | none => exact absurd (hnat.trans hnull) (hr p rfl).1.ne'
    | some p' => exact congrArg some (hnat.trans (hvalue (hr' p' rfl).2))

theorem toNat_advance {pins : UInt64} {len : ℕ} (h : pins.toNat + len < 2 ^ 64) :
    (pins + UInt64.ofNat len).toNat = pins.toNat + len := by
  rw [UInt64.toNat_add, UInt64.toNat_ofNat', Nat.add_mod_mod, Nat.mod_eq_of_lt h]

theorem NativeAgent.previousLoop_eq (h : LengthsOk xed_decode)
    (hins : ins.toNat + maxBytesToDecode < 2 ^ 64) (fuel : ℕ) (pins : UInt64) :
    NativeAgent.previousLoop xed_decode ins fuel pins =
      (Sweep.search (sweepNext xed_decode) (ins.toNat + 1)
        (fun x => EndsAt xed_decode ins x) fuel pins.toNat).map pipOf := by
  induction fuel generalizing pins with
  | zero => rfl
  | succ fuel ih =>
    have h15 : ins.toNat + 15 < 2 ^ 64 := hins
    unfold NativeAgent.previousLoop Sweep.search
    by_cases hpins : pins ≤ ins
    · have hle := UInt64.le_iff_toNat_le.mp hpins
      rw [if_pos hpins, if_pos (Nat.lt_succ_of_le hle)]
      cases hlen : xed_decode pins with
      | none =>
        -- after an error the sweep goes on at the next byte
        have hx : xed_decode (UInt64.ofNat pins.toNat) = none := by rw [UInt64.ofNat_toNat, hlen]
        have hone : pins.toNat + 1 < 2 ^ 64 := by omega
        rw [if_neg (by simpa using not_endsAt_error hx), sweepNext_error hx, ← toNat_advance hone]
        exact ih (pins + 1)
      | some len =>
        have hx : xed_decode (UInt64.ofNat pins.toNat) = some len := by
          rw [UInt64.ofNat_toNat, hlen]
        have hlow := (h pins len hlen).2
        have hadd : pins.toNat + len < 2 ^ 64 := by omega
        have hend : EndsAt xed_decode ins pins.toNat ↔ pins + UInt64.ofNat len = ins := by
          rw [endsAt_iff hx, ← UInt64.toNat_inj, toNat_advance hadd]
        simp only [decide_eq_true_eq, hend]
        by_cases hend : pins + UInt64.ofNat len = ins
        · rw [if_pos hend, if_pos hend]
          simp [pipOf]
        · rw [if_neg hend, if_neg hend, sweepNext_some hx, ← toNat_advance hadd]
          exact ih _
    · have hlt := UInt64.le_iff_toNat_le.not.mp hpins
      rw [if_neg hpins, if_neg (by omega)]
      rfl

theorem ne_neg_one_of_le {fn_start : UInt64} (hins : ins.toNat + maxBytesToDecode < 2 ^ 64)
    (hle : fn_start ≤ ins) : fn_start ≠ -1 := by
  rintro rfl
  have hone : (-1 : UInt64).toNat = 2 ^ 64 - 1 := rfl
  have hle' := UInt64.le_iff_toNat_le.mp hle
  have h15 : ins.toNat + 15 < 2 ^ 64 := hins
  omega

/-- **What the native search gives**, with enough fuel. -/
theorem NativeAgent.getPreviousInstruction_spec (h : LengthsOk xed_decode)
    (hins : ins.toNat + maxBytesToDecode < 2 ^ 64) {getStartAddress : UInt64 → UInt64}
    (hle : getStartAddress ins ≤ ins) (excludeList : List UInt64) (numExcludes : ℕ) :
    ∃ r, (∀ fuel, ins.toNat + 1 < fuel → NativeAgent.getPreviousInstruction xed_decode
        getStartAddress fuel ins excludeList numExcludes = some (pipOf r)) ∧
      ∀ p, r = some p ↔
        (∀ e ∈ excludeList.take numExcludes, ¬ (getStartAddress ins ≤ e ∧ e < ins)) ∧
        Sweep.Visited (sweepNext xed_decode) (getStartAddress ins).toNat p ∧
        EndsAt xed_decode ins p := by
  have hstart := ne_neg_one_of_le hins hle
  have hany : (excludeList.take numExcludes).any
      (fun e => decide (getStartAddress ins ≤ e ∧ e < ins)) = true ↔
      ∃ e ∈ excludeList.take numExcludes, getStartAddress ins ≤ e ∧ e < ins := by
    simp only [List.any_eq_true, decide_eq_true_eq]
  unfold NativeAgent.getPreviousInstruction
  simp only [if_neg hstart]
  by_cases hexcluded : ∃ e ∈ excludeList.take numExcludes, getStartAddress ins ≤ e ∧ e < ins
  · -- an excluded address lies in the function, and the search gives up at once
    simp only [if_pos (hany.mpr hexcluded)]
    refine ⟨none, fun _ _ => rfl, fun p => ⟨fun hp => (Option.some_ne_none p hp.symm).elim, ?_⟩⟩
    rintro ⟨hnone, -⟩
    obtain ⟨e, he, hin⟩ := hexcluded
    exact absurd hin (hnone e he)
  · have hnone : ∀ e ∈ excludeList.take numExcludes, ¬ (getStartAddress ins ≤ e ∧ e < ins) :=
      fun e he hin => hexcluded ⟨e, he, hin⟩
    simp only [if_neg (mt hany.mp hexcluded), NativeAgent.previousLoop_eq h hins]
    -- the search stops at the places that end at `ins`, from which the next one is `ins`
    obtain ⟨r, hr, hspec⟩ := Sweep.search_total (lt_sweepNext h) (ins.toNat + 1)
      (getStartAddress ins).toNat fun x hx =>
        EndsAt.sweepNext (of_decide_eq_true (p := EndsAt xed_decode ins x) hx)
    refine ⟨r, fun fuel hfuel => ?_, fun p => (hspec p).trans ?_⟩
    · rw [hr fuel (by omega)]
      rfl
    · rw [and_iff_right hnone, decide_eq_true_eq]
      refine and_congr_right fun _ => and_iff_right_of_imp ?_
      rintro ⟨len, -, hend⟩
      omega

/-! ### The KVM agent -/

/-- What XED is given to decode. -/
abbrev Window : Type := Fin maxBytesToDecode → UInt8

/-- The memory of the guest, and what the hypervisor returns when so many bytes are read at an
address. They have been copied if that is 0. -/
structure GuestMemory where
  bytes : UInt64 → UInt8
  ret : UInt64 → ℕ → ℤ

/-- The window in place. -/
def GuestMemory.window (m : GuestMemory) (a : UInt64) : Window :=
  fun i => m.bytes (a + UInt64.ofNat i)

namespace KvmAgent

/-- A buffer into which `size` bytes have been read at an address: the bytes of the guest, the
zeros of `calloc`, which gives 8 bytes for each of them, and what lies behind on the heap. -/
def hostCopy (m : GuestMemory) (heap : ℕ → UInt8) (a : UInt64) (size i : ℕ) : UInt8 :=
  if i < size then m.bytes (a + UInt64.ofNat i)
  else if i < size * 8 then 0
  else heap i

/-- The loop of `get_previous_instruction__decoder`, with `pins` as an offset. -/
def previousLoop (xed_decode : Window → Option ℕ) (host_fn_start : ℕ → UInt8) (fn_start : UInt64)
    (size : ℕ) : ℕ → ℕ → Option UInt64
  | 0, _ => none
  | fuel + 1, pins =>
    if pins < size then
      match xed_decode fun i => host_fn_start (pins + i) with
      | none => previousLoop xed_decode host_fn_start fn_start size fuel (pins + 1)
      | some len =>
        if pins + len = size then some (fn_start + UInt64.ofNat pins)
        else previousLoop xed_decode host_fn_start fn_start size fuel (pins + len)
    else some 0

/-- `get_previous_instruction__decoder`: `*pip`. There is no buffer of a negative size. -/
def getPreviousInstruction (xed_decode : Window → Option ℕ) (m : GuestMemory) (heap : ℕ → UInt8)
    (getStartAddress : UInt64 → UInt64) (fuel : ℕ) (ins : UInt64) (_excludeList : List UInt64)
    (_numExcludes : ℕ) : Option UInt64 :=
  let fn_start := getStartAddress ins
  if fn_start = -1 ∨ fn_start = ins then some 0
  else
    let size := (ins - fn_start).toUInt32.toInt32.toInt
    if size = 0 then some fn_start
    else if size < 0 then none
    else if m.ret fn_start size.toNat ≠ 0 then some 0
    else previousLoop xed_decode (hostCopy m heap fn_start size.toNat) fn_start size.toNat fuel 0

/-- What XED says about the copy at the place of an address. -/
def decodeCopy (xed_decode : Window → Option ℕ) (m : GuestMemory) (heap : ℕ → UInt8)
    (fn_start ins a : UInt64) : Option ℕ :=
  xed_decode fun i =>
    hostCopy m heap fn_start (ins.toNat - fn_start.toNat) (a.toNat - fn_start.toNat + i)

end KvmAgent

section Kvm

variable {xed : Window → Option ℕ} {m : GuestMemory} {heap : ℕ → UInt8} {fn_start : UInt64}

theorem KvmAgent.previousLoop_eq
    (hins : ins.toNat + maxBytesToDecode < 2 ^ 64) (hle : fn_start ≤ ins) (fuel pins : ℕ) :
    let size := ins.toNat - fn_start.toNat
    KvmAgent.previousLoop xed (KvmAgent.hostCopy m heap fn_start size) fn_start size fuel pins =
      (Sweep.search (sweepNext (KvmAgent.decodeCopy xed m heap fn_start ins)) ins.toNat
        (fun x => EndsAt (KvmAgent.decodeCopy xed m heap fn_start ins) ins x) fuel
        (fn_start.toNat + pins)).map pipOf := by
  intro size
  have hle' := UInt64.le_iff_toNat_le.mp hle
  -- over the rounds; `pins` is the offset in the copy of the place `fn_start + pins`
  induction fuel generalizing pins with
  | zero => rfl
  | succ fuel ih =>
    unfold KvmAgent.previousLoop Sweep.search
    by_cases hpins : pins < size
    · have hx : fn_start.toNat + pins < 2 ^ 64 := by omega
      have hcopy : KvmAgent.decodeCopy xed m heap fn_start ins
          (UInt64.ofNat (fn_start.toNat + pins)) =
          xed fun i => KvmAgent.hostCopy m heap fn_start size (pins + i) := by
        unfold KvmAgent.decodeCopy
        rw [UInt64.toNat_ofNat_of_lt' hx, Nat.add_sub_cancel_left]
      rw [if_pos hpins, if_pos (by omega), ← hcopy]
      cases hlen : KvmAgent.decodeCopy xed m heap fn_start ins
          (UInt64.ofNat (fn_start.toNat + pins)) with
      -- an error is skipped by one byte
      | none =>
        rw [if_neg (by simpa using not_endsAt_error hlen), sweepNext_error hlen]
        exact ih (pins + 1)
      -- the instruction ends at `ins` iff its offset and length make up the size
      | some len =>
        have hend : fn_start.toNat + pins + len = ins.toNat ↔ pins + len = size := by omega
        simp only [decide_eq_true_eq, endsAt_iff hlen, hend]
        by_cases hsize : pins + len = size
        · rw [if_pos hsize, if_pos hsize]
          simp [pipOf, UInt64.ofNat_add]
        · rw [if_neg hsize, if_neg hsize, sweepNext_some hlen, Nat.add_assoc]
          exact ih (pins + len)
    · -- the copy is used up exactly where the sweep comes to `ins`
      rw [if_neg hpins, if_neg (by omega)]
      rfl

theorem toInt_size {a b : UInt64} (hle : b ≤ a) (hsize : a.toNat - b.toNat < 2 ^ 31) :
    (a - b).toUInt32.toInt32.toInt = (a.toNat - b.toNat : ℕ) := by
  have hsub := UInt64.toNat_sub_of_le a b hle
  have hnat : (a - b).toUInt32.toNat = a.toNat - b.toNat := by
    rw [UInt64.toNat_toUInt32, hsub]
    omega
  rw [← hnat]
  refine BitVec.toInt_eq_toNat_of_lt ?_
  change 2 * (a - b).toUInt32.toNat < 2 ^ 32
  omega

/-- **What the KVM search gives**, with enough fuel, if the guest can be read. -/
theorem KvmAgent.getPreviousInstruction_spec {getStartAddress : UInt64 → UInt64}
    (h : LengthsOk (KvmAgent.decodeCopy xed m heap (getStartAddress ins) ins))
    (hins : ins.toNat + maxBytesToDecode < 2 ^ 64) (hle : getStartAddress ins ≤ ins)
    (hsize : ins.toNat - (getStartAddress ins).toNat < 2 ^ 31)
    (hread : m.ret (getStartAddress ins) (ins.toNat - (getStartAddress ins).toNat) = 0)
    (excludeList : List UInt64) (numExcludes : ℕ) :
    ∃ r, (∀ fuel, ins.toNat < fuel → KvmAgent.getPreviousInstruction xed m heap getStartAddress
        fuel ins excludeList numExcludes = some (pipOf r)) ∧
      ∀ p, r = some p ↔
        Sweep.Visited (sweepNext (KvmAgent.decodeCopy xed m heap (getStartAddress ins) ins))
          (getStartAddress ins).toNat p ∧
        p < ins.toNat ∧
        EndsAt (KvmAgent.decodeCopy xed m heap (getStartAddress ins) ins) ins p := by
  have hstart := ne_neg_one_of_le hins hle
  have hle' := UInt64.le_iff_toNat_le.mp hle
  unfold KvmAgent.getPreviousInstruction
  by_cases hsame : getStartAddress ins = ins
  · -- nothing lies before the first instruction
    simp only [if_pos (Or.inr hsame : getStartAddress ins = -1 ∨ getStartAddress ins = ins)]
    refine ⟨none, fun _ _ => rfl, fun p => ⟨fun hp => (Option.some_ne_none p hp.symm).elim, ?_⟩⟩
    rintro ⟨hp, hlt, -⟩
    have hup := hp.le (lt_sweepNext h)
    rw [hsame] at hup
    omega
  · -- the size is positive and fits an `int`, and the guest can be read: the loop runs
    have hne : (getStartAddress ins).toNat ≠ ins.toNat := fun heq =>
      hsame (UInt64.toNat_inj.mp heq)
    have hpos : ((ins.toNat - (getStartAddress ins).toNat : ℕ) : ℤ) ≠ 0 := by omega
    have hneg : ¬ ((ins.toNat - (getStartAddress ins).toNat : ℕ) : ℤ) < 0 := by omega
    simp only [hstart, hsame, or_self, if_false, toInt_size hle hsize, hpos, hneg,
      Int.toNat_natCast, hread, ne_eq, not_true_eq_false, KvmAgent.previousLoop_eq hins hle]
    obtain ⟨r, hr, hspec⟩ := Sweep.search_total (lt_sweepNext h) ins.toNat
      (getStartAddress ins).toNat fun x hx => EndsAt.sweepNext
        (of_decide_eq_true (p := EndsAt (KvmAgent.decodeCopy xed m heap (getStartAddress ins) ins)
          ins x) hx)
    refine ⟨r, fun fuel hfuel => ?_, fun p => (hspec p).trans (by rw [decide_eq_true_eq])⟩
    rw [Nat.add_zero, hr fuel (by omega)]
    rfl

end Kvm

/-! ### The two agents -/

/-- XED finds up to 15 bytes, and one at least, and has looked at no others. -/
structure XedOk (xed : Window → Option ℕ) : Prop where
  lengths : ∀ w len, xed w = some len → 1 ≤ len ∧ len ≤ maxBytesToDecode
  firstBytes : ∀ w w' len, xed w = some len →
    (∀ i : Fin maxBytesToDecode, i.val < len → w i = w' i) → xed w' = some len

/-- The instruction at `x` goes past `ins`. -/
def Straddles (xed_decode : UInt64 → Option ℕ) (ins : UInt64) (x : ℕ) : Prop :=
  ∃ len, xed_decode (UInt64.ofNat x) = some len ∧ ins.toNat < x + len

/-- The sweep from `x` comes to an instruction that ends at `ins`. -/
def Lands (xed_decode : UInt64 → Option ℕ) (ins : UInt64) (x : ℕ) : Prop :=
  ∃ p, Sweep.Visited (sweepNext xed_decode) x p ∧ EndsAt xed_decode ins p

/-- Two decoders find the same instructions of those that end up to `ins`. -/
def AgreeUpTo (d d' : UInt64 → Option ℕ) (ins : UInt64) (s : ℕ) : Prop :=
  ∀ x len, s ≤ x → x + len ≤ ins.toNat →
    (d (UInt64.ofNat x) = some len ↔ d' (UInt64.ofNat x) = some len)

section Agree

variable {d d' : UInt64 → Option ℕ} {s x p : ℕ}

theorem AgreeUpTo.symm (h : AgreeUpTo d d' ins s) : AgreeUpTo d' d ins s :=
  fun x len hx hlen => (h x len hx hlen).symm

theorem AgreeUpTo.endsAt_iff (h : AgreeUpTo d d' ins s) (hx : s ≤ x) :
    EndsAt d ins x ↔ EndsAt d' ins x :=
  exists_congr fun len => and_congr_left fun hend => h x len hx hend.le

/-- Where the sweeps part, the one that goes on below `ins` has met an error, and the other one
an instruction that goes past `ins`. -/
theorem AgreeUpTo.fork (h : AgreeUpTo d d' ins s) (hx : s ≤ x)
    (hne : sweepNext d x ≠ sweepNext d' x) (hbelow : sweepNext d x < ins.toNat) :
    d (UInt64.ofNat x) = none ∧ Straddles d' ins x := by
  cases hd : d (UInt64.ofNat x) with
  | some len =>
    rw [sweepNext_some hd] at hne hbelow
    exact absurd (sweepNext_some ((h x len hx hbelow.le).mp hd)).symm hne
  | none =>
    rw [sweepNext_error hd] at hne
    cases hd' : d' (UInt64.ofNat x) with
    | none => exact absurd (sweepNext_error hd').symm hne
    | some len =>
      refine ⟨rfl, len, hd', not_le.mp fun hle => ?_⟩
      rw [(h x len hx hle).mpr hd'] at hd
      cases hd

theorem Straddles.lt (h : Straddles d ins x) : ins.toNat < sweepNext d x := by
  obtain ⟨len, hlen, hlt⟩ := h
  exact sweepNext_some hlen ▸ hlt

theorem AgreeUpTo.not_both_below (h : AgreeUpTo d d' ins s) (x : ℕ) (hx : s ≤ x)
    (_ : x < ins.toNat) (hne : sweepNext d x ≠ sweepNext d' x) :
    ins.toNat ≤ sweepNext d x ∨ ins.toNat ≤ sweepNext d' x := by
  rcases lt_or_ge (sweepNext d x) ins.toNat with hbelow | hge
  · exact Or.inr (h.fork hx hne hbelow).2.lt.le
  · exact Or.inl hge

theorem EndsAt.lt (h : LengthsOk d) (hp : EndsAt d ins p) : p < ins.toNat :=
  hp.sweepNext ▸ lt_sweepNext h p

/-- **Where two decoders agree up to `ins`, their sweeps land at the same place** iff neither
lands after an error where the other one meets an instruction that goes past `ins`. -/
theorem AgreeUpTo.sameLanding_iff (hd : LengthsOk d) (hd' : LengthsOk d')
    (h : AgreeUpTo d d' ins s) :
    (∀ p, Sweep.Visited (sweepNext d) s p ∧ EndsAt d ins p ↔
        Sweep.Visited (sweepNext d') s p ∧ EndsAt d' ins p) ↔
      ∀ x < ins.toNat, Sweep.Visited (sweepNext d) s x → Sweep.Visited (sweepNext d') s x →
        (d (UInt64.ofNat x) = none → Straddles d' ins x → ¬ Lands d ins (x + 1)) ∧
        (d' (UInt64.ofNat x) = none → Straddles d ins x → ¬ Lands d' ins (x + 1)) := by
  have hup := lt_sweepNext hd
  have hup' := lt_sweepNext hd'
  have hlands : (∀ p, Sweep.Visited (sweepNext d) s p ∧ EndsAt d ins p ↔
      Sweep.Visited (sweepNext d') s p ∧ EndsAt d' ins p) ↔
      ∀ p, s ≤ p ∧ EndsAt d ins p →
        (Sweep.Visited (sweepNext d) s p ↔ Sweep.Visited (sweepNext d') s p) := by
    -- before `ins` the two decoders see the same instructions, so they land alike
    constructor
    · rintro hsame p ⟨hsp, hp⟩
      have hp' := (h.endsAt_iff hsp).mp hp
      exact (and_iff_left hp).symm.trans ((hsame p).trans (and_iff_left hp'))
    · intro hsame p
      constructor
      · rintro ⟨hv, hp⟩
        have hsp := hv.le hup
        exact ⟨(hsame p ⟨hsp, hp⟩).mp hv, (h.endsAt_iff hsp).mp hp⟩
      · rintro ⟨hv, hp⟩
        have hsp := hv.le hup'
        have hp' := (h.endsAt_iff hsp).mpr hp
        exact ⟨(hsame p ⟨hsp, hp'⟩).mpr hv, hp'⟩
  rw [hlands, Sweep.sameLanding_iff hup hup' (fun p hp => hp.2.lt hd) (h.not_both_below)]
  -- the fork of the sweeps at `x` is an error of one and an instruction of the other
  refine forall_congr' fun x => forall_congr' fun hx => forall_congr' fun hv =>
    forall_congr' fun hv' => ?_
  have hsx := hv.le hup
  -- an error is one byte long, so the sweep that meets it goes on at `x + 1`
  constructor
  · intro hnone
    constructor
    · rintro hd0 hstraddles ⟨p, hvp, hp⟩
      have hnext := sweepNext_error hd0
      have hne : sweepNext d x ≠ sweepNext d' x := by
        have hlt := hstraddles.lt
        omega
      have hsp := (hsx.trans (Nat.le_succ x)).trans (hvp.le hup)
      exact (hnone hne p ⟨hsp, hp⟩).1 (hnext ▸ hvp)
    · rintro hd0 hstraddles ⟨p, hvp, hp⟩
      have hnext := sweepNext_error hd0
      have hne : sweepNext d x ≠ sweepNext d' x := by
        have hlt := hstraddles.lt
        omega
      have hsp := (hsx.trans (Nat.le_succ x)).trans (hvp.le hup')
      exact (hnone hne p ⟨hsp, (h.endsAt_iff hsp).mpr hp⟩).2 (hnext ▸ hvp)
  · -- where the sweeps part, one of the decoders is at an error
    rintro ⟨herror, herror'⟩ hne p ⟨hsp, hp⟩
    have hlt := hp.lt hd
    constructor
    · intro hvp
      obtain ⟨hd0, hstraddles⟩ := h.fork hsx hne ((hvp.le hup).trans_lt hlt)
      exact herror hd0 hstraddles ⟨p, sweepNext_error hd0 ▸ hvp, hp⟩
    · intro hvp
      obtain ⟨hd0, hstraddles⟩ := h.symm.fork hsx hne.symm ((hvp.le hup').trans_lt hlt)
      exact herror' hd0 hstraddles ⟨p, sweepNext_error hd0 ▸ hvp, (h.endsAt_iff hsp).mp hp⟩

end Agree

section InPlaceAndCopy

variable {xed : Window → Option ℕ} {m : GuestMemory} {heap : ℕ → UInt8} {fn_start : UInt64}

/-- What XED says about the code in place. -/
def decodeInPlace (xed : Window → Option ℕ) (m : GuestMemory) (a : UInt64) : Option ℕ :=
  xed (m.window a)

/-- The bytes before `ins` are the same in place and in the copy. -/
theorem window_eq_copy {x i : ℕ} (hx : fn_start.toNat ≤ x) (hi : x + i < ins.toNat) :
    m.bytes (UInt64.ofNat x + UInt64.ofNat i) =
      KvmAgent.hostCopy m heap fn_start (ins.toNat - fn_start.toNat)
        (x - fn_start.toNat + i) := by
  have haddr : UInt64.ofNat x + UInt64.ofNat i =
      fn_start + UInt64.ofNat (x - fn_start.toNat + i) := by
    have hsum : fn_start.toNat + (x - fn_start.toNat + i) = x + i := by omega
    calc UInt64.ofNat x + UInt64.ofNat i = UInt64.ofNat (x + i) := (UInt64.ofNat_add x i).symm
      _ = UInt64.ofNat fn_start.toNat + UInt64.ofNat (x - fn_start.toNat + i) := by
        rw [← hsum, UInt64.ofNat_add]
      _ = fn_start + UInt64.ofNat (x - fn_start.toNat + i) := by rw [UInt64.ofNat_toNat]
  unfold KvmAgent.hostCopy
  rw [haddr, if_pos (by omega)]

theorem agreeUpTo_copy (h : XedOk xed) :
    AgreeUpTo (decodeInPlace xed m) (KvmAgent.decodeCopy xed m heap fn_start ins) ins
      fn_start.toNat := by
  intro x len hx hend
  have hx64 : (UInt64.ofNat x).toNat = x :=
    UInt64.toNat_ofNat_of_lt' ((Nat.le_of_add_right_le hend).trans_lt ins.toNat_lt)
  have hsame : ∀ i : Fin maxBytesToDecode, i.val < len →
      m.window (UInt64.ofNat x) i = KvmAgent.hostCopy m heap fn_start
        (ins.toNat - fn_start.toNat) ((UInt64.ofNat x).toNat - fn_start.toNat + i) := by
    intro i hi
    rw [hx64]
    exact window_eq_copy hx (by omega)
  constructor
  · exact fun hlen => h.firstBytes _ _ len hlen hsame
  · exact fun hlen => h.firstBytes _ _ len hlen fun i hi => (hsame i hi).symm

/-- Both agents store the same value in `*pip`, with enough fuel. -/
def SamePip (xed : Window → Option ℕ) (m : GuestMemory) (heap : ℕ → UInt8)
    (getStartAddress : UInt64 → UInt64) (ins : UInt64) (excludeList : List UInt64) : Prop :=
  ∃ pip, ∀ fuel, ins.toNat + 1 < fuel →
    NativeAgent.getPreviousInstruction (decodeInPlace xed m) getStartAddress fuel ins
      excludeList 0 = some pip ∧
    KvmAgent.getPreviousInstruction xed m heap getStartAddress fuel ins excludeList 0 = some pip

/-- **The two agents find the same previous instruction** iff at no address that both sweeps
visit one meets an error and then lands, while the other one meets an instruction that goes past
`ins`. -/
theorem samePip_iff (hxed : XedOk xed) {getStartAddress : UInt64 → UInt64}
    (hins : ins.toNat + 15 < 2 ^ 64) (hpos : 0 < getStartAddress ins)
    (hle : getStartAddress ins ≤ ins)
    (hsize : ins.toNat - (getStartAddress ins).toNat < 2 ^ 31)
    (hread : ∀ a n, (getStartAddress ins).toNat ≤ a.toNat → a.toNat + n ≤ ins.toNat + 15 →
      m.ret a n = 0)
    (excludeList : List UInt64) :
    SamePip xed m heap getStartAddress ins excludeList ↔
      ∀ x < ins.toNat,
        Sweep.Visited (sweepNext (decodeInPlace xed m)) (getStartAddress ins).toNat x →
        Sweep.Visited (sweepNext (KvmAgent.decodeCopy xed m heap (getStartAddress ins) ins))
          (getStartAddress ins).toNat x →
        (decodeInPlace xed m (UInt64.ofNat x) = none →
          Straddles (KvmAgent.decodeCopy xed m heap (getStartAddress ins) ins) ins x →
          ¬ Lands (decodeInPlace xed m) ins (x + 1)) ∧
        (KvmAgent.decodeCopy xed m heap (getStartAddress ins) ins (UInt64.ofNat x) = none →
          Straddles (decodeInPlace xed m) ins x →
          ¬ Lands (KvmAgent.decodeCopy xed m heap (getStartAddress ins) ins) ins (x + 1)) := by
  have hnative : LengthsOk (decodeInPlace xed m) := fun a len => hxed.lengths _ len
  have hcopy : LengthsOk (KvmAgent.decodeCopy xed m heap (getStartAddress ins) ins) :=
    fun a len => hxed.lengths _ len
  -- each agent returns the place where its own sweep lands
  obtain ⟨r, hr, hspec⟩ :=
    NativeAgent.getPreviousInstruction_spec hnative hins hle excludeList 0
  obtain ⟨r', hr', hspec'⟩ := KvmAgent.getPreviousInstruction_spec hcopy hins hle hsize
    (hread _ _ le_rfl (by have hle' := UInt64.le_iff_toNat_le.mp hle; omega)) excludeList 0
  rw [← (agreeUpTo_copy hxed).sameLanding_iff hnative hcopy]
  -- the two values are the same for any fuel that is enough
  have hsame : SamePip xed m heap getStartAddress ins excludeList ↔ pipOf r = pipOf r' := by
    constructor
    · rintro ⟨pip, hpip⟩
      obtain ⟨h, h'⟩ := hpip (ins.toNat + 2) (by omega)
      rw [hr _ (by omega)] at h
      rw [hr' _ (by omega)] at h'
      exact Option.some_inj.mp (h.trans h'.symm)
    · intro heq
      exact ⟨pipOf r, fun fuel hfuel => ⟨hr fuel hfuel, heq ▸ hr' fuel (by omega)⟩⟩
  -- a landing is neither null nor too large for a value
  have hbound : ∀ d, LengthsOk d → ∀ p,
      Sweep.Visited (sweepNext d) (getStartAddress ins).toNat p ∧ EndsAt d ins p →
      0 < p ∧ p < 2 ^ 64 := by
    rintro d hd p ⟨hvisited, hend⟩
    have hstart := UInt64.lt_iff_toNat_lt.mp hpos
    exact ⟨hstart.trans_le (hvisited.le (lt_sweepNext hd)), (hend.lt hd).trans ins.toNat_lt⟩
  have hr_iff : ∀ p, r = some p ↔ Sweep.Visited (sweepNext (decodeInPlace xed m))
      (getStartAddress ins).toNat p ∧ EndsAt (decodeInPlace xed m) ins p :=
    fun p => (hspec p).trans (and_iff_right (by simp))
  have hr'_iff : ∀ p, r' = some p ↔ Sweep.Visited
      (sweepNext (KvmAgent.decodeCopy xed m heap (getStartAddress ins) ins))
      (getStartAddress ins).toNat p ∧
      EndsAt (KvmAgent.decodeCopy xed m heap (getStartAddress ins) ins) ins p :=
    fun p => (hspec' p).trans (and_congr_right fun _ => and_iff_right_of_imp (EndsAt.lt hcopy))
  rw [hsame, pipOf_inj (fun p hp => hbound _ hnative p ((hr_iff p).mp hp))
    (fun p hp => hbound _ hcopy p ((hr'_iff p).mp hp)), Option.ext_iff]
  exact forall_congr' fun p => by rw [← hr_iff p, ← hr'_iff p]

end InPlaceAndCopy

/-- XED on two instructions: `ret` and a `vpextrb`, which has six bytes. -/
def retOrVpextrb (w : Window) : Option ℕ :=
  if w 0 = 0xC3 then some 1
  else if w 0 = 0xC4 ∧ w 1 = 0xC3 ∧ w 2 = 0x79 ∧ w 3 = 0x14 then some 6
  else none

/-- Memory with these bytes from 0x1000 on, that can be read. -/
def codeAt (code : List UInt8) : GuestMemory where
  bytes a := code.getD (a.toNat - 0x1000) 0
  ret _ _ := 0

/-- The function starts at 0x1000. -/
def startOfCode (_ : UInt64) : UInt64 := 0x1000

theorem xedOk_retOrVpextrb : XedOk retOrVpextrb := by
  constructor
  · intro w len hlen
    unfold retOrVpextrb at hlen
    split_ifs at hlen <;> cases hlen <;> decide
  · intro w w' len hlen hsame
    unfold retOrVpextrb at hlen ⊢
    split_ifs at hlen with hret hvex
    · cases hlen
      rw [← hsame 0 (by decide), if_pos hret]
    · cases hlen
      rw [← hsame 0 (by decide), ← hsame 1 (by decide), ← hsame 2 (by decide),
        ← hsame 3 (by decide), if_neg hret, if_pos hvex]

/-- Two `ret`s: neither sweep meets an error. -/
theorem samePip_iff_twoRets :
    SamePip retOrVpextrb (codeAt [0xC3, 0xC3]) (fun _ => 0) startOfCode 0x1002 [] := by
  refine (samePip_iff xedOk_retOrVpextrb (by decide) (by decide) (by decide) (by decide)
    (fun _ _ _ _ => rfl) []).mpr fun x hx hv _ => ?_
  have hlow : 0x1000 ≤ x := hv.le (lt_sweepNext fun a len => xedOk_retOrVpextrb.lengths _ len)
  have hhigh : x < 0x1002 := hx
  obtain rfl | rfl : x = 0x1000 ∨ x = 0x1001 := by omega
  · exact ⟨fun herror => absurd herror (by decide), fun herror => absurd herror (by decide)⟩
  · exact ⟨fun herror => absurd herror (by decide), fun herror => absurd herror (by decide)⟩

/-- **The `vpextrb` at 0x1000 goes past 0x1002**, and cut off there it is an error, behind which
the KVM agent finds a `ret`. -/
theorem previous_differs :
    NativeAgent.getPreviousInstruction (decodeInPlace retOrVpextrb
        (codeAt [0xC4, 0xC3, 0x79, 0x14, 0xC0, 0x01])) startOfCode 0x1004 0x1002 [] 0 = some 0 ∧
      KvmAgent.getPreviousInstruction retOrVpextrb (codeAt [0xC4, 0xC3, 0x79, 0x14, 0xC0, 0x01])
        (fun _ => 0) startOfCode 0x1004 0x1002 [] 0 = some 0x1001 ∧
      ¬ ∀ xed m heap getStartAddress ins excludeList, XedOk xed → ins.toNat + 15 < 2 ^ 64 →
        0 < getStartAddress ins → getStartAddress ins ≤ ins →
        ins.toNat - (getStartAddress ins).toNat < 2 ^ 31 →
        (∀ a n, (getStartAddress ins).toNat ≤ a.toNat → a.toNat + n ≤ ins.toNat + 15 →
          m.ret a n = 0) →
        SamePip xed m heap getStartAddress ins excludeList := by
  -- the native agent sees the whole `vpextrb`, and finds nothing that ends at 0x1002
  have hnative : NativeAgent.getPreviousInstruction (decodeInPlace retOrVpextrb
      (codeAt [0xC4, 0xC3, 0x79, 0x14, 0xC0, 0x01])) startOfCode 0x1004 0x1002 [] 0 = some 0 := by
    decide
  have hkvm : KvmAgent.getPreviousInstruction retOrVpextrb
      (codeAt [0xC4, 0xC3, 0x79, 0x14, 0xC0, 0x01]) (fun _ => 0) startOfCode 0x1004 0x1002 [] 0
      = some 0x1001 := by
    decide
  refine ⟨hnative, hkvm, fun h => ?_⟩
  obtain ⟨pip, hpip⟩ := h retOrVpextrb (codeAt [0xC4, 0xC3, 0x79, 0x14, 0xC0, 0x01]) (fun _ => 0)
    startOfCode 0x1002 [] xedOk_retOrVpextrb (by decide) (by decide) (by decide) (by decide)
    fun _ _ _ _ => rfl
  obtain ⟨h0, h1⟩ := hpip 0x1004 (by decide)
  exact absurd (hnative.symm.trans (h0.trans (h1.symm.trans hkvm))) (by decide)

end Kognizance
