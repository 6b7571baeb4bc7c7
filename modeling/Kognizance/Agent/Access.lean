import Kognizance.Agent.Previous
import Kognizance.Platform.Event

/-!
# Access decoding in the KVM agent

`get_mem_access_length_and_type_address__decoder` reads 8 bytes of the guest into a buffer of
zeros and lets XED decode what it finds there. It has outputs for the length, the type and the
address of the access, and for the type of its elements. XED is an oracle from windows to
instructions.

* `decoder_cases`: what the decoder returns and stores.
* `decodesAccess_iff`: when that is the access of the instruction at `ip`.
-/

namespace Kognizance

/-- The categories the decoder asks for. -/
inductive XedCategory
  | aes
  | convert
  | pclmulqdq
  | sse
  | avx2
  | avx
  | mmx
  | dataxfer
  | x87Alu
  | fcmov
  | other
  deriving DecidableEq, Repr

inductive XedElementType
  | float16
  | single
  | double
  | longdouble
  | longbcd
  | other
  deriving DecidableEq, Repr

structure XedOperand where
  /-- Whether `xed_operand_name` is `XED_OPERAND_MEM0`. -/
  isMem0 : Bool
  elementType : XedElementType
  deriving DecidableEq, Repr

/-- What the decoder asks XED about an instruction: the last four are about memory operand 0. -/
structure DecodedInst where
  numberOfMemoryOperands : ℕ
  category : XedCategory
  operands : List XedOperand
  memRead : Bool
  memWritten : Bool
  memoryOperandLength : UInt32
  /-- `xed_agen`, with the registers of the guest. -/
  agen : Option UInt64
  deriving DecidableEq, Repr

/-- The variables that the pointers of the decoder lead to. -/
structure AccessOut where
  accessLen : UInt32
  accessType : AccessType
  floatType : FloatType
  address : UInt64
  deriving DecidableEq, Repr

namespace DecodedInst

/-- `*accessType` -/
def accessType (xedd : DecodedInst) : AccessType :=
  if xedd.memWritten && xedd.memRead then .loadAndStore
  else if xedd.memWritten then .store
  else if xedd.memRead then .load
  else .unknown

/-- `*floatType`, which some categories leave alone. -/
def floatType (xedd : DecodedInst) (floatType : FloatType) : FloatType :=
  match xedd.category with
  | .aes | .convert | .pclmulqdq | .sse | .avx2 | .avx | .mmx | .dataxfer =>
    match (xedd.operands.find? fun op => op.isMem0).map XedOperand.elementType with
    | some .float16 => .elemTypeFloat16
    | some .single => .elemTypeSingle
    | some .double => .elemTypeDouble
    | some .longdouble => .elemTypeLongDouble
    | some .longbcd => .elemTypeLongBCD
    | some .other => .elemTypeUnknown
    | none => .elemTypeUnknown
  | .x87Alu | .fcmov =>
    if xedd.memoryOperandLength = 4 then .elemTypeSingle
    else if xedd.memoryOperandLength = 8 then .elemTypeDouble
    else .elemTypeUnknown
  | .other => floatType

end DecodedInst

namespace KvmAgent

/-- The window XED is given for the instruction at `ip`: 8 bytes, and zeros. -/
def hostIp (m : GuestMemory) (heap : ℕ → UInt8) (ip : UInt64) : Window :=
  fun i => hostCopy m heap ip 8 i

/-- `get_mem_access_length_and_type_address__decoder`. The pointers `floatType` and `address` may
be NULL. -/
def getMemAccessLengthAndTypeAddress (xed_decode : Window → Option DecodedInst) (m : GuestMemory)
    (heap : ℕ → UInt8) (ip : UInt64) (floatType address : Bool) (out : AccessOut) :
    Bool × AccessOut :=
  -- the error code is returned as a `bool`
  if m.ret ip 8 ≠ 0 then (true, out)
  else
    match xed_decode (hostIp m heap ip) with
    | none => (false, out)
    | some xedd =>
      if xedd.numberOfMemoryOperands ≠ 1 then (false, out)
      else
        let out := { out with
          accessLen := xedd.memoryOperandLength
          accessType := xedd.accessType
          floatType := if floatType then xedd.floatType out.floatType else out.floatType }
        if !address then (true, out)
        else
          match xedd.agen with
          | none => (false, out)
          | some a => (true, { out with address := a })

end KvmAgent

/-- An access: the address is given if it is asked for. -/
structure Access where
  accessLen : UInt32
  accessType : AccessType
  address : Option UInt64
  deriving DecidableEq, Repr

/-- The access of the instruction that a window decodes to, if that has one memory operand, and
an address if it is asked for. -/
def accessOf (xed_decode : Window → Option DecodedInst) (address : Bool) (w : Window) :
    Option Access :=
  match xed_decode w with
  | none => none
  | some xedd =>
    if xedd.numberOfMemoryOperands ≠ 1 then none
    else if !address then some ⟨xedd.memoryOperandLength, xedd.accessType, none⟩
    else xedd.agen.map fun a => ⟨xedd.memoryOperandLength, xedd.accessType, some a⟩

/-- The outputs are those of the access. -/
def AccessOut.Holds (out : AccessOut) (access : Access) : Prop :=
  out.accessLen = access.accessLen ∧ out.accessType = access.accessType ∧
    ∀ a, access.address = some a → out.address = a

section Decoder

variable {xed_decode : Window → Option DecodedInst} {m : GuestMemory} {heap : ℕ → UInt8}
  {ip : UInt64}

/-- **What the decoder returns and stores**, if the bytes can be read. -/
theorem KvmAgent.decoder_cases (xed_decode : Window → Option DecodedInst) (heap : ℕ → UInt8)
    (hread : m.ret ip 8 = 0) (floatType address : Bool) (out : AccessOut) :
    let result := KvmAgent.getMemAccessLengthAndTypeAddress xed_decode m heap ip floatType address
      out
    match accessOf xed_decode address (KvmAgent.hostIp m heap ip) with
    | none => result.1 = false
    | some access => result.1 = true ∧ result.2.Holds access := by
  unfold KvmAgent.getMemAccessLengthAndTypeAddress accessOf
  rw [if_neg (not_not.mpr hread)]
  cases hxed : xed_decode (KvmAgent.hostIp m heap ip) with
  | none => rfl
  | some xedd =>
    -- other instructions than those with one operand in memory are refused
    by_cases hone : xedd.numberOfMemoryOperands = 1
    · simp only [if_neg (not_not.mpr hone)]
      cases address with
      | false => exact ⟨rfl, rfl, rfl, fun a ha => by cases ha⟩
      | true =>
        -- the address is the only part that can still fail
        cases hagen : xedd.agen with
        | none => simp
        | some a => simp [AccessOut.Holds]
    · simp [hone]

/-- The address is there if it is asked for. -/
theorem accessOf_address {address : Bool} {w : Window} {access : Access}
    (h : accessOf xed_decode address w = some access) : access.address.isSome = address := by
  unfold accessOf at h
  cases hxed : xed_decode w with
  | none =>
    rw [hxed] at h
    cases h
  | some xedd =>
    simp only [hxed] at h
    by_cases hone : xedd.numberOfMemoryOperands = 1
    · rw [if_neg (not_not.mpr hone)] at h
      -- the address is `none` only if it was not asked for
      cases address with
      | false =>
        cases h
        rfl
      | true =>
        obtain ⟨a, -, rfl⟩ := Option.map_eq_some_iff.mp h
        rfl
    · rw [if_pos hone] at h
      cases h

/-- Outputs are those of one access only. -/
theorem AccessOut.Holds.unique {out : AccessOut} {access access' : Access} (h : out.Holds access)
    (h' : out.Holds access') (haddress : access.address.isSome = access'.address.isSome) :
    access = access' := by
  obtain ⟨len, type, address⟩ := access
  obtain ⟨len', type', address'⟩ := access'
  obtain ⟨hlen, htype, ha⟩ := h
  obtain ⟨hlen', htype', ha'⟩ := h'
  have hsame : address = address' := by
    cases address with
    | none => exact (Option.isNone_iff_eq_none.mp (by simpa using haddress.symm)).symm
    | some a =>
      obtain ⟨a', rfl⟩ := Option.isSome_iff_exists.mp haddress.symm
      exact congrArg some ((ha a rfl).symm.trans (ha' a' rfl))
  rw [Access.mk.injEq]
  exact ⟨hlen.symm.trans hlen', htype.symm.trans htype', hsame⟩

/-- **The decoder tells the truth**: it returns true iff the bytes can be read and the window in
place has an access, and then the outputs are those of this access. -/
def DecodesAccess (xed_decode : Window → Option DecodedInst) (m : GuestMemory)
    (heap : ℕ → UInt8) (ip : UInt64) (floatType address : Bool) (out : AccessOut) : Prop :=
  let result := KvmAgent.getMemAccessLengthAndTypeAddress xed_decode m heap ip floatType address out
  (result.1 = true ↔
    m.ret ip 8 = 0 ∧ ∃ access, accessOf xed_decode address (m.window ip) = some access) ∧
  (result.1 = true → ∀ access, accessOf xed_decode address (m.window ip) = some access →
    result.2.Holds access)

/-- The 8 bytes at `ip` can be read, and with zeros behind them they have the access of the
window in place, or none if that has none. -/
def SameAccess (xed_decode : Window → Option DecodedInst) (m : GuestMemory) (heap : ℕ → UInt8)
    (ip : UInt64) (address : Bool) : Prop :=
  m.ret ip 8 = 0 ∧ accessOf xed_decode address (KvmAgent.hostIp m heap ip) =
    accessOf xed_decode address (m.window ip)

theorem decodesAccess_iff (floatType address : Bool) (out : AccessOut) :
    DecodesAccess xed_decode m heap ip floatType address out ↔
      SameAccess xed_decode m heap ip address := by
  unfold DecodesAccess SameAccess
  by_cases hread : m.ret ip 8 = 0
  · have hcases := KvmAgent.decoder_cases xed_decode heap hread floatType address out
    simp only [hread, true_and]
    cases hcopy : accessOf xed_decode address (KvmAgent.hostIp m heap ip) with
    | none =>
      -- the copy is no access, so the call fails, and the bytes at `ip` must be none either
      simp only [hcopy] at hcases
      simp only [hcases, Bool.false_eq_true, false_iff, IsEmpty.forall_iff, and_true]
      exact not_exists.trans (Option.eq_none_iff_forall_ne_some.symm.trans eq_comm)
    | some access =>
      -- the copy is an access, and is stored, so the one at `ip` must be the same
      simp only [hcopy] at hcases
      obtain ⟨htrue, hholds⟩ := hcases
      simp only [htrue, true_iff, forall_const]
      constructor
      · rintro ⟨⟨access', hplace⟩, hall⟩
        rw [hplace, hholds.unique (hall access' hplace)
          ((accessOf_address hcopy).trans (accessOf_address hplace).symm)]
      · intro hplace
        refine ⟨⟨access, hplace.symm⟩, fun access' hplace' => ?_⟩
        rw [← hplace, Option.some_inj] at hplace'
        exact hplace' ▸ hholds
  · -- the error code counts as true
    have htrue : (KvmAgent.getMemAccessLengthAndTypeAddress xed_decode m heap ip floatType address
        out).1 = true := by
      unfold KvmAgent.getMemAccessLengthAndTypeAddress
      rw [if_pos hread]
    simp [htrue, hread]

end Decoder

end Kognizance
