import Mathlib.Data.Int.Notation
import Mathlib.Data.Nat.Notation

/-!
# Events and call frames

The part of `context.hpp` that the watchpoint library and the witch logics read.
Addresses are `UInt64` and access lengths `UInt32`, as in the source, so the
interval tests of the tool wrap around exactly where the compiled code does.

An `Event` is passed around by pointer. Here it is a value that carries its own
identity `self`: two pointers are the same pointer when these agree.
-/

namespace Kognizance

/-- How an instruction accesses memory. -/
inductive AccessType
  | load
  | store
  | loadAndStore
  | unknown
  deriving DecidableEq, Repr

/-- The element type of an access, `elemTypeUnknown` for integer data. -/
inductive FloatType
  | elemTypeFloat16
  | elemTypeSingle
  | elemTypeDouble
  | elemTypeLongDouble
  | elemTypeLongBCD
  | elemTypeUnknown
  deriving DecidableEq, Repr

/-- One frame of a call stack. Two frames are equal when address and line are;
the names are only printed and are left out. -/
structure ContextFrame where
  binary_addr : ℤ
  src_lineno : ℤ
  deriving DecidableEq, Repr

/-- A sample or a watchpoint trigger. -/
structure Event where
  /-- The identity of the object, for `delete` and for comparing pointers. -/
  self : ℕ
  eventId : ℤ
  /-- The call stack, innermost frame first. -/
  eventContext_agent : List ContextFrame
  ip_addr : UInt64
  data_addr : UInt64
  h_ip_addr : UInt64
  h_data_addr : UInt64
  cpu : ℤ
  /-- The bytes read at the access, from the address of the access on. -/
  valueAtEvent : ℤ → UInt8
  inst : UInt64
  event_time : UInt64
  accessType : AccessType
  accessLength : UInt32
  floatType : FloatType
  isFixed : Bool
  fixedIP : UInt64

/-- What the ring buffer parser and the guest's notification fill in of an `Event`. The
fields the constructor leaves alone are 0 in a new one. -/
structure RawEvent where
  eventId : ℤ
  deviceFileId : ℤ
  eventContext_agent : List ContextFrame
  h_pId : ℤ
  h_tId : ℤ
  ip_addr : UInt64
  data_addr : UInt64
  cpu : ℤ
  h_ip_addr : UInt64
  h_data_addr : UInt64
  h_cpu : ℤ
  event_time : UInt64
  addressSpaceType : ℤ
  fixSkid : Bool
  isFixed : Bool
  sample_index : UInt64
  deriving DecidableEq, Repr

/-- `UNKNOWN_ADDRESS_SPACE`. -/
def unknownAddressSpace : ℤ := 6

/-- `new Event()`. -/
def RawEvent.new : RawEvent where
  eventId := 0
  deviceFileId := 0
  eventContext_agent := []
  h_pId := 0
  h_tId := 0
  ip_addr := 0
  data_addr := 0
  cpu := 0
  h_ip_addr := 0
  h_data_addr := 0
  h_cpu := 0
  event_time := 0
  addressSpaceType := unknownAddressSpace
  fixSkid := false
  isFixed := false
  sample_index := 0

end Kognizance
