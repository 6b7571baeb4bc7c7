import Kognizance.Agent.Access
import Kognizance.Platform.Device

/-!
# Fixing the instruction pointer

A breakpoint reports the instruction after the one that made the access. `fixIP` lets the agent
look for the instruction before, and takes the result if it lies up to 15 words below. Then it
has the agent decode the access there, and reads the value and the instruction.

* `previous_accepted`: the search of the native agent ends, and what `IsPCSane` accepts is the
  one instruction of the sweep that ends at `ins`.
* `fixIP_cases`: `fixIP` returns true only if the decoder has.
* `accessDecoded_iff`: when the KVM agent's decoder tells the truth, and `fixIP` with it.
-/

namespace Kognizance

/-! ### The patched address -/

/-- `IsPCSane`. The difference is one of pointers to words of 8 bytes. -/
def isPCSane (contextPC possiblePC : UInt64) : Bool :=
  if possiblePC = 0 ∨ possiblePC > contextPC ∨ (contextPC - possiblePC).toInt64.toInt / 8 > 15 then
    false
  else true

/-- An address close below is accepted. -/
theorem isPCSane_of_close {contextPC possiblePC : UInt64} (hne : possiblePC ≠ 0)
    (hle : possiblePC ≤ contextPC) (hclose : contextPC.toNat ≤ possiblePC.toNat + 15) :
    isPCSane contextPC possiblePC = true := by
  have hsub := UInt64.toNat_sub_of_le contextPC possiblePC hle
  have hdiff : (contextPC - possiblePC).toInt64.toInt = (contextPC - possiblePC).toNat :=
    BitVec.toInt_eq_toNat_of_lt (by
      change 2 * (contextPC - possiblePC).toNat < 2 ^ 64
      omega)
  unfold isPCSane
  rw [if_neg]
  rintro (hzero | hgt | hfar)
  · exact hne hzero
  · exact absurd hle (UInt64.not_le.mpr hgt)
  · rw [hdiff] at hfar
    omega

/-- Where the sweep lands: close below `ins`, at an address. -/
theorem landing {xed_decode : UInt64 → Option ℕ} (hlengths : LengthsOk xed_decode) {ins : UInt64}
    {s x : ℕ} (hvisited : Sweep.Visited (sweepNext xed_decode) s x)
    (hend : EndsAt xed_decode ins x) :
    s ≤ x ∧ x < ins.toNat ∧ ins.toNat ≤ x + 15 ∧ (pipOf (some x)).toNat = x := by
  have hlt := hend.lt hlengths
  obtain ⟨len, hlen, hsum⟩ := hend
  have hlow : len ≤ 15 := (hlengths _ len hlen).2
  have hpip : (pipOf (some x)).toNat = x := UInt64.toNat_ofNat_of_lt' (hlt.trans ins.toNat_lt)
  exact ⟨hvisited.le (lt_sweepNext hlengths), hlt, by omega, hpip⟩

/-- **The native search for the previous instruction.** It ends, and gives the instruction that
the sweep visits and that ends at `ins`, unless a monitored address is in the way. `IsPCSane`
accepts the result iff there is one. -/
theorem previous_accepted {xed_decode : UInt64 → Option ℕ} (hlengths : LengthsOk xed_decode)
    {ins : UInt64} (hins : ins.toNat + 15 < 2 ^ 64) {getStartAddress : UInt64 → UInt64}
    (hpos : 0 < getStartAddress ins) (hle : getStartAddress ins ≤ ins) (excludeList : List UInt64)
    (numExcludes : ℕ) :
    ∃ pip,
      (∀ fuel, ins.toNat + 1 < fuel → NativeAgent.getPreviousInstruction xed_decode
        getStartAddress fuel ins excludeList numExcludes = some pip) ∧
      (∀ p, (pip = p ∧ getStartAddress ins ≤ p ∧ p < ins) ↔
        (∀ e ∈ excludeList.take numExcludes, ¬ (getStartAddress ins ≤ e ∧ e < ins)) ∧
        Sweep.Visited (sweepNext xed_decode) (getStartAddress ins).toNat p.toNat ∧
        xed_decode p = some (ins.toNat - p.toNat)) ∧
      ((¬ ∃ p, pip = p ∧ getStartAddress ins ≤ p ∧ p < ins) → pip = 0) ∧
      (isPCSane ins pip = true ↔ pip ≠ 0) := by
  obtain ⟨r, hr, hspec⟩ :=
    NativeAgent.getPreviousInstruction_spec hlengths hins hle excludeList numExcludes
  cases hx : r with
  | none =>
    -- nothing is found: the value is NULL, which is below the start
    subst hx
    have hnull : pipOf none = 0 := rfl
    refine ⟨pipOf none, hr, fun p => ⟨?_, ?_⟩, fun _ => hnull, ?_⟩
    · rintro ⟨rfl, hlow, -⟩
      exact absurd hlow (UInt64.not_le.mpr (hnull ▸ hpos))
    · rintro ⟨hnone, hvisited, hlen⟩
      have hlow := (hlengths p _ hlen).1
      have hfound := (hspec p.toNat).mpr
        ⟨hnone, hvisited, _, by rw [UInt64.ofNat_toNat, hlen], by omega⟩
      exact (Option.some_ne_none _ hfound.symm).elim
    · rw [hnull]
      exact iff_of_false (by simp [isPCSane]) (not_not.mpr rfl)
  | some x =>
    subst hx
    obtain ⟨hnone, hvisited, hend⟩ := (hspec x).mp rfl
    obtain ⟨hlow, hlt, hclose, hpip⟩ := landing hlengths hvisited hend
    have hstart : getStartAddress ins ≤ pipOf (some x) :=
      UInt64.le_iff_toNat_le.mpr (hpip.symm ▸ hlow)
    have hbelow : pipOf (some x) < ins := UInt64.lt_iff_toNat_lt.mpr (hpip.symm ▸ hlt)
    have hne : pipOf (some x) ≠ 0 := (UInt64.ne_of_lt (UInt64.lt_of_lt_of_le hpos hstart)).symm
    refine ⟨pipOf (some x), hr, fun p => ⟨?_, ?_⟩, ?_, ?_⟩
    · rintro ⟨rfl, -, -⟩
      obtain ⟨len, hlen, hsum⟩ := hend
      rw [hpip]
      exact ⟨hnone, hvisited, hlen.trans (congrArg some (by omega))⟩
    · rintro ⟨-, hvisited', hlen⟩
      have hlow' := (hlengths p _ hlen).1
      have hfound := (hspec p.toNat).mpr
        ⟨hnone, hvisited', _, by rw [UInt64.ofNat_toNat, hlen], by omega⟩
      have heq : pipOf (some x) = p :=
        UInt64.toNat_inj.mp (hpip.trans (Option.some_inj.mp hfound))
      exact ⟨heq, heq ▸ hstart, heq ▸ hbelow⟩
    · exact fun habsent => absurd ⟨_, rfl, hstart, hbelow⟩ habsent
    · have hsane := isPCSane_of_close hne (UInt64.le_of_lt hbelow) (hpip.symm ▸ hclose)
      exact iff_of_true hsane hne

/-- A function of two instructions, of four bytes and of one. -/
def twoInstructions (a : UInt64) : Option ℕ :=
  if a = 0x1000 then some 4 else if a = 0x1004 then some 1 else none

/-- It starts with the first one. -/
def startOfTwo (_ : UInt64) : UInt64 := 0x1000

theorem previous_accepted_twoInstructions : ∃ pip,
    (∀ fuel, 0x1004 + 1 < fuel → NativeAgent.getPreviousInstruction twoInstructions startOfTwo
      fuel 0x1004 [0x3000] 1 = some pip) ∧
    pip = 0x1000 ∧ isPCSane 0x1004 pip = true := by
  have hlengths : LengthsOk twoInstructions := by
    intro a len hlen
    unfold twoInstructions at hlen
    split_ifs at hlen <;> cases hlen <;> decide
  have hins : (0x1004 : UInt64).toNat + 15 < 2 ^ 64 := by decide
  have hpos : 0 < startOfTwo 0x1004 := by decide
  obtain ⟨pip, hpip, hspec, -, hsane⟩ :=
    previous_accepted hlengths hins hpos (by decide) [0x3000] 1
  -- the monitored address lies behind both instructions
  have hnone : ∀ e ∈ [(0x3000 : UInt64)], ¬ (startOfTwo 0x1004 ≤ e ∧ e < 0x1004) :=
    List.forall_mem_singleton.mpr (by decide)
  have hfirst := ((hspec 0x1000).mpr ⟨hnone, Sweep.Visited.refl _ _, by decide⟩).1
  exact ⟨pip, hpip, hfirst, hsane.mpr (by rw [hfirst]; decide)⟩

/-! ### `fixIP` -/

/-- A decoder of the agent: the instruction, whether the pointers `floatType` and `address` are
given, and the outputs. -/
abbrev AccessDecoder : Type := UInt64 → Bool → Bool → AccessOut → Bool × AccessOut

/-- The part of `fixIP` about the access. Only for a breakpoint device the address is asked for,
and it is stored even if the decoder has not been called. -/
def fixAccess (decoder : AccessDecoder) (bp : Bool) (event : Event) : Bool × Event :=
  let out : AccessOut := ⟨event.accessLength, event.accessType, event.floatType, -1⟩
  let called :=
    if event.accessType = .unknown then decoder event.h_ip_addr true bp out else (true, out)
  let event := { event with
    accessLength := called.2.accessLen
    accessType := called.2.accessType
    floatType := called.2.floatType }
  if !called.1 then (false, { event with accessType := .unknown })
  else if bp then
    (true, { event with h_data_addr := called.2.address, data_addr := called.2.address })
  else (true, event)

/-- A buffer of `malloc` after so many bytes have been read into it. -/
def GuestMemory.readInto (m : GuestMemory) (heap : ℕ → UInt8) (a : UInt64) (len : ℕ) (i : ℤ) :
    UInt8 :=
  if m.ret a len = 0 ∧ 0 ≤ i ∧ i < len then m.bytes (a + UInt64.ofNat i.toNat) else heap i.toNat

/-- The part of `fixIP` that reads the value and the instruction. -/
def fixValue (m : GuestMemory) (heap : ℕ → UInt8) (event : Event) : Bool × Event :=
  let len := event.accessLength.toNat
  let event := { event with valueAtEvent := m.readInto heap event.data_addr len }
  if m.ret event.data_addr len < 0 then (false, event)
  else if m.ret event.fixedIP 4 < 0 then (false, event)
  else
    (true, { event with
      inst := (m.readInto heap event.fixedIP 4 0).toUInt64
      -- the address is also that of the innermost frame
      eventContext_agent := event.eventContext_agent.modifyHead fun cf =>
        { cf with binary_addr := event.h_ip_addr.toInt64.toInt } })

/-- `fixIP`, for the device the event comes from. It reads the type of a breakpoint device through
a cast, which gives NULL for an EBS device. -/
def fixIP (dev : Option Device) (getPatchedIP : UInt64 → UInt64) (decoder : AccessDecoder)
    (m : GuestMemory) (heap : ℕ → UInt8) (event : Event) : Option (Bool × Event) :=
  match dev with
  | none => some (false, event)
  | some dev =>
    if dev.deviceType = .ebsDevice then none
    else
      let contextIP := event.h_ip_addr
      -- a precise sample and an instruction breakpoint need no patch
      let patchedIP :=
        if dev.deviceType = .pebsDevice ∨ dev.type = 4 then contextIP else getPatchedIP contextIP
      if !isPCSane contextIP patchedIP then some (false, event)
      else
        let event := { event with fixedIP := patchedIP, h_ip_addr := patchedIP }
        let (decoded, event) := fixAccess decoder (dev.deviceType = .bpDevice) event
        if !decoded then some (false, event) else some (fixValue m heap event)

section FixIP

variable {decoder : AccessDecoder} {m : GuestMemory} {heap : ℕ → UInt8}

theorem fixValue_access (m : GuestMemory) (heap : ℕ → UInt8) (event : Event) :
    (fixValue m heap event).2.accessLength = event.accessLength ∧
      (fixValue m heap event).2.accessType = event.accessType ∧
      (fixValue m heap event).2.data_addr = event.data_addr ∧
      (fixValue m heap event).2.fixedIP = event.fixedIP := by
  unfold fixValue
  simp only
  split_ifs <;> exact ⟨rfl, rfl, rfl, rfl⟩

/-- An event without an access has the outputs of the decoder, if that has returned true. -/
theorem fixAccess_cases {bp : Bool} {event : Event} (h : (fixAccess decoder bp event).1 = true)
    (hunknown : event.accessType = .unknown) :
    let result := decoder event.h_ip_addr true bp
      ⟨event.accessLength, .unknown, event.floatType, -1⟩
    let event' := (fixAccess decoder bp event).2
    result.1 = true ∧ event'.accessLength = result.2.accessLen ∧
      event'.accessType = result.2.accessType ∧
      (bp = true → event'.data_addr = result.2.address) ∧ event'.fixedIP = event.fixedIP := by
  unfold fixAccess at h ⊢
  simp only [hunknown, if_true] at h ⊢
  cases hcalled : (decoder event.h_ip_addr true bp
      ⟨event.accessLength, .unknown, event.floatType, -1⟩).1 with
  | false => simp [hcalled] at h
  | true =>
    cases bp with
    | false => exact ⟨rfl, rfl, rfl, fun hbp => (Bool.false_ne_true hbp).elim, rfl⟩
    | true => exact ⟨rfl, rfl, rfl, fun _ => rfl, rfl⟩

/-- **`fixIP` returns true only if the decoder has**, and then the event has its outputs. -/
theorem fixIP_cases {dev : Device} {getPatchedIP : UInt64 → UInt64} {event event' : Event}
    (h : fixIP (some dev) getPatchedIP decoder m heap event = some (true, event'))
    (hunknown : event.accessType = .unknown) :
    let bp : Bool := dev.deviceType = .bpDevice
    let result := decoder event'.fixedIP true bp
      ⟨event.accessLength, .unknown, event.floatType, -1⟩
    result.1 = true ∧ event'.accessLength = result.2.accessLen ∧
      event'.accessType = result.2.accessType ∧
      (bp = true → event'.data_addr = result.2.address) := by
  unfold fixIP at h
  -- an EBS device has no address to fix
  by_cases hebs : dev.deviceType = .ebsDevice
  · simp [hebs] at h
  · simp only [if_neg hebs] at h
    generalize (if dev.deviceType = .pebsDevice ∨ dev.type = 4 then event.h_ip_addr
      else getPatchedIP event.h_ip_addr) = patchedIP at h
    cases hsane : isPCSane event.h_ip_addr patchedIP with
    | false => simp [hsane] at h
    | true =>
      simp only [hsane, Bool.not_true, Bool.false_eq_true, if_false] at h
      cases haccess : (fixAccess decoder (dev.deviceType = .bpDevice)
          { event with fixedIP := patchedIP, h_ip_addr := patchedIP }).1 with
      | false => simp [haccess] at h
      | true =>
        simp only [haccess, Bool.not_true, Bool.false_eq_true, if_false, Option.some_inj] at h
        -- the access comes from the decoder, and the value is read behind it
        obtain ⟨htrue, hlen, htype, haddr, hfixed⟩ := fixAccess_cases haccess hunknown
        obtain ⟨hlen', htype', haddr', hfixed'⟩ := fixValue_access m heap
          (fixAccess decoder (dev.deviceType = .bpDevice)
            { event with fixedIP := patchedIP, h_ip_addr := patchedIP }).2
        rw [h] at hlen' htype' haddr' hfixed'
        rw [hfixed'.trans hfixed]
        exact ⟨htrue, hlen'.trans hlen, htype'.trans htype, fun hbp => haddr'.trans (haddr hbp)⟩

end FixIP

/-- `fixIP` returns true only for events whose access is that of the instruction at `ip`. -/
def FixesAccess (xed_decode : Window → Option DecodedInst) (m : GuestMemory) (heap : ℕ → UInt8)
    (ip : UInt64) (address : Bool) : Prop :=
  ∀ (dev : Device) getPatchedIP (event event' : Event),
    address = decide (dev.deviceType = .bpDevice) → event.accessType = .unknown →
    fixIP (some dev) getPatchedIP (KvmAgent.getMemAccessLengthAndTypeAddress xed_decode m heap) m
      heap event = some (true, event') →
    event'.fixedIP = ip →
    ∃ access, accessOf xed_decode address (m.window ip) = some access ∧
      event'.accessLength = access.accessLen ∧ event'.accessType = access.accessType ∧
      ∀ a, access.address = some a → event'.data_addr = a

/-- **The decoder of the KVM agent tells the truth, and `fixIP` with it**, iff the 8 bytes at `ip`
can be read and have the access of the 15 bytes there. -/
theorem accessDecoded_iff (xed_decode : Window → Option DecodedInst) (m : GuestMemory)
    (heap : ℕ → UInt8) (ip : UInt64) (address : Bool) :
    (∀ floatType out, DecodesAccess xed_decode m heap ip floatType address out) ∧
        FixesAccess xed_decode m heap ip address ↔
      SameAccess xed_decode m heap ip address := by
  constructor
  · exact fun h => (decodesAccess_iff true address ⟨0, .unknown, .elemTypeUnknown, 0⟩).mp
      (h.1 true ⟨0, .unknown, .elemTypeUnknown, 0⟩)
  · intro hsame
    -- the decoder answers whatever the type of the value
    have hdecodes : ∀ floatType out, DecodesAccess xed_decode m heap ip floatType address out :=
      fun floatType out => (decodesAccess_iff floatType address out).mpr hsame
    refine ⟨hdecodes, ?_⟩
    rintro dev getPatchedIP event event' rfl hunknown hfix rfl
    obtain ⟨htrue, hlen, htype, haddr⟩ := fixIP_cases hfix hunknown
    obtain ⟨hiff, hall⟩ := hdecodes true ⟨event.accessLength, .unknown, event.floatType, -1⟩
    obtain ⟨-, access, haccess⟩ := hiff.mp htrue
    obtain ⟨hlen', htype', haddr'⟩ := hall htrue access haccess
    refine ⟨access, haccess, hlen.trans hlen', htype.trans htype', fun a ha => ?_⟩
    have hbp := accessOf_address haccess
    rw [ha] at hbp
    exact (haddr hbp.symm).trans (haddr' a ha)

/-- A guest whose memory ends at 0x2000: what goes past it cannot be read. -/
def pageEnd : GuestMemory where
  bytes _ := 0x90
  ret a len := if a.toNat + len ≤ 0x2000 then 0 else -1

/-- A precise sample of the instruction at 0x1FFC, without an access. -/
def sampleAtPageEnd : Event where
  self := 1
  eventId := 0
  eventContext_agent := []
  ip_addr := 0x1FFC
  data_addr := 0x1000
  h_ip_addr := 0x1FFC
  h_data_addr := 0x1000
  cpu := 0
  valueAtEvent := fun _ => 0
  inst := 0
  event_time := 0
  accessType := .unknown
  accessLength := 0
  floatType := .elemTypeUnknown
  isFixed := false
  fixedIP := 0

/-- A device of precise samples. -/
def pebs : Device := ⟨3, 0, .pebsDevice, false, 0, 0, 0⟩

/-- **The bytes cannot be read and the decoder returns true**; `fixIP` takes the event for fixed,
whatever XED says. -/
theorem unreadable_is_true :
    (KvmAgent.getMemAccessLengthAndTypeAddress (fun _ => none) pageEnd (fun _ => 0) 0x1FFC true
        false ⟨0, .unknown, .elemTypeUnknown, -1⟩).1 = true ∧
      (∃ event', fixIP (some pebs) (fun _ => 0) (KvmAgent.getMemAccessLengthAndTypeAddress
        (fun _ => none) pageEnd fun _ => 0) pageEnd (fun _ => 0) sampleAtPageEnd =
          some (true, event') ∧ event'.fixedIP = 0x1FFC ∧ event'.accessType = .unknown) ∧
      ¬ ∀ xed_decode m heap ip address,
        (∀ floatType out, DecodesAccess xed_decode m heap ip floatType address out) ∧
          FixesAccess xed_decode m heap ip address := by
  have htrue : (KvmAgent.getMemAccessLengthAndTypeAddress (fun _ => none) pageEnd (fun _ => 0)
      0x1FFC true false ⟨0, .unknown, .elemTypeUnknown, -1⟩).1 = true := by decide
  refine ⟨htrue, ⟨_, rfl, rfl, rfl⟩, fun h => ?_⟩
  have hread := (((h (fun _ => none) pageEnd (fun _ => 0) 0x1FFC false).1 true
    ⟨0, .unknown, .elemTypeUnknown, -1⟩).1.mp htrue).1
  exact absurd hread (by decide)

end Kognizance
