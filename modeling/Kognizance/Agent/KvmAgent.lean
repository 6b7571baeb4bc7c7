import Mathlib.Data.List.FinRange
import Mathlib.Logic.Function.Basic
import Kognizance.Platform.Device

/-!
# The KVM agent

The agent keeps, for each device, the VCPU it was registered on (`deviceVCPUMap`)
and, for each VCPU, which device has which of its breakpoint registers
(`VCPUBPdeviceSlotMap`). Both maps are read with `operator[]`, which enters 0 for a
device it does not know and an array of zeros for a VCPU it does not know; -1 stands
for no VCPU and for a free register.

The hypervisor interface answers from outside: a function returns the register it
asks the hypervisor to act on, if it gets that far.
-/

namespace Kognizance

/-- `HBP_NUM`, the breakpoint registers of a VCPU. -/
abbrev hbpNum : ℕ := 4

/-- The registers of one VCPU, by `breakno`. -/
abbrev SlotArray : Type := Fin hbpNum → ℤ

/-- The first register that holds `x`. -/
def findSlot (slots : SlotArray) (x : ℤ) : Option (Fin hbpNum) :=
  (List.finRange hbpNum).find? fun breakno => slots breakno = x

theorem findSlot_some {slots : SlotArray} {x : ℤ} {b : Fin hbpNum}
    (h : findSlot slots x = some b) : slots b = x := by
  simpa using List.find?_some h

theorem findSlot_none {slots : SlotArray} {x : ℤ} :
    findSlot slots x = none ↔ ∀ b, slots b ≠ x := by
  simp [findSlot]

/-- `MyAgent` of the KVM build. -/
structure KvmAgent where
  /-- Whether `hyPerfDev` is set. -/
  hyPerfDev : Bool
  deviceVCPUMap : ℤ → Option ℤ
  vcpuBPdeviceSlotMap : ℤ → Option SlotArray

namespace KvmAgent

def init : KvmAgent := ⟨false, fun _ => none, fun _ => none⟩

/-- The value `deviceVCPUMap[fd]` has. -/
def vcpuOf (a : KvmAgent) (fd : ℤ) : ℤ := (a.deviceVCPUMap fd).getD 0

/-- The value `VCPUBPdeviceSlotMap[vcpu]` has. -/
def slotsOf (a : KvmAgent) (vcpu : ℤ) : SlotArray := (a.vcpuBPdeviceSlotMap vcpu).getD fun _ => 0

/-- `deviceVCPUMap[fd] = vcpu`. -/
def setVcpu (a : KvmAgent) (fd vcpu : ℤ) : KvmAgent :=
  { a with deviceVCPUMap := Function.update a.deviceVCPUMap fd (some vcpu) }

/-- `VCPUBPdeviceSlotMap[vcpu]`, register by register. -/
def setSlots (a : KvmAgent) (vcpu : ℤ) (slots : SlotArray) : KvmAgent :=
  { a with vcpuBPdeviceSlotMap := Function.update a.vcpuBPdeviceSlotMap vcpu (some slots) }

/-- Reading `deviceVCPUMap[fd]` enters what it reads. -/
def readVcpu (a : KvmAgent) (fd : ℤ) : KvmAgent := a.setVcpu fd (a.vcpuOf fd)

/-- Reading `VCPUBPdeviceSlotMap[vcpu]` enters what it reads. -/
def readSlots (a : KvmAgent) (vcpu : ℤ) : KvmAgent := a.setSlots vcpu (a.slotsOf vcpu)

/-- `set_hyPerfDev`, with a pointer that is null or not. -/
def setHyPerfDev (a : KvmAgent) (dev : Bool) : KvmAgent := { a with hyPerfDev := dev }

/-- The common part of `updateBPAddress`, `pauseDevice` and `resumeDevice`: the
register of the device is looked up and the hypervisor asked to act on it. -/
def askHypervisor (a : KvmAgent) (fd : ℤ) : Option (ℤ × Fin hbpNum) × KvmAgent :=
  if !a.hyPerfDev then (none, a)
  else
    let a := a.readVcpu fd
    if a.vcpuOf fd = -1 then (none, a)
    else
      let a := a.readSlots (a.vcpuOf fd)
      ((findSlot (a.slotsOf (a.vcpuOf fd)) fd).map fun breakno => (a.vcpuOf fd, breakno), a)

/-- `updateBPAddress`. -/
def updateBPAddress (a : KvmAgent) (fd : ℤ) : Option (ℤ × Fin hbpNum) × KvmAgent :=
  a.askHypervisor fd

/-- `pauseDevice`. -/
def pauseDevice (a : KvmAgent) (fd : ℤ) : Option (ℤ × Fin hbpNum) × KvmAgent :=
  a.askHypervisor fd

/-- `resumeDevice`. -/
def resumeDevice (a : KvmAgent) (fd : ℤ) : Option (ℤ × Fin hbpNum) × KvmAgent :=
  a.askHypervisor fd

/-- `registerDevice`, on the VCPU that the hypervisor says the thread runs. The device
goes without a register when all are taken. -/
def registerDevice (a : KvmAgent) (type : DeviceType) (fd getVCPU : ℤ) : KvmAgent :=
  if !a.hyPerfDev then a
  else
    let a := a.setVcpu fd getVCPU
    if type ≠ .bpDevice then a
    else
      match a.vcpuBPdeviceSlotMap getVCPU with
      | none =>
        -- the first breakpoint device of this VCPU
        ((a.setSlots getVCPU fun breakno => if breakno = 0 then fd else -1).updateBPAddress fd).2
      | some slots =>
        match findSlot slots (-1) with
        | some breakno =>
          ((a.setSlots getVCPU (Function.update slots breakno fd)).updateBPAddress fd).2
        | none => a.setVcpu fd (-1)

/-- `unRegisterDevice`. -/
def unRegisterDevice (a : KvmAgent) (type : DeviceType) (fd : ℤ) : KvmAgent :=
  let a :=
    if type ≠ .bpDevice then a
    else
      let a := a.readVcpu fd
      let slots := a.slotsOf (a.vcpuOf fd)
      a.setSlots (a.vcpuOf fd) fun breakno => if slots breakno = fd then -1 else slots breakno
  a.setVcpu fd (-1)

section Fields

variable (a : KvmAgent) (fd v : ℤ) (slots : SlotArray)

@[simp] theorem setVcpu_vcpuMap :
    (a.setVcpu fd v).deviceVCPUMap = Function.update a.deviceVCPUMap fd (some v) := rfl

@[simp] theorem setVcpu_slotMap :
    (a.setVcpu fd v).vcpuBPdeviceSlotMap = a.vcpuBPdeviceSlotMap := rfl

@[simp] theorem setSlots_vcpuMap : (a.setSlots v slots).deviceVCPUMap = a.deviceVCPUMap := rfl

@[simp] theorem setSlots_slotMap : (a.setSlots v slots).vcpuBPdeviceSlotMap =
    Function.update a.vcpuBPdeviceSlotMap v (some slots) := rfl

@[simp] theorem readVcpu_slotMap :
    (a.readVcpu fd).vcpuBPdeviceSlotMap = a.vcpuBPdeviceSlotMap := rfl

theorem readVcpu_vcpuMap_of_ne {d : ℤ} (hd : d ≠ fd) :
    (a.readVcpu fd).deviceVCPUMap d = a.deviceVCPUMap d := Function.update_of_ne hd _ _

end Fields

/-! ### Reading what is there changes nothing -/

@[simp] theorem vcpuOf_setVcpu (a : KvmAgent) (fd v : ℤ) : (a.setVcpu fd v).vcpuOf fd = v := by
  simp [vcpuOf, setVcpu]

@[simp] theorem vcpuOf_readVcpu (a : KvmAgent) (fd : ℤ) : (a.readVcpu fd).vcpuOf fd = a.vcpuOf fd :=
  a.vcpuOf_setVcpu fd _

theorem readVcpu_eq {a : KvmAgent} {fd : ℤ} (h : a.deviceVCPUMap fd ≠ none) :
    a.readVcpu fd = a := by
  obtain ⟨v, hv⟩ := Option.ne_none_iff_exists'.mp h
  rw [readVcpu, setVcpu, vcpuOf, hv, Option.getD_some, ← hv, Function.update_eq_self]

theorem readSlots_eq {a : KvmAgent} {v : ℤ} (h : a.vcpuBPdeviceSlotMap v ≠ none) :
    a.readSlots v = a := by
  obtain ⟨slots, hs⟩ := Option.ne_none_iff_exists'.mp h
  rw [readSlots, setSlots, slotsOf, hs, Option.getD_some, ← hs, Function.update_eq_self]

/-- A lookup leaves at most an entry for the device, when it finds the VCPU. -/
theorem askHypervisor_snd {a : KvmAgent} {fd : ℤ}
    (h : a.hyPerfDev = true → a.vcpuOf fd ≠ -1 → a.vcpuBPdeviceSlotMap (a.vcpuOf fd) ≠ none) :
    (a.askHypervisor fd).2 = if a.hyPerfDev then a.readVcpu fd else a := by
  unfold askHypervisor
  cases hdev : a.hyPerfDev with
  | false => simp
  | true =>
    simp only [Bool.not_true, Bool.false_eq_true, if_false, vcpuOf_readVcpu, if_true]
    split_ifs with hv
    · rfl
    · exact readSlots_eq (h hdev hv)

/-- A device that was given a VCPU with an entry is updated without any change. -/
theorem updateBPAddress_snd {a : KvmAgent} {fd v : ℤ} (hfd : a.deviceVCPUMap fd = some v)
    (hv : a.vcpuBPdeviceSlotMap v ≠ none) : (a.updateBPAddress fd).2 = a := by
  have hvcpu : a.vcpuOf fd = v := by rw [vcpuOf, hfd, Option.getD_some]
  refine (askHypervisor_snd fun _ _ => by rwa [hvcpu]).trans ?_
  rw [readVcpu_eq (by rw [hfd]; exact Option.some_ne_none v), ite_self]

/-! ### What registering and removing a device does -/

/-- **Every way `registerDevice` can go.** The agent does not know the hypervisor yet;
the device needs no register; it takes a free one, where a new VCPU has all of them
free; or none is left. -/
theorem registerDevice_cases (a : KvmAgent) (type : DeviceType) (fd vcpu : ℤ) :
    (a.hyPerfDev = false ∧ a.registerDevice type fd vcpu = a) ∨
    (a.hyPerfDev = true ∧ type ≠ .bpDevice ∧ a.registerDevice type fd vcpu = a.setVcpu fd vcpu) ∨
    (a.hyPerfDev = true ∧ type = .bpDevice ∧ ∃ old b, old b = -1 ∧
      (a.vcpuBPdeviceSlotMap vcpu = some old ∨
        a.vcpuBPdeviceSlotMap vcpu = none ∧ old = fun _ => -1) ∧
      a.registerDevice type fd vcpu =
        (a.setVcpu fd vcpu).setSlots vcpu (Function.update old b fd)) ∨
    (a.hyPerfDev = true ∧ type = .bpDevice ∧ ∃ slots, a.vcpuBPdeviceSlotMap vcpu = some slots ∧
      (∀ b, slots b ≠ -1) ∧
      a.registerDevice type fd vcpu = (a.setVcpu fd vcpu).setVcpu fd (-1)) := by
  unfold registerDevice
  cases hdev : a.hyPerfDev with
  | false => exact Or.inl ⟨rfl, rfl⟩
  | true =>
    right
    by_cases htype : type = .bpDevice
    · right
      -- the hypervisor call behind a placement reads entries that are there
      have hupd : ∀ slots : SlotArray,
          (((a.setVcpu fd vcpu).setSlots vcpu slots).updateBPAddress fd).2
            = (a.setVcpu fd vcpu).setSlots vcpu slots := fun slots =>
        updateBPAddress_snd (v := vcpu) (by simp) (by simp)
      cases hs : a.vcpuBPdeviceSlotMap vcpu with
      | none =>
        have hfirst : (fun breakno : Fin hbpNum => if breakno = 0 then fd else -1)
            = Function.update (fun _ => -1) 0 fd := by
          funext b
          simp [Function.update_apply]
        refine Or.inl ⟨rfl, htype, fun _ => -1, 0, rfl, Or.inr ⟨rfl, rfl⟩, ?_⟩
        simp [htype, hs, hupd, hfirst]
      | some slots =>
        cases hfind : findSlot slots (-1) with
        | some b =>
          refine Or.inl ⟨rfl, htype, slots, b, findSlot_some hfind, Or.inl rfl, ?_⟩
          simp [htype, hs, hfind, hupd]
        | none =>
          refine Or.inr ⟨rfl, htype, slots, rfl, findSlot_none.mp hfind, ?_⟩
          simp [htype, hs, hfind]
    · exact Or.inl ⟨rfl, htype, by simp [htype]⟩

/-- A breakpoint device clears what it holds of the VCPU it reads. -/
theorem unRegisterDevice_bp {a : KvmAgent} {fd : ℤ} {old : SlotArray}
    (hold : a.vcpuBPdeviceSlotMap (a.vcpuOf fd) = some old) :
    a.unRegisterDevice .bpDevice fd =
      ((a.readVcpu fd).setSlots (a.vcpuOf fd) fun b =>
        if old b = fd then -1 else old b).setVcpu fd (-1) := by
  have hread : (a.readVcpu fd).slotsOf (a.vcpuOf fd) = old := by
    rw [slotsOf, readVcpu_slotMap, hold, Option.getD_some]
  simp [unRegisterDevice, hread]

theorem unRegisterDevice_other {a : KvmAgent} {fd : ℤ} {type : DeviceType}
    (htype : type ≠ .bpDevice) : a.unRegisterDevice type fd = a.setVcpu fd (-1) := by
  simp [unRegisterDevice, htype]

end KvmAgent

end Kognizance
