import Mathlib.Data.Set.Card
import Kognizance.Lib.Run
import Kognizance.Agent.KvmAgent

/-!
# The breakpoint registers of a VCPU

Which devices hold registers, over every run of the agent's operations. A device
registered after `set_hyPerfDev` gets a register of its VCPU when one is free, keeps
it to itself and gives it back; the registers nobody holds are marked free. All of
this stands until an operation reads `VCPUBPdeviceSlotMap` under a VCPU that has no
entry (`AgentRun.ReadsAbsent`): the zeros entered there are never free.
-/

namespace Kognizance

open Process

/-- One operation on the agent. -/
inductive AgentOp
  | setHyPerfDev (dev : Bool)
  | registerDevice (type : DeviceType) (fd getVCPU : ℤ)
  | unRegisterDevice (fd : ℤ)
  | updateBPAddress (fd : ℤ)
  | pauseDevice (fd : ℤ)
  | resumeDevice (fd : ℤ)

/-- The agent and the devices registered with it: their type, and whether `hyPerfDev`
was set when they were. -/
structure AgentRun where
  agent : KvmAgent
  registered : ℤ → Option (DeviceType × Bool)

namespace AgentRun

def init : AgentRun := ⟨.init, fun _ => none⟩

def step (st : AgentRun) : AgentOp → AgentRun
  | .setHyPerfDev dev => { st with agent := st.agent.setHyPerfDev dev }
  | .registerDevice type fd getVCPU =>
    { agent := st.agent.registerDevice type fd getVCPU
      registered := Function.update st.registered fd (some (type, st.agent.hyPerfDev)) }
  | .unRegisterDevice fd =>
    match st.registered fd with
    | none => st
    | some (type, _) =>
      { agent := st.agent.unRegisterDevice type fd
        registered := Function.update st.registered fd none }
  | .updateBPAddress fd => { st with agent := (st.agent.updateBPAddress fd).2 }
  | .pauseDevice fd => { st with agent := (st.agent.pauseDevice fd).2 }
  | .resumeDevice fd => { st with agent := (st.agent.resumeDevice fd).2 }

def run (ops : List AgentOp) : AgentRun := ops.foldl step init

/-- A new device has a positive handle that is not open, and a VCPU a handle that is
not negative. -/
def Used (st : AgentRun) : AgentOp → Prop
  | .registerDevice _ fd getVCPU => 0 < fd ∧ 0 ≤ getVCPU ∧ st.registered fd = none
  | .updateBPAddress fd => 0 < fd
  | .pauseDevice fd => 0 < fd
  | .resumeDevice fd => 0 < fd
  | _ => True

/-- A lookup gets to the registers of a VCPU that has no entry. -/
def AsksAbsent (st : AgentRun) (fd : ℤ) : Prop :=
  st.agent.hyPerfDev = true ∧ st.agent.vcpuOf fd ≠ -1 ∧
    st.agent.vcpuBPdeviceSlotMap (st.agent.vcpuOf fd) = none

/-- The operation reads the registers of a VCPU that has no entry. -/
def ReadsAbsent (st : AgentRun) : AgentOp → Prop
  | .updateBPAddress fd => st.AsksAbsent fd
  | .pauseDevice fd => st.AsksAbsent fd
  | .resumeDevice fd => st.AsksAbsent fd
  | .unRegisterDevice fd =>
    (∃ late, st.registered fd = some (.bpDevice, late)) ∧
      st.agent.vcpuBPdeviceSlotMap (st.agent.vcpuOf fd) = none
  | _ => False

/-- A breakpoint device that was registered after `set_hyPerfDev` and given the VCPU. -/
def On (st : AgentRun) (vcpu fd : ℤ) : Prop :=
  st.registered fd = some (.bpDevice, true) ∧ st.agent.deviceVCPUMap fd = some vcpu

/-- The device holds the register `breakno` of the VCPU. -/
def Holds (st : AgentRun) (vcpu : ℤ) (breakno : Fin hbpNum) (fd : ℤ) : Prop :=
  ∃ slots, st.agent.vcpuBPdeviceSlotMap vcpu = some slots ∧ slots breakno = fd

/-- **The registers are shared out properly.** -/
structure SlotsShared (st : AgentRun) : Prop where
  /-- A device holds exactly one register of its VCPU. -/
  holds : ∀ fd vcpu, st.On vcpu fd → vcpu ≠ -1 → ∃! breakno, st.Holds vcpu breakno fd
  /-- No register is held twice. -/
  distinct : ∀ fd fd' vcpu breakno, st.On vcpu fd → st.On vcpu fd' →
    st.Holds vcpu breakno fd → st.Holds vcpu breakno fd' → fd = fd'
  /-- A register that no device holds is free. -/
  free : ∀ vcpu slots breakno, st.agent.vcpuBPdeviceSlotMap vcpu = some slots →
    ¬ st.On vcpu (slots breakno) → slots breakno = -1
  /-- A new breakpoint device finds a register as long as fewer than `HBP_NUM` devices
  hold one. -/
  finds : ∀ vcpu fd, st.agent.hyPerfDev = true → 0 < fd → 0 ≤ vcpu → st.registered fd = none →
    ((st.step (.registerDevice .bpDevice fd vcpu)).agent.vcpuOf fd = vcpu ↔
      {d | ∃ breakno, st.On vcpu d ∧ st.Holds vcpu breakno d}.ncard < hbpNum)

/-- What every operation keeps, as long as no register is read where none is. -/
structure SlotInv (st : AgentRun) : Prop where
  /-- A register is free or held by a device of its VCPU. -/
  slot : ∀ vcpu slots breakno, st.agent.vcpuBPdeviceSlotMap vcpu = some slots →
    slots breakno = -1 ∨ st.On vcpu (slots breakno)
  /-- A device holds one register. -/
  inj : ∀ vcpu slots b b', st.agent.vcpuBPdeviceSlotMap vcpu = some slots →
    slots b = slots b' → slots b ≠ -1 → b = b'
  holds : ∀ fd vcpu, st.On vcpu fd → vcpu ≠ -1 → ∃ breakno, st.Holds vcpu breakno fd
  /-- The agent knows the devices registered after `set_hyPerfDev`. -/
  known : ∀ fd type, st.registered fd = some (type, true) → st.agent.deviceVCPUMap fd ≠ none
  pos : ∀ fd, st.registered fd ≠ none → 0 < fd

theorem SlotInv.init : SlotInv init where
  slot := fun _ _ _ h => by cases h
  inj := fun _ _ _ _ h => by cases h
  holds := fun _ _ h => by cases h.1
  known := fun _ _ h => by cases h
  pos := fun _ h => absurd rfl h

namespace SlotInv

variable {st : AgentRun}

/-- Nothing changes for the devices registered after `set_hyPerfDev`. -/
theorem congr (h : SlotInv st) {a : KvmAgent}
    (hslots : a.vcpuBPdeviceSlotMap = st.agent.vcpuBPdeviceSlotMap)
    (hvcpu : ∀ fd type, st.registered fd = some (type, true) →
      a.deviceVCPUMap fd = st.agent.deviceVCPUMap fd) : SlotInv { st with agent := a } := by
  have hon : ∀ vcpu fd, On { st with agent := a } vcpu fd ↔ st.On vcpu fd := fun vcpu fd =>
    and_congr_right fun hreg => by rw [hvcpu fd _ hreg]
  refine ⟨fun vcpu slots b hs => ?_, fun vcpu slots b b' hs => ?_, fun fd vcpu hfd hne => ?_,
    fun fd type hreg => ?_, h.pos⟩
  · rw [hslots] at hs
    rw [hon]
    exact h.slot vcpu slots b hs
  · rw [hslots] at hs
    exact h.inj vcpu slots b b' hs
  · obtain ⟨b, slots, hs, hb⟩ := h.holds fd vcpu ((hon vcpu fd).mp hfd) hne
    exact ⟨b, slots, by rw [hslots, hs], hb⟩
  · rw [hvcpu fd type hreg]
    exact h.known fd type hreg

/-- A lookup that finds the registers of the VCPU. -/
theorem askHypervisor (h : SlotInv st) {fd : ℤ} (hask : ¬ st.AsksAbsent fd) :
    SlotInv { st with agent := (st.agent.askHypervisor fd).2 } := by
  have hsnd : (st.agent.askHypervisor fd).2 =
      if st.agent.hyPerfDev then st.agent.readVcpu fd else st.agent :=
    KvmAgent.askHypervisor_snd fun hdev hv hnone => hask ⟨hdev, hv, hnone⟩
  rw [hsnd]
  split_ifs with hdev
  · refine h.congr rfl fun fd' type hreg => ?_
    by_cases hfd : fd' = fd
    · -- the agent knows the device, so reading its VCPU enters nothing
      subst hfd
      rw [KvmAgent.readVcpu_eq (h.known fd' type hreg)]
    · exact Function.update_of_ne hfd _ _
  · exact h

/-- A device that is not registered holds no register. -/
theorem ne_of_on {fd : ℤ} (hfree : st.registered fd = none) :
    ∀ vcpu d, st.On vcpu d → d ≠ fd := by
  rintro vcpu d ⟨hreg, -⟩ rfl
  rw [hfree] at hreg
  cases hreg

theorem pos_update (h : SlotInv st) {fd : ℤ} (hpos : 0 < fd) {dev : Option (DeviceType × Bool)}
    (d : ℤ) (hd : Function.update st.registered fd dev d ≠ none) : 0 < d := by
  by_cases hfd : d = fd
  · exact hfd ▸ hpos
  · exact h.pos d fun hnone => hd ((Function.update_of_ne hfd _ _).trans hnone)

section Old

/-! `old` are the registers of a VCPU, all of them free when the agent has none for it. -/

variable {vcpu : ℤ} {old : SlotArray}

theorem slot_old (h : SlotInv st)
    (hold : st.agent.vcpuBPdeviceSlotMap vcpu = some old ∨
      st.agent.vcpuBPdeviceSlotMap vcpu = none ∧ old = fun _ => -1) (b : Fin hbpNum) :
    old b = -1 ∨ st.On vcpu (old b) := by
  rcases hold with hs | ⟨-, rfl⟩
  · exact h.slot vcpu old b hs
  · exact Or.inl rfl

theorem inj_old (h : SlotInv st)
    (hold : st.agent.vcpuBPdeviceSlotMap vcpu = some old ∨
      st.agent.vcpuBPdeviceSlotMap vcpu = none ∧ old = fun _ => -1) {b b' : Fin hbpNum}
    (he : old b = old b') (hne : old b ≠ -1) : b = b' := by
  rcases hold with hs | ⟨-, rfl⟩
  · exact h.inj vcpu old b b' hs he hne
  · exact absurd rfl hne

/-- A handle that is not registered is in no register. -/
theorem old_ne (h : SlotInv st)
    (hold : st.agent.vcpuBPdeviceSlotMap vcpu = some old ∨
      st.agent.vcpuBPdeviceSlotMap vcpu = none ∧ old = fun _ => -1) {fd : ℤ}
    (hfree : st.registered fd = none) (hpos : 0 < fd) (b : Fin hbpNum) : old b ≠ fd := by
  intro he
  rcases h.slot_old hold b with hm | hon
  · omega
  · exact ne_of_on hfree vcpu _ hon he

end Old

/-- A device without a register: registered early, of another type, or too late. -/
theorem enter (h : SlotInv st) {fd : ℤ} (hfree : st.registered fd = none) (hpos : 0 < fd)
    {a : KvmAgent} (hslots : a.vcpuBPdeviceSlotMap = st.agent.vcpuBPdeviceSlotMap)
    (hother : ∀ fd', fd' ≠ fd → a.deviceVCPUMap fd' = st.agent.deviceVCPUMap fd')
    {type : DeviceType} {late : Bool} (hknown : late = true → a.deviceVCPUMap fd ≠ none)
    (hno : type = .bpDevice → late = true → a.deviceVCPUMap fd = some (-1)) :
    SlotInv ⟨a, Function.update st.registered fd (some (type, late))⟩ := by
  have hne := ne_of_on hfree
  have hkeep : ∀ vcpu d, st.On vcpu d →
      On ⟨a, Function.update st.registered fd (some (type, late))⟩ vcpu d := by
    intro vcpu d hd
    refine ⟨(Function.update_of_ne (hne vcpu d hd) _ _).trans hd.1, ?_⟩
    exact (hother d (hne vcpu d hd)).trans hd.2
  have hback : ∀ vcpu d, vcpu ≠ -1 →
      On ⟨a, Function.update st.registered fd (some (type, late))⟩ vcpu d → st.On vcpu d := by
    rintro vcpu d hv ⟨hreg, hmap⟩
    by_cases hd : d = fd
    · -- the new device has no VCPU
      subst hd
      obtain ⟨rfl, rfl⟩ : type = .bpDevice ∧ late = true := by simpa using hreg
      rw [hno rfl rfl] at hmap
      exact absurd (Option.some.inj hmap).symm hv
    · exact ⟨(Function.update_of_ne hd _ _).symm.trans hreg, (hother d hd).symm.trans hmap⟩
  refine ⟨fun vcpu slots b hs => ?_, fun vcpu slots b b' hs => ?_, fun d vcpu hd hv => ?_,
    fun d type' hreg => ?_, fun d hd => ?_⟩
  · exact (h.slot vcpu slots b (hslots ▸ hs)).imp_right (hkeep vcpu _)
  · exact h.inj vcpu slots b b' (hslots ▸ hs)
  · obtain ⟨b, slots, hs, hb⟩ := h.holds d vcpu (hback vcpu d hv hd) hv
    exact ⟨b, slots, hslots.symm ▸ hs, hb⟩
  · by_cases hfd : d = fd
    · subst hfd
      obtain ⟨-, rfl⟩ : type = type' ∧ late = true := by simpa using hreg
      exact hknown rfl
    · change a.deviceVCPUMap d ≠ none
      rw [hother d hfd]
      exact h.known d type' ((Function.update_of_ne hfd _ _).symm.trans hreg)
  · exact h.pos_update hpos d hd

/-- A device that takes the free register `b` of the VCPU. `old` are the registers
there, all of them free when the VCPU is new. -/
theorem place (h : SlotInv st) {fd vcpu : ℤ} (hfree : st.registered fd = none) (hpos : 0 < fd)
    {old : SlotArray} {b : Fin hbpNum} (hb : old b = -1)
    (hold : st.agent.vcpuBPdeviceSlotMap vcpu = some old ∨
      st.agent.vcpuBPdeviceSlotMap vcpu = none ∧ old = fun _ => -1) :
    SlotInv ⟨(st.agent.setVcpu fd vcpu).setSlots vcpu (Function.update old b fd),
      Function.update st.registered fd (some (.bpDevice, true))⟩ := by
  have hne := ne_of_on hfree
  have hnew := h.old_ne hold hfree hpos
  have hkeep : ∀ w d, st.On w d →
      On ⟨(st.agent.setVcpu fd vcpu).setSlots vcpu (Function.update old b fd),
        Function.update st.registered fd (some (.bpDevice, true))⟩ w d := fun w d hd =>
    ⟨(Function.update_of_ne (hne w d hd) _ _).trans hd.1,
      (Function.update_of_ne (hne w d hd) _ _).trans hd.2⟩
  have hself : On ⟨(st.agent.setVcpu fd vcpu).setSlots vcpu (Function.update old b fd),
      Function.update st.registered fd (some (.bpDevice, true))⟩ vcpu fd :=
    ⟨Function.update_self _ _ _, Function.update_self _ _ _⟩
  -- the registers of the VCPU have changed, those of no other
  have hat : ∀ w slots, Function.update st.agent.vcpuBPdeviceSlotMap vcpu
      (some (Function.update old b fd)) w = some slots →
      (w = vcpu ∧ slots = Function.update old b fd) ∨
        (w ≠ vcpu ∧ st.agent.vcpuBPdeviceSlotMap w = some slots) := by
    intro w slots hs
    by_cases hw : w = vcpu
    · subst hw
      rw [Function.update_self] at hs
      exact Or.inl ⟨rfl, (Option.some.inj hs).symm⟩
    · rw [Function.update_of_ne hw] at hs
      exact Or.inr ⟨hw, hs⟩
  refine ⟨fun w slots b' hs => ?_, fun w slots b₁ b₂ hs he hne' => ?_, fun d w hd hw => ?_,
    fun d type hreg => ?_, fun d hd => ?_⟩
  · rcases hat w slots hs with ⟨rfl, rfl⟩ | ⟨-, hs⟩
    · by_cases hbb : b' = b
      · subst hbb
        rw [Function.update_self]
        exact Or.inr hself
      · rw [Function.update_of_ne hbb]
        exact (h.slot_old hold b').imp_right (hkeep w _)
    · exact (h.slot w slots b' hs).imp_right (hkeep w _)
  · rcases hat w slots hs with ⟨rfl, rfl⟩ | ⟨-, hs⟩
    · -- the new handle is in register `b` only
      by_cases h1 : b₁ = b <;> by_cases h2 : b₂ = b
      · rw [h1, h2]
      · rw [h1, Function.update_self, Function.update_of_ne h2] at he
        exact absurd he.symm (hnew b₂)
      · rw [h2, Function.update_self, Function.update_of_ne h1] at he
        exact absurd he (hnew b₁)
      · rw [Function.update_of_ne h1] at he hne'
        rw [Function.update_of_ne h2] at he
        exact h.inj_old hold he hne'
    · exact h.inj w slots b₁ b₂ hs he hne'
  · by_cases hfd : d = fd
    · -- the new device holds the register it took
      subst hfd
      obtain rfl : vcpu = w := Option.some.inj ((Function.update_self d _ _).symm.trans hd.2)
      exact ⟨b, _, Function.update_self _ _ _, Function.update_self _ _ _⟩
    · have hd' : st.On w d := ⟨(Function.update_of_ne hfd _ _).symm.trans hd.1,
        (Function.update_of_ne hfd _ _).symm.trans hd.2⟩
      obtain ⟨b', slots, hs, hb'⟩ := h.holds d w hd' hw
      by_cases hwv : w = vcpu
      · subst hwv
        rcases hold with hs' | ⟨hs', -⟩
        · obtain rfl := Option.some.inj (hs.symm.trans hs')
          -- the register that was free is not the one `d` holds
          have hbb : b' ≠ b := by
            rintro rfl
            have hdpos := h.pos d (by rw [hd'.1]; exact Option.some_ne_none _)
            omega
          exact ⟨b', _, Function.update_self _ _ _, (Function.update_of_ne hbb _ _).trans hb'⟩
        · rw [hs] at hs'
          cases hs'
      · exact ⟨b', slots, (Function.update_of_ne hwv _ _).trans hs, hb'⟩
  · by_cases hfd : d = fd
    · subst hfd
      exact fun hnone => Option.some_ne_none vcpu ((Function.update_self d _ _).symm.trans hnone)
    · exact fun hnone => h.known d type ((Function.update_of_ne hfd _ _).symm.trans hreg)
        ((Function.update_of_ne hfd _ _).symm.trans hnone)
  · exact h.pos_update hpos d hd

theorem registerDevice (h : SlotInv st) {type : DeviceType} {fd getVCPU : ℤ}
    (hfree : st.registered fd = none) (hpos : 0 < fd) :
    SlotInv (st.step (.registerDevice type fd getVCPU)) := by
  unfold AgentRun.step
  rcases st.agent.registerDevice_cases type fd getVCPU with
    ⟨hdev, hreg⟩ | ⟨hdev, htype, hreg⟩ | ⟨hdev, rfl, old, b, hb, hold, hreg⟩ |
    ⟨hdev, rfl, slots, hs, hfull, hreg⟩ <;> simp only [hdev, hreg]
  · -- before `set_hyPerfDev` the agent does not learn of the device
    exact h.enter hfree hpos rfl (fun _ _ => rfl) (fun hl => by cases hl) fun _ hl => by cases hl
  · refine h.enter hfree hpos (st.agent.setVcpu_slotMap fd getVCPU) (fun d hd => ?_) (fun _ => ?_)
      fun hbp _ => absurd hbp htype
    · simp [Function.update_of_ne hd]
    · simp
  · exact h.place hfree hpos hb hold
  · -- no register is left: the device has no VCPU
    refine h.enter hfree hpos ?_ (fun d hd => ?_) (fun _ => ?_) fun _ _ => ?_
    · simp
    · simp [Function.update_of_ne hd]
    · simp
    · simp

/-- A device leaves, and the register it held is free again. -/
theorem leave (h : SlotInv st) {fd : ℤ} {a : KvmAgent}
    (hother : ∀ d, d ≠ fd → a.deviceVCPUMap d = st.agent.deviceVCPUMap d)
    (hslots : ∀ w slots, a.vcpuBPdeviceSlotMap w = some slots →
      ∃ old, st.agent.vcpuBPdeviceSlotMap w = some old ∧
        ∀ b, slots b = if old b = fd then -1 else old b)
    (hmap : ∀ w, st.agent.vcpuBPdeviceSlotMap w ≠ none → a.vcpuBPdeviceSlotMap w ≠ none) :
    SlotInv ⟨a, Function.update st.registered fd none⟩ := by
  have hon : ∀ w d, On ⟨a, Function.update st.registered fd none⟩ w d ↔ d ≠ fd ∧ st.On w d := by
    intro w d
    by_cases hd : d = fd
    · subst hd
      simp [On]
    · simp [On, hother d hd, hd]
  refine ⟨fun w slots b hs => ?_, fun w slots b b' hs he hne => ?_, fun d w hd hw => ?_,
    fun d type hreg => ?_, fun d hd => ?_⟩
  · obtain ⟨old, hold, hb⟩ := hslots w slots hs
    rw [hb, hon]
    split_ifs with hfd
    · exact Or.inl rfl
    · exact (h.slot w old b hold).imp_right fun ho => ⟨hfd, ho⟩
  · obtain ⟨old, hold, hb⟩ := hslots w slots hs
    rw [hb b] at he hne
    rw [hb b'] at he
    -- a register that is not free holds what it held
    rw [if_neg fun e => hne (if_pos e)] at he hne
    refine h.inj w old b b' hold ?_ hne
    split_ifs at he with hfd
    · exact absurd he hne
    · exact he
  · obtain ⟨hne, hd⟩ := (hon w d).mp hd
    obtain ⟨b, old, hold, hb⟩ := h.holds d w hd hw
    obtain ⟨slots, hs⟩ := Option.ne_none_iff_exists'.mp
      (hmap w (hold ▸ Option.some_ne_none old))
    obtain ⟨old', hold', hb'⟩ := hslots w slots hs
    obtain rfl := Option.some.inj (hold.symm.trans hold')
    exact ⟨b, slots, hs, by rw [hb', hb, if_neg hne]⟩
  · have hne : d ≠ fd := by
      rintro rfl
      simp at hreg
    change a.deviceVCPUMap d ≠ none
    rw [hother d hne]
    exact h.known d type ((Function.update_of_ne hne _ _).symm.trans hreg)
  · refine h.pos d fun hnone => hd ?_
    by_cases hne : d = fd
    · exact hne ▸ Function.update_self _ _ _
    · exact (Function.update_of_ne hne _ _).trans hnone

theorem unRegisterDevice (h : SlotInv st) {fd : ℤ}
    (habs : ¬ st.ReadsAbsent (.unRegisterDevice fd)) :
    SlotInv (st.step (.unRegisterDevice fd)) := by
  cases hreg : st.registered fd with
  | none =>
    have hstep : st.step (.unRegisterDevice fd) = st := by simp [AgentRun.step, hreg]
    rwa [hstep]
  | some dev =>
    obtain ⟨type, late⟩ := dev
    have hstep : st.step (.unRegisterDevice fd) =
        ⟨st.agent.unRegisterDevice type fd, Function.update st.registered fd none⟩ := by
      simp [AgentRun.step, hreg]
    rw [hstep]
    -- a register of another VCPU, or any when the device is of another kind, is not its
    have hnot : ∀ w old b, st.agent.vcpuBPdeviceSlotMap w = some old →
        (type = .bpDevice → w ≠ st.agent.vcpuOf fd) → old b ≠ fd := by
      intro w old b hold hw hb
      have hfd := h.pos fd (by rw [hreg]; exact Option.some_ne_none _)
      rcases h.slot w old b hold with hm | hon
      · omega
      · rw [hb] at hon
        obtain ⟨rfl, -⟩ : type = .bpDevice ∧ late = true := by simpa [hreg] using hon.1
        exact hw rfl (by rw [KvmAgent.vcpuOf, hon.2]; rfl)
    by_cases htype : type = .bpDevice
    · subst htype
      have hsome : st.agent.vcpuBPdeviceSlotMap (st.agent.vcpuOf fd) ≠ none := fun hnone =>
        habs ⟨⟨late, hreg⟩, hnone⟩
      obtain ⟨old, hold⟩ := Option.ne_none_iff_exists'.mp hsome
      rw [KvmAgent.unRegisterDevice_bp hold]
      refine h.leave (fun d hd => ?_) (fun w slots hs => ?_) fun w hw => ?_
      · simp [Function.update_of_ne hd, KvmAgent.readVcpu_vcpuMap_of_ne _ _ hd]
      · by_cases hwv : w = st.agent.vcpuOf fd
        · subst hwv
          rw [KvmAgent.setVcpu_slotMap, KvmAgent.setSlots_slotMap, Function.update_self] at hs
          obtain rfl := Option.some.inj hs
          exact ⟨old, hold, fun _ => rfl⟩
        · rw [KvmAgent.setVcpu_slotMap, KvmAgent.setSlots_slotMap, Function.update_of_ne hwv,
            KvmAgent.readVcpu_slotMap] at hs
          exact ⟨slots, hs, fun b => (if_neg (hnot w slots b hs fun _ => hwv)).symm⟩
      · by_cases hwv : w = st.agent.vcpuOf fd
        · subst hwv
          simp
        · simpa [Function.update_of_ne hwv] using hw
    · rw [KvmAgent.unRegisterDevice_other htype]
      refine h.leave (fun d hd => ?_) (fun w slots hs => ?_) fun _ hw => hw
      · simp [Function.update_of_ne hd]
      · exact ⟨slots, hs, fun b => (if_neg (hnot w slots b hs fun e => absurd e htype)).symm⟩

/-- **Every operation keeps the registers shared out**, unless it reads registers that
are not there. -/
theorem step (h : SlotInv st) {op : AgentOp} (hu : st.Used op) (habs : ¬ st.ReadsAbsent op) :
    SlotInv (st.step op) := by
  cases op with
  | setHyPerfDev dev => exact h.congr rfl fun _ _ _ => rfl
  | registerDevice type fd getVCPU => exact h.registerDevice hu.2.2 hu.1
  | unRegisterDevice fd => exact h.unRegisterDevice habs
  | updateBPAddress fd => exact h.askHypervisor habs
  | pauseDevice fd => exact h.askHypervisor habs
  | resumeDevice fd => exact h.askHypervisor habs

/-- The devices that hold a register are those in the registers that are not free. -/
theorem holders_eq (h : SlotInv st) {vcpu : ℤ} {slots : SlotArray}
    (hs : st.agent.vcpuBPdeviceSlotMap vcpu = some slots) :
    {d | ∃ b, st.On vcpu d ∧ st.Holds vcpu b d} = slots '' {b | slots b ≠ -1} := by
  ext d
  constructor
  · rintro ⟨b, hon, slots', hs', rfl⟩
    obtain rfl := Option.some.inj (hs.symm.trans hs')
    refine ⟨b, fun hm => ?_, rfl⟩
    have hpos := h.pos (slots b) (by rw [hon.1]; exact Option.some_ne_none _)
    omega
  · rintro ⟨b, hb, rfl⟩
    exact ⟨b, (h.slot vcpu slots b hs).resolve_left hb, slots, hs, rfl⟩

/-- A register is found as long as not all of them are held. -/
theorem finds (h : SlotInv st) {vcpu fd : ℤ} (hdev : st.agent.hyPerfDev = true)
    (hvcpu : 0 ≤ vcpu) :
    (st.step (.registerDevice .bpDevice fd vcpu)).agent.vcpuOf fd = vcpu ↔
      {d | ∃ breakno, st.On vcpu d ∧ st.Holds vcpu breakno d}.ncard < hbpNum := by
  have hcard : Nat.card (Fin hbpNum) = hbpNum := Nat.card_fin hbpNum
  unfold AgentRun.step
  rcases st.agent.registerDevice_cases .bpDevice fd vcpu with
    ⟨hno, -⟩ | ⟨-, hno, -⟩ | ⟨-, -, old, b, hb, hold, hreg⟩ | ⟨-, -, slots, hs, hfull, hreg⟩
  · rw [hdev] at hno
    cases hno
  · exact absurd rfl hno
  · refine iff_of_true ?_ ?_
    · simp [hreg, KvmAgent.vcpuOf]
    · rcases hold with hs | ⟨hs, -⟩
      · -- the register `b` is free, so at most the others are held
        rw [h.holders_eq hs]
        calc (old '' {b' | old b' ≠ -1}).ncard ≤ {b' | old b' ≠ -1}.ncard :=
              Set.ncard_image_le
          _ < (Set.univ : Set (Fin hbpNum)).ncard :=
              Set.ncard_lt_ncard ((Set.ssubset_univ_iff).mpr fun he =>
                absurd (he ▸ Set.mem_univ b : b ∈ {b' | old b' ≠ -1}) (by simp [hb]))
          _ = hbpNum := by rw [Set.ncard_univ, hcard]
      · -- a new VCPU has all of its registers free
        have hempty : {d | ∃ breakno, st.On vcpu d ∧ st.Holds vcpu breakno d} = ∅ := by
          ext d
          simp [Holds, hs]
        rw [hempty, Set.ncard_empty]
        decide
  · refine iff_of_false ?_ ?_
    · simp only [hreg, KvmAgent.vcpuOf, KvmAgent.setVcpu_vcpuMap, Function.update_self,
        Option.getD_some]
      omega
    · -- every register is held, each by a device of its own
      rw [h.holders_eq hs]
      have hall : {b | slots b ≠ -1} = Set.univ := Set.eq_univ_of_forall hfull
      have hinj : Function.Injective slots := fun b b' he => h.inj vcpu slots b b' hs he (hfull b)
      rw [hall, Set.ncard_image_of_injective _ hinj, Set.ncard_univ, hcard]
      exact lt_irrefl _

theorem slotsShared (h : SlotInv st) : SlotsShared st where
  holds := by
    intro fd vcpu hon hne
    obtain ⟨b, slots, hs, hb⟩ := h.holds fd vcpu hon hne
    refine ⟨b, ⟨slots, hs, hb⟩, ?_⟩
    rintro b' ⟨slots', hs', hb'⟩
    obtain rfl := Option.some.inj (hs.symm.trans hs')
    refine h.inj vcpu slots b' b hs (hb'.trans hb.symm) fun hm => ?_
    have hpos := h.pos fd (by rw [hon.1]; exact Option.some_ne_none _)
    omega
  distinct := by
    rintro fd fd' vcpu b - - ⟨slots, hs, rfl⟩ ⟨slots', hs', rfl⟩
    rw [Option.some.inj (hs.symm.trans hs')]
  free := fun vcpu slots b hs hno => (h.slot vcpu slots b hs).resolve_right hno
  finds := fun vcpu fd hdev _ hvcpu _ => h.finds hdev hvcpu

end SlotInv

/-! ### Runs -/

theorem run_concat (ops : List AgentOp) (op : AgentOp) :
    run (ops ++ [op]) = (run ops).step op := by
  simp [run]

theorem registered_unRegisterDevice (st : AgentRun) (fd : ℤ) :
    (st.step (.unRegisterDevice fd)).registered = Function.update st.registered fd none := by
  cases hreg : st.registered fd with
  | none =>
    have hsame : Function.update st.registered fd none = st.registered := by
      rw [← hreg, Function.update_eq_self]
    simp [step, hreg, hsame]
  | some dev => simp [step, hreg]

/-- The handles of registered devices are positive. -/
theorem registered_pos {ops : List AgentOp}
    (hused : ∀ pre op post, ops = pre ++ op :: post → (run pre).Used op) (fd : ℤ)
    (hreg : (run ops).registered fd ≠ none) : 0 < fd := by
  -- on the last operation; only `registerDevice` brings in a handle
  induction ops using List.reverseRecOn with
  | nil => exact absurd rfl hreg
  | append_singleton ops op ih =>
    have ih := ih fun pre op' post he => hused pre op' (post ++ [op]) (by simp [he])
    have hop := hused ops op [] rfl
    rw [run_concat] at hreg
    cases op with
    | registerDevice type fd' getVCPU =>
      by_cases hfd : fd = fd'
      · exact hfd ▸ hop.1
      · exact ih fun hnone => hreg ((Function.update_of_ne hfd _ _).trans hnone)
    | unRegisterDevice fd' =>
      rw [registered_unRegisterDevice] at hreg
      by_cases hfd : fd = fd'
      · exact absurd (hfd ▸ Function.update_self _ _ _) hreg
      · rw [Function.update_of_ne hfd] at hreg
        exact ih hreg
    | setHyPerfDev dev => exact ih hreg
    | updateBPAddress fd' => exact ih hreg
    | pauseDevice fd' => exact ih hreg
    | resumeDevice fd' => exact ih hreg

/-- The registers stay shared out as long as none is read where none is. -/
theorem slotInv_of_run {ops : List AgentOp}
    (hused : ∀ pre op post, ops = pre ++ op :: post → (run pre).Used op)
    (habs : ∀ pre op post, ops = pre ++ op :: post → ¬ (run pre).ReadsAbsent op) :
    SlotInv (run ops) := by
  induction ops using List.reverseRecOn with
  | nil => exact SlotInv.init
  | append_singleton ops op ih =>
    rw [run_concat]
    refine SlotInv.step (ih ?_ ?_) (hused ops op [] rfl) (habs ops op [] rfl)
    · exact fun pre op' post he => hused pre op' (post ++ [op]) (by simp [he])
    · exact fun pre op' post he => habs pre op' (post ++ [op]) (by simp [he])

/-- Reading the registers of a VCPU without an entry leaves a zero in them. -/
theorem zero_of_readsAbsent {st : AgentRun} {op : AgentOp} (habs : st.ReadsAbsent op)
    (hpos : ∀ fd, st.registered fd ≠ none → 0 < fd) :
    ∃ vcpu slots, (st.step op).agent.vcpuBPdeviceSlotMap vcpu = some slots ∧ slots 0 = 0 := by
  have hask : ∀ fd, st.AsksAbsent fd →
      ∃ vcpu slots, (st.agent.askHypervisor fd).2.vcpuBPdeviceSlotMap vcpu = some slots ∧
        slots 0 = 0 := by
    rintro fd ⟨hdev, hv, hnone⟩
    refine ⟨st.agent.vcpuOf fd, fun _ => 0, ?_, rfl⟩
    unfold KvmAgent.askHypervisor
    simp [hdev, hv, KvmAgent.readSlots, KvmAgent.slotsOf, hnone]
  cases op with
  | updateBPAddress fd => exact hask fd habs
  | pauseDevice fd => exact hask fd habs
  | resumeDevice fd => exact hask fd habs
  | unRegisterDevice fd =>
    obtain ⟨⟨late, hreg⟩, hnone⟩ := habs
    -- the inserted zeros are not the handle that is taken out
    have hfd : (0 : ℤ) ≠ fd := by
      have h0 := hpos fd (by rw [hreg]; exact Option.some_ne_none _)
      omega
    refine ⟨st.agent.vcpuOf fd, fun _ => 0, ?_, rfl⟩
    simp [step, hreg, KvmAgent.unRegisterDevice, KvmAgent.slotsOf, hnone, hfd]
  | setHyPerfDev dev => exact habs.elim
  | registerDevice type fd getVCPU => exact habs.elim

/-- **When the registers stay shared out.** They are in every state of a run if and only
if no operation of the run reads registers where there are none. -/
theorem slots_shared_iff (ops : List AgentOp)
    (hused : ∀ pre op post, ops = pre ++ op :: post → (run pre).Used op) :
    (∀ pre post, ops = pre ++ post → (run pre).SlotsShared) ↔
      ∀ pre op post, ops = pre ++ op :: post → ¬ (run pre).ReadsAbsent op := by
  constructor
  · intro hall pre op post he habs
    have hused' : ∀ p o q, pre ++ [op] = p ++ o :: q → (run p).Used o := fun p o q hq =>
      hused p o (q ++ post) (by
        have hsplit : pre ++ op :: post = pre ++ [op] ++ post := by simp
        rw [he, hsplit, hq]
        simp)
    have hpos : ∀ fd, (run pre).registered fd ≠ none → 0 < fd := registered_pos fun p o q hq =>
      hused p o (q ++ op :: post) (by rw [he, hq]; simp)
    obtain ⟨vcpu, slots, hs, h0⟩ := zero_of_readsAbsent habs hpos
    rw [← run_concat] at hs
    -- a zero is neither free nor a device
    have hfree := (hall (pre ++ [op]) post (by simp [he])).free vcpu slots 0 hs fun hon => by
      have hlt := registered_pos hused' (slots 0) (by rw [hon.1]; exact Option.some_ne_none _)
      omega
    omega
  · intro habs pre post he
    refine (slotInv_of_run (fun p o q hq => ?_) fun p o q hq => ?_).slotsShared
    · exact hused p o (q ++ post) (by rw [he, hq]; simp)
    · exact habs p o (q ++ post) (by rw [he, hq]; simp)

/-- Two breakpoint devices of VCPU 3 are registered, and the first one is paused. -/
def twoBreakpoints : List AgentOp :=
  [.setHyPerfDev true, .registerDevice .bpDevice 7 3, .registerDevice .bpDevice 8 3,
    .pauseDevice 7]

/-- Each of them has a register. -/
theorem slots_shared_twoBreakpoints :
    (run twoBreakpoints).SlotsShared ∧
      ((run twoBreakpoints).On 3 7 ∧ (run twoBreakpoints).Holds 3 0 7) ∧
      (run twoBreakpoints).On 3 8 ∧ (run twoBreakpoints).Holds 3 1 8 := by
  have hused : ∀ pre op post, twoBreakpoints = pre ++ op :: post → (run pre).Used op :=
    forall_split_cons trivial (forall_split_cons ⟨by decide, by decide, rfl⟩
      (forall_split_cons ⟨by decide, by decide, rfl⟩
        (forall_split_cons (by decide : (0 : ℤ) < 7) forall_split_nil)))
  -- the pause looks at the registers of VCPU 3, which the first registration has made
  have hpresent : ¬ (run (twoBreakpoints.take 3)).ReadsAbsent (.pauseDevice 7) :=
    fun h => absurd h.2.2 (Option.some_ne_none _)
  have hnone : ∀ pre op post, twoBreakpoints = pre ++ op :: post → ¬ (run pre).ReadsAbsent op :=
    forall_split_cons id (forall_split_cons id (forall_split_cons id
      (forall_split_cons hpresent forall_split_nil)))
  refine ⟨(slots_shared_iff twoBreakpoints hused).mpr hnone _ [] (List.append_nil _).symm, ?_⟩
  exact ⟨⟨⟨rfl, rfl⟩, _, rfl, rfl⟩, ⟨rfl, rfl⟩, _, rfl, rfl⟩

/-- A breakpoint device is registered before the hypervisor interface is set, and paused
after. -/
def lateHypervisor : List AgentOp :=
  [.registerDevice .bpDevice 7 3, .setHyPerfDev true, .pauseDevice 7]

/-- Afterwards VCPU 0 has no free register left, and no device holds one of them: the
next breakpoint device gets none. -/
theorem slots_lost :
    (∀ pre op post, lateHypervisor = pre ++ op :: post → (run pre).Used op) ∧
      ¬ (run lateHypervisor).SlotsShared := by
  refine ⟨forall_split_cons ⟨by decide, by decide, rfl⟩ (forall_split_cons trivial
    (forall_split_cons (by decide : (0 : ℤ) < 7) forall_split_nil)), fun h => ?_⟩
  -- the device was registered before the hypervisor was known, so it is on no VCPU
  have hnobody : {d | ∃ breakno, (run lateHypervisor).On 0 d ∧
      (run lateHypervisor).Holds 0 breakno d} = ∅ := by
    ext d
    refine iff_of_false ?_ (Set.notMem_empty d)
    rintro ⟨b, ⟨hreg, -⟩, -⟩
    have hearly : (run lateHypervisor).registered =
        Function.update init.registered 7 (some (.bpDevice, false)) := rfl
    rw [hearly, Function.update_apply] at hreg
    split_ifs at hreg
    · simp at hreg
    · cases hreg
  have hfinds := (h.finds 0 8 rfl (by decide) (by decide) rfl).mpr (by
    rw [hnobody, Set.ncard_empty]
    decide)
  exact absurd hfinds (by decide)

end AgentRun

end Kognizance
