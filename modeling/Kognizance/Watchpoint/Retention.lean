import Kognizance.Watchpoint.Reservoir
import Kognizance.Watchpoint.Subscribe

/-!
# Which samples a run retains

A thread gets its table from `WP_ThreadInit` and then subscribes `n` samples, one after
the other, with nothing in between. The requests are valid and do not overlap, every
watchpoint that is armed can be armed, and the random numbers are ideal draws.

* `Filled`: after `m` samples slot `j` has survived `m - j` of them and watches the sample
  that `targets` gave it last.
* `getVictim_filled`: what `GetVictim` makes of such a table is `target`.
* `exec_filled`: so it is after every sample of the run.
* `fair_iff`: the samples are retained with chance `maxWP / n` each iff there is one slot,
  or as many slots as samples.
-/

namespace Kognizance

open Process Chance

/-! ### The table -/

/-- The table after `m` samples, of which sample `i` asked for `r i` and was given the slot
`t i`. -/
structure Filled {n : ℕ} (maxWP : ℕ) (r : Fin n → Request) (t : Fin n → Option ℕ) (m : ℕ)
    (slots : Slots) : Prop where
  /-- The samples fill the table from slot 0 up. -/
  full : ∀ j, j < maxWP → j < m → (slots j).isActive = true ∧
    (slots j).samplePostFull = m - j ∧ ∃ i, Holds t m j i ∧ (slots j).watch = (r i).watch
  /-- The slots behind are as `WP_ThreadInit` left them. -/
  free : ∀ j, j < maxWP → m ≤ j → (slots j).isActive = false ∧
    (slots j).samplePostFull = samplesPostFullResetVal

/-- Slots that have been given a sample survive one more. -/
def survived (m : ℕ) (slots : Slots) (j : ℕ) : WPRegisterInfo :=
  if j < m then (slots j).survive else slots j

theorem Holds.keep {n : ℕ} {t : Fin n → Option ℕ} {m : Fin n} {j : ℕ} {i : Fin n}
    (h : Holds t m j i) (hm : t m ≠ some j) : Holds t (m + 1) j i := by
  refine ⟨Nat.lt_succ_of_lt h.1, h.2.1, fun l hil hl => ?_⟩
  rcases Nat.lt_succ_iff_lt_or_eq.mp hl with hl | hl
  · exact h.2.2 l hil hl
  · obtain rfl := Fin.ext hl
    exact hm

theorem holds_new {n : ℕ} {t : Fin n → Option ℕ} {m : Fin n} {j : ℕ} (h : t m = some j) :
    Holds t (m + 1) j m :=
  ⟨Nat.lt_succ_self m, h, fun _ hml hl => absurd hml (Nat.lt_succ_iff.mp hl).not_gt⟩

namespace Filled

variable {n maxWP : ℕ} {r : Fin n → Request} {t : Fin n → Option ℕ} {slots slots' : Slots}

theorem init (tid : ℕ) (memory : Slots) : Filled maxWP r t 0 (initSlots maxWP tid memory) := by
  refine ⟨fun j _ hj => absurd hj (Nat.not_lt_zero j), fun j hj _ => ?_⟩
  simp only [initSlots, if_pos hj, and_self]

/-- **One more sample.** The slot it is given watches it; the others survive it. -/
theorem next {m : Fin n} (h : Filled maxWP r t m slots) (hfill : (m : ℕ) < maxWP → t m = some ↑m)
    (hother : ∀ j, j < maxWP → t m ≠ some j → slots' j = survived m slots j)
    (hput : ∀ j, j < maxWP → t m = some j → (j : ℕ) ≤ m ∧ (slots' j).isActive = true ∧
      (slots' j).samplePostFull = (survived m slots j).samplePostFull ∧
        (slots' j).watch = (r m).watch) :
    Filled maxWP r t (m + 1) slots' := by
  -- the counter of a slot that has a sample by now
  have hcount : ∀ j, j < maxWP → j ≤ m → (survived m slots j).samplePostFull = m + 1 - j := by
    intro j hj hjm
    rcases hjm.lt_or_eq with hlt | rfl
    · have hsurvive : (slots j).survive.samplePostFull = (slots j).samplePostFull + 1 := rfl
      rw [survived, if_pos hlt, hsurvive, (h.full j hj hlt).2.1, Nat.sub_add_comm hlt.le]
    · rw [survived, if_neg (lt_irrefl _), (h.free _ hj le_rfl).2, samplesPostFullResetVal]
      omega
  constructor
  · intro j hj hjm
    by_cases hjt : t m = some j
    · obtain ⟨hle, hact, hcnt, hwatch⟩ := hput j hj hjt
      exact ⟨hact, hcnt.trans (hcount j hj hle), m, holds_new hjt, hwatch⟩
    · -- a slot without a sample would have been given this one
      have hlt : j < m := by
        rcases Nat.lt_succ_iff_lt_or_eq.mp hjm with hlt | rfl
        · exact hlt
        · exact absurd (hfill hj) hjt
      obtain ⟨hact, -, i, hi, hwatch⟩ := h.full j hj hlt
      rw [hother j hj hjt]
      refine ⟨?_, hcount j hj hlt.le, i, hi.keep hjt, ?_⟩
      · rw [survived, if_pos hlt]
        exact hact
      · rw [survived, if_pos hlt]
        exact hwatch
  · intro j hj hmj
    have hjt : t m ≠ some j := fun hjt => absurd (hput j hj hjt).1 (Nat.lt_of_succ_le hmj).not_ge
    rw [hother j hj hjt, survived, if_neg (Nat.lt_of_succ_le hmj).not_gt]
    exact h.free j hj (Nat.le_of_succ_le hmj)

/-- While there is a free slot, the next one is taken. -/
theorem getVictim_free {m : ℕ} (h : Filled maxWP r t m slots) (hm : m < maxWP) (lrand : ℕ → ℕ)
    (drand : ℕ → ℚ) :
    (getVictim maxWP .auto slots lrand drand).kind = .emptySlot ∧
    (getVictim maxWP .auto slots lrand drand).location = some m ∧
    ∀ j, j < maxWP →
      (getVictim maxWP .auto slots lrand drand).slots j = survived m slots j := by
  -- slot `m` is free, the slots before it are not
  have hfind : (List.range maxWP).find? (fun i => !(slots i).isActive) = some m := by
    refine List.find?_range_eq_some.mpr ⟨?_, List.mem_range.mpr hm, fun j hj => ?_⟩
    · rw [(h.free m hm le_rfl).1, Bool.not_false]
    · rw [(h.full j (hj.trans hm) hj).1]
      rfl
  unfold getVictim
  rw [hfind]
  refine ⟨rfl, rfl, fun j hj => ?_⟩
  have hactive : (slots j).isActive = true ↔ j < m := by
    refine ⟨fun hact => ?_, fun hlt => (h.full j hj hlt).1⟩
    by_contra hge
    rw [(h.free j hj (Nat.le_of_not_lt hge)).1] at hact
    cases hact
  simp only [surviveAll_apply (List.nodup_range.filter _), List.mem_filter, List.mem_range, hj,
    true_and, hactive]
  rfl

/-- In a full table every slot survives the sample. -/
theorem surviveAll_full {m : ℕ} (hm : maxWP ≤ m) (lrand : ℕ → ℕ) {j : ℕ} (hj : j < maxWP) :
    surviveAll slots (shuffle maxWP lrand) j = survived m slots j := by
  have hmem : j ∈ shuffle maxWP lrand :=
    (shuffle_perm _ _).mem_iff.mpr (List.mem_range.mpr hj)
  rw [surviveAll_apply (nodup_shuffle _), if_pos hmem, survived, if_pos (hj.trans_le hm)]

/-- **What `GetVictim` makes of the table.** Its random order and its probabilities come
down to `target`. -/
theorem getVictim_filled {A B : Type} {R : RandBuffer A B} {d : Draws maxWP A B} {m : ℕ}
    (h : Filled maxWP r t m slots) :
    (∀ j, j < maxWP →
      (getVictim maxWP .auto slots (R.lrand d.1) (R.drand d.2)).slots j = survived m slots j) ∧
    (target R m d = none →
      (getVictim maxWP .auto slots (R.lrand d.1) (R.drand d.2)).kind = .noneAvailable) ∧
    ∀ i, target R m d = some i →
      (getVictim maxWP .auto slots (R.lrand d.1) (R.drand d.2)).kind ≠ .noneAvailable ∧
        (getVictim maxWP .auto slots (R.lrand d.1) (R.drand d.2)).location = some i := by
  rcases Nat.lt_or_ge m maxWP with hm | hm
  · obtain ⟨hkind, hloc, hslots⟩ := h.getVictim_free hm (R.lrand d.1) (R.drand d.2)
    have htarget : target R m d = some m := if_pos hm
    rw [htarget, hkind, hloc]
    exact ⟨hslots, nofun, fun i hi => ⟨nofun, hi⟩⟩
  · -- every slot is asked in turn
    have hfind : (List.range maxWP).find? (fun i => !(slots i).isActive) = none := by
      refine List.find?_eq_none.mpr fun j hj => ?_
      have hjk := List.mem_range.mp hj
      rw [(h.full j hjk (hjk.trans_le hm)).1]
      nofun
    have hcount : ∀ i ∈ shuffle maxWP (R.lrand d.1), (slots i).samplePostFull = m - i := by
      intro i hi
      have hik := lt_of_mem_shuffle hi
      exact (h.full i hik (hik.trans_le hm)).2.1
    have hattempt := attemptReplace_eq (nodup_shuffle (R.lrand d.1)) (R.drand d.2) 0 slots hcount
    have htarget : target R m d
        = replaced (fun i => m - i) (R.drand d.2) (shuffle maxWP (R.lrand d.1)) 0 :=
      if_neg hm.not_gt
    rw [← htarget] at hattempt
    unfold getVictim
    simp only [hfind, hattempt]
    cases target R m d with
    | none => exact ⟨fun j hj => surviveAll_full hm _ hj, fun _ => rfl, nofun⟩
    | some i => exact ⟨fun j hj => surviveAll_full hm _ hj, nofun, fun j hj => ⟨nofun, hj⟩⟩

end Filled

/-! ### One subscription -/

theorem FreedFor.samplePostFull {tid : ℕ} {wpi wpi' : WPRegisterInfo} {p p' : Platform}
    {ans : RemoveAnswers} (h : FreedFor tid wpi p ans wpi' p') :
    wpi'.samplePostFull = wpi.samplePostFull := by
  rcases h with ⟨-, rfl, -⟩ | ⟨-, hdis⟩
  · rfl
  · obtain ⟨-, rfl, -⟩ := disArm_cases hdis
    rfl

/-- Arming a slot leaves its survival counter alone. -/
theorem Armed.samplePostFull {cfg : WPConfig} {tid : ℕ} {wpi : WPRegisterInfo} {r : Request}
    {p : Platform} {ans : ArmAnswers} {ok : Bool} {c : Created}
    (h : Armed cfg tid wpi r p ans ok c) : c.wpi.samplePostFull = wpi.samplePostFull := by
  cases h with
  | moved => rfl
  | missing => rfl
  | notMoved => rfl
  | opened wpi' p' p'' hmod hlen hfree =>
    show wpi'.samplePostFull = wpi.samplePostFull
    exact hfree.samplePostFull
  | notOpened wpi' p' p'' dev hmod hfree =>
    show wpi'.samplePostFull = wpi.samplePostFull
    exact hfree.samplePostFull

section

variable {L : Type}

/-- A subscription that finds a victim can arm it. -/
def Arms (T : Tool L) (w : World L) : Op → Prop
  | .subscribe tid r ans => ∀ td i, w.tData tid = some td →
      (victimOf T td ans).kind ≠ .noneAvailable → (victimOf T td ans).location = some i →
        ∃ c, armWatchPoint T.cfg tid ((victimOf T td ans).slots i) r.watchLength r.watchType
          r.va r.sampleEvent w.platform ans.arm = .ok (true, c) ∧ c.reachedEnd = true
  | _ => True

/-- The sample is the `sampledEvent` of an active slot. -/
def Retained (T : Tool L) (w : World L) (tid : ℕ) (e : Event) : Prop :=
  ∃ td j, w.tData tid = some td ∧ j < T.cfg.maxWP ∧
    (td.watchPointArray j).isActive = true ∧ (td.watchPointArray j).sampledEvent = some e

/-- Valid requests with an event each, none of which overlaps another. -/
structure Samples {n : ℕ} (r : Fin n → Request) (e : Fin n → Event) : Prop where
  valid : ∀ i, (r i).watchType ≠ .inst →
    validateWPData (r i).va (r i).watchLength = true
  disjoint : ∀ i j, i ≠ j →
    addressesOverlap (r i).va (r i).watchLength (r j).va (r j).watchLength = false
  event : ∀ i, (r i).sampleEvent = some (e i)
  /-- Every sample has an event of its own. -/
  distinct : Function.Injective e

variable {A B : Type} {n : ℕ}

/-- What a subscription is answered: the draws of the buffer, and the calls made while
arming. -/
def RandBuffer.answers {maxWP : ℕ} (R : RandBuffer A B) (d : Draws maxWP A B)
    (arm : ArmAnswers) : SubscribeAnswers where
  lrand := R.lrand d.1
  drand := R.drand d.2
  arm := arm

/-- The subscriptions of a thread, one for each sample. -/
def subscribeAll {maxWP : ℕ} (tid : ℕ) (R : RandBuffer A B) (r : Fin n → Request)
    (ω : Fin n → Draws maxWP A B) (arm : Fin n → ArmAnswers) : List Op :=
  List.ofFn fun m => .subscribe tid (r m) (R.answers (ω m) (arm m))

variable {T : Tool L} {w w' : World L} {tid : ℕ} {R : RandBuffer A B} {r : Fin n → Request}
  {e : Fin n → Event} {ω : Fin n → Draws T.cfg.maxWP A B} {arm : Fin n → ArmAnswers}

/-- A sample that is still to come overlaps no active slot. -/
theorem Filled.not_overlapped {t : Fin n → Option ℕ} {m : Fin n} {td : WPThreadData}
    (h : Filled T.cfg.maxWP r t m td.watchPointArray) (hr : Samples r e) :
    isOveralpped T.cfg.maxWP (some td) (r m).va (r m).watchLength = false := by
  refine List.any_eq_false.mpr fun j hj => ?_
  have hjk := List.mem_range.mp hj
  rcases Nat.lt_or_ge j m with hjm | hjm
  · -- the slot watches an earlier sample
    obtain ⟨-, -, i, hi, hwatch⟩ := h.full j hjk hjm
    have hne : i ≠ m := fun him => absurd (him ▸ hi.1) (lt_irrefl (m : ℕ))
    obtain ⟨hva, hrest⟩ := Prod.mk.inj hwatch
    rw [hva, (Prod.mk.inj hrest).1, hr.disjoint i m hne, Bool.and_false]
    exact Bool.false_ne_true
  · rw [(h.free j hjk hjm).1, Bool.false_and]
    exact Bool.false_ne_true

/-- The table of a thread after `m` samples. -/
def FilledFor (T : Tool L) (tid : ℕ) (r : Fin n → Request) (t : Fin n → Option ℕ) (m : ℕ)
    (w : World L) : Prop :=
  ∃ td, w.tData tid = some td ∧ Filled T.cfg.maxWP r t m td.watchPointArray

/-- **One subscription.** -/
theorem FilledFor.subscribe {m : Fin n} (hpol : T.cfg.replacementPolicy = .auto)
    (hr : Samples r e) (h : FilledFor T tid r (targets R ω) m w)
    (harms : Arms T w (.subscribe tid (r m) (R.answers (ω m) (arm m)))) :
    ∃ ret w', step T w (.subscribe tid (r m) (R.answers (ω m) (arm m))) = .running ret w' ∧
      FilledFor T tid r (targets R ω) (m + 1) w' := by
  obtain ⟨td, htd, hfilled⟩ := h
  have hvictim : victimOf T td (R.answers (ω m) (arm m)) = getVictim T.cfg.maxWP .auto
      td.watchPointArray (R.lrand (ω m).1) (R.drand (ω m).2) := by
    rw [victimOf, hpol]
    rfl
  obtain ⟨hslots, hnone, hsome⟩ := hfilled.getVictim_filled (R := R) (d := ω m)
  rw [← hvictim] at hslots hnone hsome
  -- the request is tried: it is valid, and its range is free
  have hover := hfilled.not_overlapped hr
  have hfill : (m : ℕ) < T.cfg.maxWP → targets R ω m = some ↑m := fun hm => if_pos hm
  cases htarget : targets R ω m with
  | none =>
    -- the sample is dropped, and every slot survives it
    refine ⟨_, _, wpSubscribe_noVictim htd (hr.valid m) hover (hnone htarget), _,
      Function.update_self _ _ _, ?_⟩
    refine hfilled.next hfill (fun j hj _ => hslots j hj) fun j _ hj => ?_
    rw [htarget] at hj
    cases hj
  | some i =>
    obtain ⟨hkind, hloc⟩ := hsome i htarget
    obtain ⟨c, harm, hend⟩ := harms td i htd hkind hloc
    obtain ⟨w', hw', htd'⟩ := wpSubscribe_arms htd (hr.valid m) hover hkind hloc harm
    refine ⟨_, w', hw', _, (congrFun htd' tid).trans (Function.update_self _ _ _), ?_⟩
    -- slot `i` is armed for the sample, with the counter it has by now
    have hcases := armWatchPoint_cases harm
    refine hfilled.next hfill (fun j hj hji => ?_) fun j hj hji => ?_
    · rw [htarget] at hji
      dsimp only
      rw [Function.update_of_ne fun hji' => hji (congrArg some hji'.symm)]
      exact hslots j hj
    · obtain rfl : i = j := Option.some.inj (htarget.symm.trans hji)
      dsimp only
      rw [Function.update_self, hcases.samplePostFull, hslots i hj]
      rcases hcases.slot with ⟨-, hact, hva, hlen, -, -, hev⟩ | ⟨hoff, -⟩
      · refine ⟨target_le htarget, hact, rfl, ?_⟩
        rw [WPRegisterInfo.watch, Request.watch, hva, hlen, hev _ (hr.event m), hr.event m]
      · rw [hend] at hoff
        cases hoff

/-- In a full table the retained samples are those the slots hold. -/
theorem FilledFor.retained_iff (hn : T.cfg.maxWP ≤ n) (hr : Samples r e)
    (h : FilledFor T tid r (targets R ω) n w) (i : Fin n) :
    Retained T w tid (e i) ↔ ∃ j, Holds (targets R ω) n j i := by
  obtain ⟨td, htd, hfilled⟩ := h
  -- what slot `j` watches
  have hslot : ∀ j, j < T.cfg.maxWP → (td.watchPointArray j).isActive = true ∧
      ∃ i', Holds (targets R ω) n j i' ∧
        (td.watchPointArray j).sampledEvent = some (e i') := by
    intro j hj
    obtain ⟨hact, -, i', hi', hwatch⟩ := hfilled.full j hj (hj.trans_le hn)
    refine ⟨hact, i', hi', ?_⟩
    exact (Prod.mk.inj (Prod.mk.inj hwatch).2).2.trans (hr.event i')
  constructor
  · rintro ⟨td', j, htd', hj, -, hev⟩
    obtain rfl := Option.some.inj (htd.symm.trans htd')
    -- two samples with one event are one sample
    obtain ⟨-, i', hi', hev'⟩ := hslot j hj
    obtain rfl := hr.distinct (Option.some.inj (hev.symm.trans hev'))
    exact ⟨j, hi'⟩
  · rintro ⟨j, hji⟩
    have hj : j < T.cfg.maxWP := target_lt hji.2.1
    obtain ⟨hact, i', hi', hev⟩ := hslot j hj
    obtain rfl := hji.unique hi'
    exact ⟨td, j, htd, hj, hact, hev⟩

/-- A thread that creates its table and subscribes `n` samples. -/
def sampleRun {maxWP : ℕ} (tid : ℕ) (init : InitAnswers) (R : RandBuffer A B)
    (r : Fin n → Request) (ω : Fin n → Draws maxWP A B) (arm : Fin n → ArmAnswers) : List Op :=
  .threadInit tid init :: subscribeAll tid R r ω arm

/-- **The whole run.** -/
theorem exec_filled {init : InitAnswers} (hinit : init.mallocOk = true ∧ init.setspecificOk = true)
    (hpol : T.cfg.replacementPolicy = .auto) (hr : Samples r e)
    (harms : Along (step T) (Arms T) w (sampleRun tid init R r ω arm)) :
    FilledFor T tid r (targets R ω) n
      (exec (step T) w (sampleRun tid init R r ω arm)).state := by
  have hstart : step T w (.threadInit tid init) = .running 0 ((w.setTData tid (some
      { samplePostFull := samplesPostFullResetVal
        watchPointArray := initSlots T.cfg.maxWP tid init.memory })).note [.threadInit tid]) := by
    show wpThreadInit T w tid init = _
    rw [wpThreadInit, hinit.1, hinit.2]
    rfl
  obtain ⟨w', hw', hfilled⟩ := exec_ofFn (I := FilledFor T tid r (targets R ω))
    (fun m w h harm => h.subscribe hpol hr harm)
    ⟨_, Function.update_self _ _ _, Filled.init tid init.memory⟩ (harms.2 0 _ hstart)
  have hexec : exec (step T) w (sampleRun tid init R r ω arm) = .running () w' :=
    (exec_cons_running _ hstart).trans hw'
  rw [hexec]
  exact hfilled

end

/-! ### Fairness -/

/-- **Which samples a run retains, over ideal draws.** All `n` samples are retained with
chance `maxWP / n` iff there is one slot, or no sample finds the table full. -/
theorem fair_iff {L A B : Type} [Fintype A] [Fintype B] (T : Tool L) (w : World L) (tid n : ℕ)
    (init : InitAnswers) (R : RandBuffer A B) (r : Fin n → Request) (e : Fin n → Event)
    (arm : (Fin n → Draws T.cfg.maxWP A B) → Fin n → ArmAnswers)
    (hpol : T.cfg.replacementPolicy = .auto) (hk : 1 ≤ T.cfg.maxWP) (hn : T.cfg.maxWP ≤ n)
    (hinit : init.mallocOk = true ∧ init.setspecificOk = true)
    (hR : R.Uniform T.cfg.maxWP n) (hr : Samples r e)
    (harms : ∀ ω, Along (step T) (Arms T) w (sampleRun tid init R r ω (arm ω))) :
    (∀ i, chance (fun ω =>
        Retained T (exec (step T) w (sampleRun tid init R r ω (arm ω))).state tid (e i))
      = T.cfg.maxWP / n) ↔ T.cfg.maxWP = 1 ∨ n = T.cfg.maxWP := by
  rw [← retained_iff hR hk hn]
  refine forall_congr' fun i => ?_
  rw [chance_congr fun ω => (exec_filled hinit hpol hr (harms ω)).retained_iff hn hr i]

/-! ### Two reservoirs -/

/-- Draws from `maxWP` and from `N` numbers. -/
def RandBuffer.grid (maxWP N : ℕ) : RandBuffer (Fin maxWP) (Fin N) where
  lrand48 := fun v => v
  drand48 := fun v => (v + 1) / N

/-- They are ideal among `n` samples when `N` is a multiple of every number up to `n`. -/
theorem RandBuffer.grid_uniform {maxWP n N : ℕ} (hN : 0 < N) (hdvd : ∀ d, 1 ≤ d → d ≤ n → d ∣ N) :
    (RandBuffer.grid maxWP N).Uniform maxWP n := by
  constructor
  · intro i hi
    rw [← chance_fin_eq hi]
    -- a multiple of `maxWP` values, so every remainder is met equally often
    refine chance_congr fun v => ?_
    show (v : ℕ) % maxWP = i ↔ _
    rw [Nat.mod_eq_of_lt v.isLt]
  · intro d h0 hd
    obtain ⟨q, rfl⟩ := hdvd d h0 hd
    have hd0 : (0 : ℚ) < d := Nat.cast_pos.mpr h0
    have hq0 : (0 : ℚ) < q := Nat.cast_pos.mpr (Nat.pos_of_mul_pos_left hN)
    -- of the `d * q` values the first `q` are at most `1 / d`
    have hle : ∀ v : Fin (d * q),
        (RandBuffer.grid maxWP (d * q)).drand48 v ≤ 1 / d ↔ (v : ℕ) < q := by
      intro v
      show ((v : ℚ) + 1) / ((d * q : ℕ) : ℚ) ≤ 1 / d ↔ _
      rw [Nat.cast_mul, div_le_div_iff₀ (mul_pos hd0 hq0) hd0, one_mul, mul_comm,
        mul_le_mul_iff_right₀ hd0, ← Nat.cast_succ, Nat.cast_le, Nat.succ_le_iff]
    rw [chance_congr hle, chance_fin_lt (Nat.le_mul_of_pos_left q h0), Nat.cast_mul]
    field_simp

theorem Platform.removeDevice_success (p : Platform) (tid : ℕ) (fd : ℤ) (b : Bool) :
    ∃ p', p.removeDevice tid fd b ⟨true, true⟩ = .ok p' := by
  unfold Platform.removeDevice
  cases p.getDevice tid fd with
  | none => exact ⟨_, rfl⟩
  | some dev => exact ⟨_, rfl⟩

/-- A device is registered when every call succeeds. -/
theorem Platform.registerDevice_success (p : Platform) (tid : ℕ) (dev : Device) (s : ℤ) {fd : ℤ}
    (hfd : fd ≠ -1) : ∃ p', p.registerDevice tid dev s ⟨fd, true, true, true, true, true, true⟩ =
      .ok (0, { dev with sessionId := s, deviceFileId := fd }, p') := by
  have hopen : p.openDevice dev s ⟨fd, true, true, true, true, true, true⟩ =
      .ok (0, { dev with sessionId := s, deviceFileId := fd }, p.leftOpen fd) := if_neg hfd
  unfold Platform.registerDevice
  rw [hopen]
  exact ⟨_, rfl⟩

theorem createWatchPoint_success (tid : ℕ) {r : Request} {fd : ℤ} (hfd : fd ≠ -1)
    (hlen : SupportedLength r.watchLength) (wpi : WPRegisterInfo) (p : Platform) :
    ∃ p', createWatchPoint tid wpi r.watchLength r.watchType r.va false r.sampleEvent p
      (SubscribeAnswers.success fd).arm
      = .ok ⟨{ wpi with fileHandle := fd }.arm r.va r.watchLength r.sampleEvent 0, p', true⟩ := by
  have hbp : hwBreakpointLen r.watchLength = some r.watchLength := by
    rcases hlen with h | h | h | h <;> rw [h] <;> rfl
  obtain ⟨p', hp'⟩ := p.registerDevice_success tid
    (BPDevice r.watchLength (hwBreakpointType r.watchType) r.va) (p.sessionKey tid) hfd
  refine ⟨p', ?_⟩
  unfold createWatchPoint
  simp only [hbp, Bool.false_eq_true, if_false, SubscribeAnswers.success, hp', ne_eq,
    not_true_eq_false]

theorem disArm_success (tid : ℕ) {wpi : WPRegisterInfo} (hfd : wpi.fileHandle ≠ -1)
    (p : Platform) : ∃ p', disArm tid wpi p ⟨true, true⟩
      = .ok ({ wpi with fileHandle := -1, isActive := false }, p') := by
  obtain ⟨p', hp'⟩ := p.removeDevice_success tid wpi.fileHandle true
  refine ⟨p', ?_⟩
  rw [disArm, if_neg hfd, hp']

/-- Without in-place modification a slot can be armed when the calls made meanwhile succeed. -/
theorem armWatchPoint_success {cfg : WPConfig} {tid : ℕ} {wpi : WPRegisterInfo} {r : Request}
    {fd : ℤ} (hmod : cfg.isWPModifyEnabled = false) (hfd : fd ≠ -1)
    (hlen : SupportedLength r.watchLength)
    (hhandle : wpi.isActive = true → wpi.fileHandle ≠ -1) (p : Platform) :
    ∃ c, armWatchPoint cfg tid wpi r.watchLength r.watchType r.va r.sampleEvent p
      (SubscribeAnswers.success fd).arm = .ok (true, c) ∧ c.reachedEnd = true := by
  have hkeep : ¬ (cfg.isWPModifyEnabled = true ∧ wpi.fileHandle ≠ -1) := by
    rw [hmod]
    exact fun h => Bool.false_ne_true h.1
  -- the slot is off by the time it is armed
  have hfree : ∃ wpi' p', (if wpi.isActive then disArm tid wpi p ⟨true, true⟩
      else .ok (wpi, p)) = .ok (wpi', p') := by
    cases hact : wpi.isActive with
    | false => exact ⟨wpi, p, rfl⟩
    | true =>
      obtain ⟨p', hp'⟩ := disArm_success tid (hhandle hact) p
      exact ⟨_, p', hp'⟩
  obtain ⟨wpi', p', hfree⟩ := hfree
  obtain ⟨p'', hcreate⟩ := createWatchPoint_success tid hfd hlen wpi' p'
  have hset : decide (({ wpi' with fileHandle := fd }.arm r.va r.watchLength r.sampleEvent
      0).fileHandle ≠ -1) = true := decide_eq_true hfd
  refine ⟨⟨{ wpi' with fileHandle := fd }.arm r.va r.watchLength r.sampleEvent 0, p'', true⟩,
    ?_, rfl⟩
  unfold armWatchPoint
  rw [if_neg hkeep]
  simp only [SubscribeAnswers.success] at hcreate ⊢
  simp only [hfree, hcreate, hset]

/-- Without in-place modification every victim can be armed, when the system calls made
meanwhile succeed. -/
theorem arms_success {L : Type} {T : Tool L} {w : World L} {tid : ℕ} {r : Request}
    {ans : SubscribeAnswers} {fd : ℤ} (hmod : T.cfg.isWPModifyEnabled = false) (hfd : fd ≠ -1)
    (hans : ans.arm = (SubscribeAnswers.success fd).arm) (hlen : SupportedLength r.watchLength)
    (h : TablesInv T w) : Arms T w (.subscribe tid r ans) := by
  intro td i htd _ hloc
  have halike := victimOf_alike T td ans i
  rw [hans]
  refine armWatchPoint_success hmod hfd hlen (fun hact => ?_) w.platform
  -- an active victim has a device to give up
  rw [halike.isActive_eq] at hact
  rw [halike]
  exact ((h tid td htd).slot i (getVictim_lt hloc) hact).handle
/-- A subscription of a supported length, every call of which succeeds. -/
def Op.Succeeds (fd : ℤ) : Op → Prop
  | .subscribe _ r ans =>
    ans.arm = (SubscribeAnswers.success fd).arm ∧ SupportedLength r.watchLength
  | _ => True

theorem along_arms {L : Type} {T : Tool L} {p : Platform} {logic : L} {fd : ℤ} {ops : List Op}
    (hmod : T.cfg.isWPModifyEnabled = false) (hfd : fd ≠ -1)
    (hops : ∀ op ∈ ops, op.WellFormed ∧ op.Succeeds fd) :
    Along (step T) (Arms T) (World.fresh p logic) ops := by
  refine Along.of_invariant (I := TablesInv T) (fun w op ret w' h hop hs => h.step hop.1 hs)
    (fun w op h hop => ?_) (.fresh p logic) (along_of_forall hops)
  cases op with
  | subscribe tid r ans => exact arms_success hmod hfd hop.2.1 hop.2.2 h
  | threadInit => trivial
  | onWatchPoint => trivial
  | threadTerminate => trivial
  | pause => trivial
  | resume => trivial
  | devices => trivial

/-! ### Two runs -/

/-- The events of three stores, eight bytes apart. -/
def storeEvent (i : Fin 3) : Event := .storeAt i (0x1000 + 8 * UInt64.ofNat i)

/-- Requests for the three stores. -/
def storeSample (i : Fin 3) : Request := .storeAt i (0x1000 + 8 * UInt64.ofNat i)

theorem storeSample_samples : Samples storeSample storeEvent where
  valid := by decide
  disjoint := by decide
  event := fun _ => rfl
  distinct := by
    intro i j hij
    exact Fin.ext (congrArg Event.self hij)

/-- Thread 1 subscribes the three stores, with `maxWP` slots. -/
abbrev storeRun (maxWP : ℕ) (ω : Fin 3 → Draws maxWP (Fin maxWP) (Fin 6)) : List Op :=
  sampleRun 1 (.success none) (.grid maxWP 6) storeSample ω fun _ =>
    (SubscribeAnswers.success 3).arm

theorem storeRun_arms (maxWP : ℕ) (ω : Fin 3 → Draws maxWP (Fin maxWP) (Fin 6)) :
    Along (step (Tool.always false maxWP .disable)) (Arms (Tool.always false maxWP .disable))
      (World.fresh .idle ()) (storeRun maxWP ω) := by
  have hwell : ∀ i, (storeSample i).WellFormed := by
    intro i
    refine ⟨nofun, ?_⟩
    revert i
    decide
  refine @along_arms _ _ _ _ 3 _ rfl (by decide) fun op hop => ?_
  rcases List.mem_cons.mp hop with rfl | hop
  · exact ⟨trivial, trivial⟩
  · obtain ⟨i, rfl⟩ := (List.mem_ofFn' _ _).mp hop
    exact ⟨hwell i, rfl, Or.inr (Or.inr (Or.inr rfl))⟩

theorem grid_six (maxWP : ℕ) : (RandBuffer.grid maxWP 6).Uniform maxWP 3 :=
  RandBuffer.grid_uniform (by decide) (by decide)

/-- With one slot the first of three stores is retained every third time. -/
theorem fair_oneSlot : chance (fun ω =>
    Retained (Tool.always false 1 .disable)
      (exec (step (Tool.always false 1 .disable)) (World.fresh .idle ()) (storeRun 1 ω)).state 1
      (storeEvent 0)) = (1 : ℕ) / (3 : ℕ) :=
  (fair_iff (Tool.always false 1 .disable) (World.fresh .idle ()) 1 3 (.success none)
    (.grid 1 6) storeSample storeEvent (fun _ _ => (SubscribeAnswers.success 3).arm) rfl le_rfl
    (by decide) ⟨rfl, rfl⟩ (grid_six 1) storeSample_samples (storeRun_arms 1)).mpr (Or.inl rfl) 0

/-- **With two slots the first store is retained more often than two times out of three.** -/
theorem unfair_twoSlots : ¬ ∀ i, chance (fun ω =>
    Retained (Tool.always false 2 .disable)
      (exec (step (Tool.always false 2 .disable)) (World.fresh .idle ()) (storeRun 2 ω)).state 1
      (storeEvent i)) = (2 : ℕ) / (3 : ℕ) := by
  intro hfair
  have hfirst := chance_holds_first (grid_six 2) le_rfl (by decide) (0 : Fin 3) rfl
  rw [← hfair 0] at hfirst
  refine absurd (chance_mono fun ω h => ?_) hfirst.not_ge
  exact ((exec_filled (T := Tool.always false 2 .disable) ⟨rfl, rfl⟩ rfl storeSample_samples
    (storeRun_arms 2 ω)).retained_iff (by decide) storeSample_samples 0).mpr ⟨0, h⟩

end Kognizance
