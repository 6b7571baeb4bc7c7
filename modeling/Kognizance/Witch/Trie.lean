import Kognizance.Lib.Run
import Kognizance.Lib.Trie
import Kognizance.Witch.Steps

/-!
# The context tree is a trie

`addFramesToContextTree` walks down from a context along the frames of a call stack, and
hangs a new context where no child has the frame. So the contexts below a context stand for
the call stacks that were inserted there, each for one.

* `TreeOk.addFrames_leads`: the walk ends where its frames lead, siblings keep different
  frames, and the old contexts keep their place (`Extended`).
* `insertions_trie`: the same for every sequence of insertions, and two insertions at one
  context end at the same context exactly if their frames are the same.
-/

namespace Kognizance

open Process WitchLogic Arena

namespace WitchLogic

variable {σ σ' σ'' : WitchLogic}

/-! ### The set of children -/

/-- `ContextHasher` -/
def contextHasher (frame : ContextFrame) : ℤ := frame.src_lineno

/-- `ContextComparator` -/
def contextComparator (frame1 frame2 : ContextFrame) : Bool :=
  frame1.binary_addr = frame2.binary_addr && frame1.src_lineno = frame2.src_lineno

/-- `children.find`, as the hash table does it: in the bucket of the hash. -/
def findInBucket (σ : WitchLogic) (c : ℕ) (frame : ContextFrame) : Option ℕ :=
  ((σ.context c).children.filter fun d =>
    contextHasher (σ.context d).frame = contextHasher frame).find? fun d =>
      contextComparator (σ.context d).frame frame

theorem contextComparator_iff (frame1 frame2 : ContextFrame) :
    contextComparator frame1 frame2 = true ↔ frame1 = frame2 := by
  cases frame1
  cases frame2
  simp [contextComparator]

/-- **The hash is consistent with the comparison**, so the bucket holds every equal frame. -/
theorem findInBucket_eq (σ : WitchLogic) (c : ℕ) (frame : ContextFrame) :
    σ.findInBucket c frame = σ.findChild c frame := by
  unfold findInBucket findChild
  rw [List.find?_filter]
  congr 1
  funext d
  have hiff := contextComparator_iff (σ.context d).frame frame
  by_cases heq : (σ.context d).frame = frame
  · rw [hiff.mpr heq, heq]
    simp
  · rw [Bool.eq_false_iff.mpr fun h => heq (hiff.mp h), decide_eq_false heq]
    simp

/-! ### Paths of frames -/

/-- The frames lead from the first context down to the second. -/
def Leads (σ : WitchLogic) : ℕ → List ContextFrame → ℕ → Prop :=
  Path σ.kids fun c => (σ.context c).frame

/-- The children of a context are pairwise different under `ContextComparator`. -/
def SiblingsDiffer (σ : WitchLogic) : Prop :=
  Distinct σ.kids fun c => (σ.context c).frame

/-- The context reached over `_parent`, so many times. -/
def levelsUp (σ : WitchLogic) (c : ℕ) : ℕ → Option ℕ
  | 0 => some c
  | n + 1 => (σ.levelsUp c n).bind fun p => (σ.context p)._parent

/-- Down along the frames and up over `_parent` are the same way. -/
theorem TreeOk.levelsUp_of_leads (h : σ.TreeOk) {c d : ℕ} {frames : List ContextFrame}
    (hpath : σ.Leads c frames d) : σ.levelsUp d frames.length = some c := by
  induction hpath with
  | nil => rfl
  | cons hd _ ih =>
    rw [List.length_cons, levelsUp, ih, Option.bind_some]
    exact h.parent _ _ hd

/-- The tree has grown at new contexts only: every old one keeps its frame, its parent and
its children, and gets no old context as a child. -/
structure Extended (σ σ' : WitchLogic) : Prop extends Grown σ σ' where
  kept : ∀ p, σ.kids p ⊆ σ'.kids p
  fresh : ∀ p, ∀ c ∈ σ'.kids p, c < σ.nextContext → c ∈ σ.kids p

theorem Extended.refl (σ : WitchLogic) : Extended σ σ :=
  { Grown.refl σ with
    kept := fun _ _ hc => hc
    fresh := fun _ _ hc _ => hc }

theorem Extended.trans (h : Extended σ σ') (h' : Extended σ' σ'') : Extended σ σ'' :=
  { h.toGrown.trans h'.toGrown with
    kept := fun p _ hc => h'.kept p (h.kept p hc)
    fresh := fun p c hc hlt => h.fresh p c (h'.fresh p c hc (hlt.trans_le h.next)) hlt }

/-- Where frames lead, they still lead afterwards. -/
theorem Extended.leads (h : Extended σ σ') (hok : σ.TreeOk) {c d : ℕ}
    {frames : List ContextFrame} (hpath : σ.Leads c frames d) : σ'.Leads c frames d :=
  hpath.mono h.kept fun _ _ hc => h.frame _ (hok.forest.lt_bound hc)

theorem setContextType_kids (c : ℕ) (ctype : ContextType) :
    (σ.setContextType c ctype).kids = σ.kids := by
  rw [setContextType_eq, setMetric_kids]

theorem extended_setContextType (c : ℕ) (ctype : ContextType) :
    Extended σ (σ.setContextType c ctype) :=
  { grown_setContextType c with
    kept := fun p _ hc => by rwa [setContextType_kids]
    fresh := fun p _ hc _ => by rwa [setContextType_kids] at hc }

theorem SiblingsDiffer.setContextType (h : σ.SiblingsDiffer) (c : ℕ) (ctype : ContextType) :
    (σ.setContextType c ctype).SiblingsDiffer := by
  unfold SiblingsDiffer
  rw [setContextType_kids, setContextType_eq]
  simp only [setMetric_frame]
  exact h

theorem TreeOk.extended_insertChild (h : σ.TreeOk) {p : ℕ} (hp : p < σ.nextContext)
    (frame : ContextFrame) : Extended σ (σ.insertChild p frame) :=
  { h.grown_insertChild hp frame with
    kept := by
      intro q c hc
      rw [insertChild_kids hp (h.unborn _ le_rfl)]
      exact mem_hang.mpr (Or.inr hc)
    fresh := by
      intro q c hc hlt
      rw [insertChild_kids hp (h.unborn _ le_rfl)] at hc
      rcases mem_hang.mp hc with ⟨-, rfl⟩ | hc
      · exact absurd hlt (lt_irrefl _)
      · exact hc }

/-- A child is inserted where no sibling has its frame. -/
theorem SiblingsDiffer.insertChild (hD : σ.SiblingsDiffer) (h : σ.TreeOk) {p : ℕ}
    (hp : p < σ.nextContext) {frame : ContextFrame} (hnone : σ.findChild p frame = none) :
    (σ.insertChild p frame).SiblingsDiffer := by
  unfold SiblingsDiffer
  rw [insertChild_kids hp (h.unborn _ le_rfl)]
  refine h.forest.distinct_hang hD (fun q c hc => ?_) fun c hc => ?_
  · rw [insertChild_frame hp, if_neg (h.forest.lt_bound hc).ne]
  · rw [insertChild_frame hp, if_pos rfl]
    have hno := List.find?_eq_none.mp hnone c hc
    simpa using hno

/-- **One insertion.** It ends where its frames lead, and keeps siblings apart and the old
contexts in their place. -/
theorem TreeOk.addFrames_leads (h : σ.TreeOk) (hD : σ.SiblingsDiffer) (ctype : ContextType)
    {c : ℕ} (hc : c < σ.nextContext) (frames : List ContextFrame) :
    let added := WitchLogic.addFrames ctype frames σ c
    added.1.SiblingsDiffer ∧ Extended σ added.1 ∧ added.1.Leads c frames added.2 := by
  induction frames generalizing σ c with
  | nil => exact ⟨hD, .refl σ, .nil c⟩
  | cons frame frames ih =>
    unfold WitchLogic.addFrames
    cases hfind : σ.findChild c frame with
    | some d =>
      obtain ⟨hd, rfl⟩ := findChild_eq_some hfind
      obtain ⟨hok, hlt, -⟩ := h.found hfind ctype
      obtain ⟨hD', hext, hpath⟩ := ih hok (hD.setContextType d ctype) hlt
      have hall := (extended_setContextType d ctype).trans hext
      refine ⟨hD', hall, ?_⟩
      -- the child is still there, with its frame
      rw [← hall.frame d (h.forest.lt_bound hd)]
      exact .cons (hall.kept c hd) hpath
    | none =>
      obtain ⟨hok, hlt, -⟩ := h.inserted hc frame ctype
      have hnew := (hD.insertChild h hc hfind).setContextType σ.nextContext ctype
      obtain ⟨hD', hext, hpath⟩ := ih hok hnew hlt
      have hins := h.extended_insertChild hc frame
      have hmid := extended_setContextType (σ := σ.insertChild c frame) σ.nextContext ctype
      refine ⟨hD', (hins.trans hmid).trans hext, ?_⟩
      have hkid : σ.nextContext ∈ (σ.insertChild c frame).kids c := by
        rw [insertChild_kids hc (h.unborn _ le_rfl)]
        exact mem_hang.mpr (Or.inl ⟨rfl, rfl⟩)
      have hframe := (hmid.trans hext).frame σ.nextContext (Nat.lt_succ_self _)
      rw [insertChild_frame hc, if_pos rfl] at hframe
      have hstep := Path.cons ((hmid.trans hext).kept c hkid) hpath
      rw [hframe] at hstep
      exact hstep

/-! ### Sequences of insertions -/

/-- One call of `addFramesToContextTree`. -/
structure Insertion where
  contextFrameList : List ContextFrame
  root : ℕ
  direction_ParentToChild : Bool
  ctype : ContextType

/-- The frames in the order in which the walk reads them. -/
def Insertion.directed (op : Insertion) : List ContextFrame :=
  if op.direction_ParentToChild then op.contextFrameList.reverse else op.contextFrameList

/-- The call. It returns the context it ends at. -/
def insertStep (σ : WitchLogic) (op : Insertion) : Outcome WitchLogic ℕ :=
  let added := σ.addFramesToContextTree op.contextFrameList op.root op.direction_ParentToChild
    op.ctype
  .running added.2 added.1

/-- The insertion starts at a context of the tree. -/
def StartsInTree (σ : WitchLogic) (op : Insertion) : Prop := op.root < σ.nextContext

instance (σ : WitchLogic) (op : Insertion) : Decidable (StartsInTree σ op) :=
  inferInstanceAs (Decidable (_ < _))

/-- The tree after a sequence of insertions into a new one. -/
def treeAfter (ops : List Insertion) : WitchLogic := (exec insertStep .new ops).state

/-- The context that the insertion returns which follows the sequence. -/
def returned (ops : List Insertion) (op : Insertion) : ℕ :=
  ((treeAfter ops).addFramesToContextTree op.contextFrameList op.root op.direction_ParentToChild
    op.ctype).2

theorem TreeOk.inserts (h : σ.TreeOk) (hD : σ.SiblingsDiffer) {op : Insertion} {c : ℕ}
    (hop : StartsInTree σ op) (hs : insertStep σ op = .running c σ') :
    σ'.TreeOk ∧ σ'.SiblingsDiffer ∧ Extended σ σ' ∧ σ'.Leads op.root op.directed c := by
  obtain ⟨rfl, rfl⟩ := Outcome.running.inj hs
  obtain ⟨hD', hext, hpath⟩ := h.addFrames_leads hD op.ctype hop op.directed
  exact ⟨(h.addFrames op.ctype hop op.directed).1, hD', hext, hpath⟩

/-- A sequence of insertions runs to its end. -/
theorem exec_insertStep (σ : WitchLogic) (ops : List Insertion) :
    exec insertStep σ ops = .running () (exec insertStep σ ops).state := by
  induction ops generalizing σ with
  | nil => rfl
  | cons op ops ih =>
    obtain ⟨c, σ', hs⟩ : ∃ c σ', insertStep σ op = .running c σ' := ⟨_, _, rfl⟩
    rw [exec_cons_running _ hs]
    exact ih σ'

/-- **A sequence of insertions** keeps the tree, siblings apart and the old contexts in
their place. -/
theorem TreeOk.insertions (h : σ.TreeOk) (hD : σ.SiblingsDiffer) {ops : List Insertion}
    (hops : Along insertStep StartsInTree σ ops) :
    let σ' := (exec insertStep σ ops).state
    σ'.TreeOk ∧ σ'.SiblingsDiffer ∧ Extended σ σ' := by
  refine exec_invariant (I := fun σ' => σ'.TreeOk ∧ σ'.SiblingsDiffer ∧ Extended σ σ') ?_
    ⟨h, hD, .refl σ⟩ hops (exec_insertStep σ ops)
  rintro σ₁ op c σ₂ ⟨h₁, hD₁, hext₁⟩ hop hs
  obtain ⟨h₂, hD₂, hext₂, -⟩ := h₁.inserts hD₁ hop hs
  exact ⟨h₂, hD₂, hext₁.trans hext₂⟩

theorem siblingsDiffer_new : WitchLogic.new.SiblingsDiffer :=
  fun _ _ hc => absurd hc List.not_mem_nil

theorem treeAfter_append (pre post : List Insertion) :
    treeAfter (pre ++ post) = (exec insertStep (treeAfter pre) post).state :=
  congrArg Outcome.state (exec_append (exec_insertStep .new pre) post)

/-- What an insertion returns is found at the end of its frames, whatever is inserted
afterwards. -/
theorem leads_returned {pre post : List Insertion} {op : Insertion}
    (hops : Along insertStep StartsInTree .new (pre ++ op :: post)) :
    (treeAfter (pre ++ op :: post)).Leads op.root op.directed (returned pre op) := by
  obtain ⟨h, hD, -⟩ := treeOk_new.insertions siblingsDiffer_new hops.left
  obtain ⟨hop, hpost⟩ := hops.right (exec_insertStep .new pre)
  obtain ⟨σ', hs⟩ : ∃ σ', insertStep (treeAfter pre) op = .running (returned pre op) σ' :=
    ⟨_, rfl⟩
  obtain ⟨h', hD', -, hpath⟩ := h.inserts hD hop hs
  rw [treeAfter_append, exec_cons_running _ hs]
  exact (h'.insertions hD' (hpost _ _ hs)).2.2.leads h' hpath

/-- **The context tree is a trie of call stacks.** After every sequence of insertions,
siblings differ; each returned context lies below the start as many levels as there were
frames, which lead there in their direction; two insertions at one context returned the same
context exactly if their frames were the same; and no insertion has moved an old context. -/
theorem insertions_trie {ops : List Insertion} (hops : Along insertStep StartsInTree .new ops) :
    (treeAfter ops).SiblingsDiffer ∧
    (∀ pre op post, ops = pre ++ op :: post →
      (treeAfter ops).Leads op.root op.directed (returned pre op) ∧
      (treeAfter ops).levelsUp (returned pre op) op.contextFrameList.length = some op.root ∧
      Extended (treeAfter pre) (treeAfter (pre ++ [op]))) ∧
    ∀ pre op mid op' post, ops = pre ++ op :: (mid ++ op' :: post) → op.root = op'.root →
      (returned pre op = returned (pre ++ op :: mid) op' ↔ op.directed = op'.directed) := by
  obtain ⟨h, hD, -⟩ := treeOk_new.insertions siblingsDiffer_new hops
  refine ⟨hD, ?_, ?_⟩
  · rintro pre op post rfl
    have hpath := leads_returned hops
    have hlength : op.directed.length = op.contextFrameList.length := by
      unfold Insertion.directed
      split_ifs
      · exact List.length_reverse
      · rfl
    refine ⟨hpath, ?_, ?_⟩
    · rw [← hlength]
      exact h.levelsUp_of_leads hpath
    · obtain ⟨hpre, hDpre, -⟩ := treeOk_new.insertions siblingsDiffer_new hops.left
      have hone : Along insertStep StartsInTree (treeAfter pre) [op] :=
        ⟨(hops.right (exec_insertStep .new pre)).1, fun _ _ _ => trivial⟩
      rw [treeAfter_append]
      exact (hpre.insertions hDpre hone).2.2
  · rintro pre op mid op' post rfl hroot
    -- both contexts are reached from the same start in the last tree
    have hpath := leads_returned hops
    have hsplit : pre ++ op :: (mid ++ op' :: post) = (pre ++ op :: mid) ++ op' :: post := by
      simp
    rw [hsplit] at hops
    have hpath' := leads_returned hops
    rw [← hsplit, ← hroot] at hpath'
    exact h.forest.path_eq_iff hD hpath hpath'

/-- Two call stacks that share their outermost frame, read in the two directions. -/
def twoStacks : List Insertion :=
  [⟨[⟨0x50, 1⟩, ⟨0x40, 1⟩], 0, true, .sampledContext⟩,
    ⟨[⟨0x40, 1⟩, ⟨0x60, 1⟩], 0, false, .usedContext⟩]

theorem insertions_trie_twoStacks : (treeAfter twoStacks).SiblingsDiffer ∧
    (treeAfter twoStacks).levelsUp (returned [] twoStacks[0]) 2 = some contextTreeRoot ∧
    returned [] twoStacks[0] ≠ returned [twoStacks[0]] twoStacks[1] := by
  have hops : Along insertStep StartsInTree .new twoStacks :=
    .cons Nat.one_pos rfl (.cons (by decide +kernel) rfl trivial)
  obtain ⟨hD, hpath, hsame⟩ := insertions_trie hops
  refine ⟨hD, (hpath [] twoStacks[0] [twoStacks[1]] rfl).2.1, fun heq => ?_⟩
  have hframes := (hsame [] twoStacks[0] [] twoStacks[1] [] rfl rfl).mp heq
  exact absurd hframes (by decide)

end WitchLogic

end Kognizance
