import Mathlib.Logic.Relation
import Mathlib.Data.List.Nodup
import Mathlib.Data.List.Perm.Basic
import Mathlib.Data.List.Flatten
import Mathlib.Algebra.BigOperators.Group.Finset.Piecewise
import Mathlib.Algebra.Order.BigOperators.Group.Finset

/-!
# Pointer trees in an arena

Nodes are natural numbers handed out by a counter, and `kids p` lists the nodes
a node points to. `Forest kids bound` says that such an arena is a forest:
children are younger than their parent and below the counter, no child is listed
twice, and no node has two parents. Everything else about the shape follows:

* the nodes `Below` two siblings are disjoint (`Forest.siblings_disjoint`);
* a depth-first walk with enough fuel visits exactly the nodes below its start,
  each once (`Forest.mem_traverse_iff`, `Forest.traverse_nodup`);
* a walk that adds to every node the sum of its children, in place, returns the
  sum over the nodes below its start (`Forest.rollUp_fst`), and leaves every node
  with the sum over the nodes below it (`Forest.rollUp_snd`);
* hanging a fresh node under an old one keeps a forest (`Forest.hang`).

`belowSum` is the sum of a weight over the nodes below a root, with its laws for
changing one weight and for hanging a fresh node.
-/

namespace Arena

variable {kids : ℕ → List ℕ} {bound : ℕ}

/-- `x` is reached from `c` by following children. -/
abbrev Below (kids : ℕ → List ℕ) : ℕ → ℕ → Prop :=
  Relation.ReflTransGen fun p c => c ∈ kids p

/-- The arena is a forest whose nodes are older than `bound`. -/
structure Forest (kids : ℕ → List ℕ) (bound : ℕ) : Prop where
  /-- A child is younger than its parent. -/
  lt : ∀ {p c}, c ∈ kids p → p < c
  /-- Every child has been handed out. -/
  lt_bound : ∀ {p c}, c ∈ kids p → c < bound
  /-- No child is listed twice. -/
  nodup : ∀ p, (kids p).Nodup
  /-- No node has two parents. -/
  parent_unique : ∀ {p q c}, c ∈ kids p → c ∈ kids q → p = q

namespace Forest

theorem le_of_below (hF : Forest kids bound) {c x : ℕ} (h : Below kids c x) : c ≤ x := by
  induction h with
  | refl => exact le_refl c
  | tail _ hx ih => exact ih.trans (hF.lt hx).le

theorem below_lt_bound (hF : Forest kids bound) {c x : ℕ} (h : Below kids c x)
    (hc : c < bound) : x < bound := by
  cases h with
  | refl => exact hc
  | tail _ hx => exact hF.lt_bound hx

/-- The ancestors of a node are linearly ordered. -/
theorem below_linear (hF : Forest kids bound) {c d x : ℕ} (hc : Below kids c x)
    (hd : Below kids d x) : Below kids c d ∨ Below kids d c := by
  -- walk up from `x`: its parent lies on both paths
  induction hc with
  | refl => exact Or.inr hd
  | tail hcy hyx ih =>
    cases hd with
    | refl => exact Or.inl (hcy.tail hyx)
    | tail hdz hzx => exact ih (hF.parent_unique hzx hyx ▸ hdz)

/-- A child is not above its own parent. -/
theorem not_below_parent (hF : Forest kids bound) {p c : ℕ} (hc : c ∈ kids p) :
    ¬ Below kids c p :=
  fun h => absurd (hF.le_of_below h) (not_le.mpr (hF.lt hc))

/-- A sibling is not above its sibling: its parent would be in between. -/
theorem not_below_sibling (hF : Forest kids bound) {p c d : ℕ} (hc : c ∈ kids p)
    (hd : d ∈ kids p) (hne : c ≠ d) : ¬ Below kids c d := by
  intro h
  cases h with
  | refl => exact hne rfl
  | tail hcq hqd => exact hF.not_below_parent hc (hF.parent_unique hqd hd ▸ hcq)

theorem siblings_disjoint (hF : Forest kids bound) {p c d x : ℕ} (hc : c ∈ kids p)
    (hd : d ∈ kids p) (hne : c ≠ d) (hx : Below kids c x) : ¬ Below kids d x := by
  intro hx'
  rcases hF.below_linear hx hx' with h | h
  · exact hF.not_below_sibling hc hd hne h
  · exact hF.not_below_sibling hd hc hne.symm h

end Forest

/-! ### Leaving edges out -/

section Thinned

variable {kids' : ℕ → List ℕ}

/-- Leaving edges out keeps a forest. -/
theorem Forest.sublist (hF : Forest kids bound) (h : ∀ p, (kids' p).Sublist (kids p)) :
    Forest kids' bound where
  lt hc := hF.lt ((h _).subset hc)
  lt_bound hc := hF.lt_bound ((h _).subset hc)
  nodup p := (hF.nodup p).sublist (h p)
  parent_unique hc hc' := hF.parent_unique ((h _).subset hc) ((h _).subset hc')

/-- A child is reached through its parent, over an edge that was not left out. -/
theorem Forest.below_child_iff (hF : Forest kids bound) (h : ∀ p, kids' p ⊆ kids p) {r p c : ℕ}
    (hc : c ∈ kids p) (hr : r ≠ c) : Below kids' r c ↔ Below kids' r p ∧ c ∈ kids' p := by
  constructor
  · intro hb
    cases hb with
    | refl => exact absurd rfl hr
    | @tail q _ hq hqc =>
      obtain rfl := hF.parent_unique (h q hqc) hc
      exact ⟨hq, hqc⟩
  · exact fun ⟨hp, hpc⟩ => hp.tail hpc

end Thinned

/-! ### The depth-first walk -/

/-- The nodes a depth-first walk from a node visits, parents first, with a fuel
for its depth. -/
def traverse (kids : ℕ → List ℕ) : ℕ → ℕ → List ℕ
  | 0, _ => []
  | n + 1, c => c :: (kids c).flatMap (traverse kids n)

/-- The same nodes, children first. -/
def postorder (kids : ℕ → List ℕ) : ℕ → ℕ → List ℕ
  | 0, _ => []
  | n + 1, c => (kids c).flatMap (postorder kids n) ++ [c]

theorem postorder_perm (n c : ℕ) : (postorder kids n c).Perm (traverse kids n c) := by
  induction n generalizing c with
  | zero => exact List.Perm.refl _
  | succ n ih =>
    have hk : ((kids c).flatMap (postorder kids n)).Perm ((kids c).flatMap (traverse kids n)) :=
      List.Perm.flatMap_left _ fun d _ => ih d
    exact (List.perm_append_singleton c _).trans (hk.cons c)

theorem below_of_mem_traverse {n c x : ℕ} (h : x ∈ traverse kids n c) : Below kids c x := by
  induction n generalizing c with
  | zero => cases h
  | succ n ih =>
    rcases List.mem_cons.mp h with rfl | h
    · exact .refl
    · obtain ⟨d, hd, hx⟩ := List.mem_flatMap.mp h
      exact .head hd (ih hx)

namespace Forest

variable (hF : Forest kids bound)

include hF

/-- With fuel for the nodes not yet handed out below it, the walk visits exactly
the nodes below its start. -/
theorem mem_traverse_iff {n c x : ℕ} (hc : c < bound) (hn : bound ≤ c + n) :
    x ∈ traverse kids n c ↔ Below kids c x := by
  refine ⟨below_of_mem_traverse, fun h => ?_⟩
  -- every step down uses up one node between `c` and `bound`
  induction n generalizing c with
  | zero => omega
  | succ n ih =>
    rcases h.cases_head with rfl | ⟨d, hd, hdx⟩
    · exact List.mem_cons_self
    · have hlt := hF.lt hd
      exact List.mem_cons_of_mem _ (List.mem_flatMap.mpr
        ⟨d, hd, ih (hF.lt_bound hd) (by omega) hdx⟩)

/-- The walks of two siblings have no node in common. -/
theorem traverse_disjoint {n p c d : ℕ} (hc : c ∈ kids p) (hd : d ∈ kids p) (hne : c ≠ d) :
    List.Disjoint (traverse kids n c) (traverse kids n d) :=
  fun _ hx hx' => hF.siblings_disjoint hc hd hne (below_of_mem_traverse hx)
    (below_of_mem_traverse hx')

theorem notMem_flatMap_traverse (n p : ℕ) : p ∉ (kids p).flatMap (traverse kids n) := by
  intro h
  obtain ⟨d, hd, hp⟩ := List.mem_flatMap.mp h
  exact hF.not_below_parent hd (below_of_mem_traverse hp)

theorem pairwise_disjoint_traverse (n p : ℕ) :
    (kids p).Pairwise fun c d => List.Disjoint (traverse kids n c) (traverse kids n d) :=
  (hF.nodup p).imp_of_mem fun hc hd hne => hF.traverse_disjoint hc hd hne

/-- The walk visits no node twice. -/
theorem traverse_nodup (n c : ℕ) : (traverse kids n c).Nodup := by
  induction n generalizing c with
  | zero => exact List.nodup_nil
  | succ n ih =>
    refine List.nodup_cons.mpr ⟨hF.notMem_flatMap_traverse n c, ?_⟩
    -- siblings have no node in common
    exact List.nodup_flatMap.mpr ⟨fun d _ => ih d, hF.pairwise_disjoint_traverse n c⟩

end Forest

/-! ### Rolling a weight up, in place -/

section RollUp

variable {M : Type} [AddCommMonoid M]

/-- Add to every node the sums of its children, children first, in place; the
result is the new weight of the start. -/
def rollUp (kids : ℕ → List ℕ) : ℕ → ℕ → (ℕ → M) → M × (ℕ → M)
  | 0, _, w => (0, w)
  | n + 1, c, w =>
    let r := (kids c).foldl
      (fun aw d => (aw.1 + (rollUp kids n d aw.2).1, (rollUp kids n d aw.2).2)) (0, w)
    (r.2 c + r.1, Function.update r.2 c (r.2 c + r.1))

/-- The roll-up stores at its start what it returns. -/
theorem rollUp_self (n c : ℕ) (w : ℕ → M) :
    (rollUp kids (n + 1) c w).2 c = (rollUp kids (n + 1) c w).1 := by
  unfold rollUp
  exact Function.update_self c _ _

/-- What the children's fold computes, from what each child's walk computes. -/
private theorem foldl_rollUp {n : ℕ}
    (ih : ∀ d (w : ℕ → M), (rollUp kids n d w).1 = ((traverse kids n d).map w).sum ∧
      ∀ x, x ∉ traverse kids n d → (rollUp kids n d w).2 x = w x)
    (l : List ℕ) (a : M) (w : ℕ → M)
    (hl : l.Pairwise fun c d => List.Disjoint (traverse kids n c) (traverse kids n d)) :
    let r := l.foldl
      (fun aw d => (aw.1 + (rollUp kids n d aw.2).1, (rollUp kids n d aw.2).2)) (a, w)
    r.1 = a + ((l.flatMap (traverse kids n)).map w).sum ∧
      ∀ x, x ∉ l.flatMap (traverse kids n) → r.2 x = w x := by
  induction l generalizing a w with
  | nil => exact ⟨by simp, fun _ _ => rfl⟩
  | cons d l ihl =>
    obtain ⟨hd, hl⟩ := List.pairwise_cons.mp hl
    obtain ⟨h1, h2⟩ := ih d w
    obtain ⟨g1, g2⟩ := ihl (a + (rollUp kids n d w).1) (rollUp kids n d w).2 hl
    -- the later siblings read weights the walk of `d` left alone
    have hsame : (l.flatMap (traverse kids n)).map (rollUp kids n d w).2
        = (l.flatMap (traverse kids n)).map w := by
      refine List.map_congr_left fun x hx => h2 x fun hxd => ?_
      obtain ⟨e, he, hxe⟩ := List.mem_flatMap.mp hx
      exact hd e he hxd hxe
    refine ⟨?_, fun x hx => ?_⟩
    · rw [List.foldl_cons, List.flatMap_cons, List.map_append, List.sum_append]
      rw [g1, hsame, h1, add_assoc]
    · rw [List.flatMap_cons, List.mem_append, not_or] at hx
      rw [List.foldl_cons, g2 x hx.2, h2 x hx.1]

namespace Forest

variable (hF : Forest kids bound)

include hF

/-- **The in-place roll-up.** It returns the sum of the original weights over
the walk, and changes no weight outside the walk. -/
theorem rollUp_spec (n c : ℕ) (w : ℕ → M) :
    (rollUp kids n c w).1 = ((traverse kids n c).map w).sum ∧
      ∀ x, x ∉ traverse kids n c → (rollUp kids n c w).2 x = w x := by
  induction n generalizing c w with
  | zero => exact ⟨rfl, fun _ _ => rfl⟩
  | succ n ih =>
    obtain ⟨h1, h2⟩ := foldl_rollUp ih (kids c) 0 w (hF.pairwise_disjoint_traverse n c)
    have hc := h2 c (hF.notMem_flatMap_traverse n c)
    constructor
    · simp only [rollUp, traverse, List.map_cons, List.sum_cons]
      rw [h1, hc, zero_add]
    · intro x hx
      rw [traverse, List.mem_cons, not_or] at hx
      simp only [rollUp]
      rw [Function.update_of_ne hx.1, h2 x hx.2]

end Forest

end RollUp

/-! ### Sums over the nodes below a root -/

section BelowSum

variable {M : Type} [AddCommMonoid M]

open Classical in
/-- The sum of a weight over the handed-out nodes below `c`. -/
noncomputable def belowSum (kids : ℕ → List ℕ) (bound c : ℕ) (w : ℕ → M) : M :=
  ∑ x ∈ Finset.range bound, if Below kids c x then w x else 0

/-- The roll-up with enough fuel returns the sum over the nodes below. -/
theorem Forest.rollUp_fst (hF : Forest kids bound) {n c : ℕ} (hc : c < bound)
    (hn : bound ≤ c + n) (w : ℕ → M) : (rollUp kids n c w).1 = belowSum kids bound c w := by
  classical
  -- the walk and the sum range over the same nodes
  rw [(hF.rollUp_spec n c w).1, ← List.sum_toFinset w (hF.traverse_nodup n c), belowSum,
    ← Finset.sum_filter]
  refine Finset.sum_congr (Finset.ext fun x => ?_) fun _ _ => rfl
  rw [List.mem_toFinset, hF.mem_traverse_iff hc hn, Finset.mem_filter, Finset.mem_range]
  exact ⟨fun h => ⟨hF.below_lt_bound h hc, h⟩, fun h => h.2⟩

/-- Only the weights below the node matter. -/
theorem belowSum_congr {c : ℕ} {w w' : ℕ → M} (h : ∀ x, Below kids c x → w x = w' x) :
    belowSum kids bound c w = belowSum kids bound c w' := by
  classical
  refine Finset.sum_congr rfl fun x _ => ?_
  split_ifs with hx
  · exact h x hx
  · rfl

/-- A node without weight below it is its own sum. -/
theorem belowSum_eq_self {c : ℕ} (hc : c < bound) {w : ℕ → M}
    (h : ∀ x, Below kids c x → x ≠ c → w x = 0) : belowSum kids bound c w = w c := by
  classical
  rw [belowSum, Finset.sum_eq_single_of_mem c (Finset.mem_range.mpr hc), if_pos .refl]
  intro x _ hne
  split_ifs with hx
  · exact h x hx hne
  · rfl

/-- A node below a node weighs no more than all of them. -/
theorem le_belowSum [PartialOrder M] [IsOrderedAddMonoid M] {c x : ℕ} {w : ℕ → M}
    (hw : ∀ z, 0 ≤ w z) (hx : Below kids c x) (hxlt : x < bound) :
    w x ≤ belowSum kids bound c w := by
  classical
  have hle := Finset.single_le_sum (f := fun z => if Below kids c z then w z else 0)
    (fun z _ => ?_) (Finset.mem_range.mpr hxlt)
  · rwa [if_pos hx] at hle
  · show 0 ≤ if Below kids c z then w z else 0
    split_ifs
    · exact hw z
    · exact le_rfl

/-- Two nodes below a node weigh no more than all of them. -/
theorem add_le_belowSum [PartialOrder M] [IsOrderedAddMonoid M] {c x y : ℕ} {w : ℕ → M}
    (hw : ∀ z, 0 ≤ w z) (hx : Below kids c x) (hy : Below kids c y) (hne : x ≠ y)
    (hxlt : x < bound) (hylt : y < bound) : w x + w y ≤ belowSum kids bound c w := by
  classical
  have hpair : (∑ z ∈ {x, y}, if Below kids c z then w z else 0) = w x + w y := by
    rw [Finset.sum_pair hne, if_pos hx, if_pos hy]
  rw [← hpair]
  refine Finset.sum_le_sum_of_subset_of_nonneg (fun z hz => ?_) fun z _ _ => ?_
  · rcases Finset.mem_insert.mp hz with rfl | hz
    · exact Finset.mem_range.mpr hxlt
    · rw [Finset.mem_singleton.mp hz]
      exact Finset.mem_range.mpr hylt
  · split_ifs
    · exact hw z
    · exact le_rfl

/-- **Every node the roll-up reaches ends up with the sum over the nodes below it.** -/
theorem Forest.rollUp_snd (hF : Forest kids bound) {n c x : ℕ} (hc : c < bound)
    (hn : bound ≤ c + n) (hx : Below kids c x) (w : ℕ → M) :
    (rollUp kids n c w).2 x = belowSum kids bound x w := by
  induction n generalizing c x w with
  | zero => omega
  | succ n ih =>
    rcases hx.cases_head with rfl | ⟨d, hd, hdx⟩
    · rw [rollUp_self, hF.rollUp_fst hc hn]
    -- `x` gets its sum from the child it lies below, and no other child touches it
    have hfold : ∀ (l : List ℕ) (a : M) (w : ℕ → M), l ⊆ kids c → l.Nodup → d ∈ l →
        (l.foldl (fun aw e => (aw.1 + (rollUp kids n e aw.2).1, (rollUp kids n e aw.2).2))
          (a, w)).2 x = belowSum kids bound x w := by
      intro l
      induction l with
      | nil => exact fun _ _ _ _ hmem => absurd hmem List.not_mem_nil
      | cons e l ihl =>
        intro a w hl hnodup hmem
        have he : e ∈ kids c := hl List.mem_cons_self
        have hl' : l ⊆ kids c := fun y hy => hl (List.mem_cons_of_mem e hy)
        obtain ⟨hel, hnodup'⟩ := List.nodup_cons.mp hnodup
        rw [List.foldl_cons]
        by_cases hde : d = e
        · subst hde
          have hdisjoint : l.Pairwise fun e f =>
              List.Disjoint (traverse kids n e) (traverse kids n f) :=
            hnodup'.imp_of_mem fun he hf hne => hF.traverse_disjoint (hl' he) (hl' hf) hne
          have hout : x ∉ l.flatMap (traverse kids n) := by
            intro hmem
            obtain ⟨f, hf, hxf⟩ := List.mem_flatMap.mp hmem
            have hdf : d ≠ f := fun heq => hel (heq ▸ hf)
            exact hF.siblings_disjoint hd (hl' hf) hdf hdx (below_of_mem_traverse hxf)
          rw [(foldl_rollUp (fun f v => hF.rollUp_spec n f v) l _ _ hdisjoint).2 x hout]
          have hlt := hF.lt he
          exact ih (hF.lt_bound he) (by omega) hdx w
        · have hmem' : d ∈ l := (List.mem_cons.mp hmem).resolve_left hde
          rw [ihl _ _ hl' hnodup' hmem']
          refine belowSum_congr fun y hy => (hF.rollUp_spec n e w).2 y fun hye => ?_
          exact hF.siblings_disjoint hd he hde (hdx.trans hy) (below_of_mem_traverse hye)
    have hne : x ≠ c := by
      rintro rfl
      exact hF.not_below_parent hd hdx
    unfold rollUp
    simp only
    rw [Function.update_of_ne hne]
    exact hfold (kids c) 0 w (fun _ hy => hy) (hF.nodup c) hd

/-- Rolling up changes nothing where only the start has weight. -/
theorem Forest.rollUp_eq_self (hF : Forest kids bound) {n c : ℕ} (hc : c < bound)
    (hn : bound ≤ c + n) {w : ℕ → M} (h : ∀ x, Below kids c x → x ≠ c → w x = 0) :
    (rollUp kids n c w).2 = w := by
  funext x
  by_cases hx : Below kids c x
  · rw [hF.rollUp_snd hc hn hx]
    refine belowSum_eq_self (hF.below_lt_bound hx hc) fun y hy hne => ?_
    have hle := hF.le_of_below hx
    have hlt : x < y := lt_of_le_of_ne (hF.le_of_below hy) hne.symm
    exact h y (hx.trans hy) (hle.trans_lt hlt).ne'
  · exact (hF.rollUp_spec n c w).2 x fun hmem => hx (below_of_mem_traverse hmem)

/-- Adding to the weight of one handed-out node. -/
theorem belowSum_update {c x : ℕ} (hx : x < bound) (w : ℕ → M) (v : M)
    [Decidable (Below kids c x)] :
    belowSum kids bound c (Function.update w x (w x + v))
      = belowSum kids bound c w + if Below kids c x then v else 0 := by
  classical
  -- the weight of `x` is its old weight and `v`
  have hsplit : ∀ y, (if Below kids c y then Function.update w x (w x + v) y else 0)
      = (if Below kids c y then w y else 0)
        + if y = x then (if Below kids c x then v else 0) else 0 := by
    intro y
    by_cases hy : y = x
    · subst hy
      by_cases hb : Below kids c y <;> simp [hb]
    · simp [hy]
  rw [belowSum, Finset.sum_congr rfl fun y _ => hsplit y, Finset.sum_add_distrib,
    Finset.sum_ite_eq' (Finset.range bound) x, if_pos (Finset.mem_range.mpr hx), belowSum]

end BelowSum

/-! ### Hanging a fresh node -/

/-- The children lists after node `b` has been hung under `p`. -/
def hang (kids : ℕ → List ℕ) (p b : ℕ) : ℕ → List ℕ :=
  Function.update kids p (b :: kids p)

theorem mem_hang {p b q c : ℕ} : c ∈ hang kids p b q ↔ (q = p ∧ c = b) ∨ c ∈ kids q := by
  unfold hang
  by_cases hq : q = p
  · subst hq; simp
  · simp [hq]

theorem Forest.mono (hF : Forest kids bound) {bound' : ℕ} (h : bound ≤ bound') :
    Forest kids bound' where
  lt := hF.lt
  lt_bound hc := (hF.lt_bound hc).trans_le h
  nodup := hF.nodup
  parent_unique := hF.parent_unique

/-- Hanging the next node under an old one keeps a forest. -/
theorem Forest.hang (hF : Forest kids bound) {p : ℕ} (hp : p < bound) :
    Forest (hang kids p bound) (bound + 1) where
  lt := by
    intro q c hc
    rcases mem_hang.mp hc with ⟨rfl, rfl⟩ | hc
    · exact hp
    · exact hF.lt hc
  lt_bound := by
    intro q c hc
    rcases mem_hang.mp hc with ⟨rfl, rfl⟩ | hc
    · exact Nat.lt_succ_self _
    · exact (hF.lt_bound hc).trans (Nat.lt_succ_self _)
  nodup := by
    intro q
    by_cases hq : q = p
    · subst hq
      have hb : bound ∉ kids q := fun h => absurd (hF.lt_bound h) (lt_irrefl _)
      simpa [Arena.hang] using ⟨hb, hF.nodup q⟩
    · simpa [Arena.hang, hq] using hF.nodup q
  parent_unique := by
    intro q q' c hc hc'
    -- the fresh node is nobody's child yet
    rcases mem_hang.mp hc with ⟨rfl, rfl⟩ | hk <;> rcases mem_hang.mp hc' with ⟨rfl, h⟩ | hk'
    · rfl
    · exact absurd (hF.lt_bound hk') (lt_irrefl _)
    · exact absurd (hF.lt_bound hk) (by omega)
    · exact hF.parent_unique hk hk'

/-- Old nodes keep the nodes above them. -/
theorem below_hang_iff (hF : Forest kids bound) {p c x : ℕ} (hx : x < bound) :
    Below (hang kids p bound) c x ↔ Below kids c x := by
  constructor
  · intro h
    induction h with
    | refl => exact .refl
    | @tail y z hcy hyz ih =>
      -- the fresh node has no children, so no old node lies below it
      rcases mem_hang.mp hyz with ⟨-, rfl⟩ | hyz
      · exact absurd hx (lt_irrefl _)
      · exact (ih ((hF.lt hyz).trans hx)).tail hyz
  · intro h
    induction h with
    | refl => exact .refl
    | tail _ hyz ih => exact (ih ((hF.lt hyz).trans hx)).tail (mem_hang.mpr (Or.inr hyz))

/-- Hanging a fresh node without weight changes no sum. -/
theorem belowSum_hang {M : Type} [AddCommMonoid M] (hF : Forest kids bound) {p c : ℕ}
    {w : ℕ → M} (hw : w bound = 0) :
    belowSum (hang kids p bound) (bound + 1) c w = belowSum kids bound c w := by
  classical
  rw [belowSum, Finset.sum_range_succ, hw, ite_self, add_zero]
  refine Finset.sum_congr rfl fun x hx => ?_
  rw [below_hang_iff hF (Finset.mem_range.mp hx)]

/-- A counter that moves on without hanging the node changes no sum either. -/
theorem belowSum_succ {M : Type} [AddCommMonoid M] {c : ℕ} {w : ℕ → M} (hw : w bound = 0) :
    belowSum kids (bound + 1) c w = belowSum kids bound c w := by
  classical
  rw [belowSum, Finset.sum_range_succ, hw, ite_self, add_zero, belowSum]

end Arena
