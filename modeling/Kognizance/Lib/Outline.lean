import Kognizance.Lib.Trie

/-!
# Outlines

A tree in an arena is written as an outline: a line a node, parents first, and each line with
its depth. `readOutline` reads such lines back. The path to a line is the path to the line
before it, cut to the depth of the line, and then the line itself.

* `readsBack_outline`: the lines below a node are read back as the paths of a depth-first walk.
* `Forest.readOutline`: every line below a node is read as the labels that lead to its node,
  and no two lines are read alike if siblings differ.
-/

namespace Arena

variable {α : Type} {kids : ℕ → List ℕ} {label : ℕ → α} {bound : ℕ}

/-- The nodes below a node with their depths, parents first, with a fuel for the depth. -/
def outline (kids : ℕ → List ℕ) : ℕ → ℕ → ℕ → List (ℕ × ℕ)
  | 0, _, _ => []
  | n + 1, i, c => (i, c) :: (kids c).flatMap (outline kids n (i + 1))

/-- The path to a line, after a line with the path `path`. -/
def pathAfter (path : List α) (line : ℕ × α) : List α := path.take line.1 ++ [line.2]

/-- The paths to the lines of an outline. -/
def readOutline : List α → List (ℕ × α) → List (List α)
  | _, [] => []
  | path, line :: lines => pathAfter path line :: readOutline (pathAfter path line) lines

theorem readOutline_append (path : List α) (lines lines' : List (ℕ × α)) :
    readOutline path (lines ++ lines') =
      readOutline path lines ++ readOutline (lines.foldl pathAfter path) lines' := by
  induction lines generalizing path with
  | nil => rfl
  | cons line lines ih => exact congrArg _ (ih _)

/-- The lines with the labels of their nodes. -/
def labelled (label : ℕ → α) (lines : List (ℕ × ℕ)) : List (ℕ × α) :=
  lines.map fun line => (line.1, label line.2)

/-- The lines are read as the paths to these nodes, and leave the first labels of the last path
as they were. -/
structure ReadsBack (kids : ℕ → List ℕ) (label : ℕ → α) (r : ℕ) (path : List α)
    (lines : List (ℕ × ℕ)) (nodes : List ℕ) (i : ℕ) : Prop where
  paths : List.Forall₂ (Path kids label r) (readOutline path (labelled label lines)) nodes
  kept : ((labelled label lines).foldl pathAfter path).take i = path.take i

namespace ReadsBack

variable {r i : ℕ} {path : List α} {lines lines' : List (ℕ × ℕ)} {nodes nodes' : List ℕ}

theorem append (h : ReadsBack kids label r path lines nodes i)
    (h' : ReadsBack kids label r ((labelled label lines).foldl pathAfter path) lines' nodes' i) :
    ReadsBack kids label r path (lines ++ lines') (nodes ++ nodes') i where
  paths := by
    rw [labelled, List.map_append, readOutline_append]
    exact List.rel_append h.paths h'.paths
  kept := by
    rw [labelled, List.map_append, List.foldl_append]
    exact h'.kept.trans h.kept

/-- The lines of siblings, if those of each of them are read back. -/
theorem siblings {n : ℕ} {ds : List ℕ}
    (hds : ∀ d ∈ ds, ∀ path' : List α, path'.take i = path.take i →
      ReadsBack kids label r path' (outline kids n i d) (traverse kids n d) i) :
    ReadsBack kids label r path (ds.flatMap (outline kids n i)) (ds.flatMap (traverse kids n))
      i := by
  induction ds generalizing path with
  | nil => exact ⟨.nil, rfl⟩
  | cons d ds ih =>
    have hd := hds d List.mem_cons_self path rfl
    refine hd.append (ih fun e he path' hpath => ?_)
    exact hds e (List.mem_cons_of_mem d he) path' (hpath.trans hd.kept)

end ReadsBack

/-- **The lines below a node are read back** after any line that leaves the path to its
parent. -/
theorem readsBack_outline {r p c n : ℕ} {as path : List α} (hp : Path kids label r as p)
    (hc : c ∈ kids p) (hpath : path.take as.length = as) :
    ReadsBack kids label r path (outline kids n as.length c) (traverse kids n c) as.length := by
  -- over the depth: the children come after the line of their parent
  induction n generalizing p c as path with
  | zero => exact ⟨.nil, rfl⟩
  | succ n ih =>
    have hline : pathAfter path (as.length, label c) = as ++ [label c] := by
      rw [pathAfter, hpath]
    have hlen : (as ++ [label c]).length = as.length + 1 := by
      rw [List.length_append, List.length_singleton]
    have hself : Path kids label r (as ++ [label c]) c := hp.append (.cons hc (.nil c))
    have hbelow : ReadsBack kids label r (as ++ [label c])
        ((kids c).flatMap (outline kids n (as.length + 1))) ((kids c).flatMap (traverse kids n))
        (as.length + 1) := by
      rw [← hlen]
      refine ReadsBack.siblings fun d hd path' hpath' => ih hself hd ?_
      rw [hpath', List.take_length]
    refine ⟨?_, ?_⟩
    · unfold outline traverse
      rw [labelled, List.map_cons, readOutline, hline]
      exact .cons hself hbelow.paths
    · unfold outline
      rw [labelled, List.map_cons, List.foldl_cons, hline]
      have hkept := congrArg (List.take as.length) hbelow.kept
      rw [List.take_take, List.take_take, Nat.min_eq_left (Nat.le_succ _)] at hkept
      exact hkept.trans (List.take_left.trans hpath.symm)

/-- The nodes below a node, without it. -/
def descendants (kids : ℕ → List ℕ) (n c : ℕ) : List ℕ := (kids c).flatMap (traverse kids n)

namespace Forest

variable (hF : Forest kids bound)

include hF

theorem descendants_nodup (n c : ℕ) : (descendants kids n c).Nodup :=
  List.nodup_flatMap.mpr
    ⟨fun d _ => hF.traverse_nodup n d, hF.pairwise_disjoint_traverse n c⟩

theorem mem_descendants_iff {n c x : ℕ} (hn : bound ≤ c + 1 + n) :
    x ∈ descendants kids n c ↔ Below kids c x ∧ x ≠ c := by
  constructor
  · intro h
    refine ⟨?_, fun heq => hF.notMem_flatMap_traverse n c (heq ▸ h)⟩
    obtain ⟨d, hd, hx⟩ := List.mem_flatMap.mp h
    exact .head hd (below_of_mem_traverse hx)
  · rintro ⟨h, hne⟩
    obtain rfl | ⟨d, hd, hdx⟩ := h.cases_head
    · exact absurd rfl hne
    · have hlt := hF.lt hd
      exact List.mem_flatMap.mpr
        ⟨d, hd, (hF.mem_traverse_iff (hF.lt_bound hd) (by omega)).mpr hdx⟩

/-- **An outline is read back**: as the paths to the nodes below the start, each of them once,
and no two lines as the same path if siblings differ. -/
theorem readOutline (hD : Distinct kids label) {n c : ℕ} :
    List.Forall₂ (Path kids label c)
      (Arena.readOutline [] (labelled label ((kids c).flatMap (outline kids n 0))))
      (descendants kids n c) ∧
    (Arena.readOutline [] (labelled label ((kids c).flatMap (outline kids n 0)))).Nodup := by
  have hread : ReadsBack kids label c [] ((kids c).flatMap (outline kids n 0))
      (descendants kids n c) 0 :=
    ReadsBack.siblings fun d hd path _ => readsBack_outline (.nil c) hd rfl
  refine ⟨hread.paths, ?_⟩
  -- a path leads to one node, and a node is reached by one path
  have hunique : Relator.BiUnique (Path kids label c) :=
    ⟨fun _ _ _ h h' => hF.path_unique h h', fun _ _ _ h h' => h.end_unique hD h'⟩
  exact (List.rel_nodup hunique hread.paths).mpr (hF.descendants_nodup n c)

end Forest

end Arena
