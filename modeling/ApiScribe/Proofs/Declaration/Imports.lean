import ApiScribe.Declaration.Basic
import Mathlib.Data.List.Range

/-!
# The imports of a `use` tree

A walk through a `use` tree goes down below each segment and comes back up, so it ends where it started. On the way
it finds one import for each leaf, from left to right. The leaves are seen from outside here: a place in the tree is
given by the positions of the trees on the way to it, and the way to a place by the segments that are passed. Places
compare as they are met from left to right.
-/

namespace ApiScribe

open Source (UseTree unraw)

namespace UseWalk

/-- Adding imports twice adds them together. -/
theorem add_add (walk : UseWalk) (imports more : List Import) :
    (walk.add imports).add more = walk.add (imports ++ more) := by
  rw [add, add, add, List.append_assoc]

/-- Coming back up undoes going down, whatever was found below. -/
theorem leave_add_enter (walk : UseWalk) (segment : String) (imports : List Import) :
    ((walk.enter segment).add imports).leave = walk.add imports := by
  rw [enter, add, leave, add, List.dropLast_concat]

mutual

/-- A walk ends where it started, with the imports of the tree behind those it had. -/
theorem flatten_eq_add (walk : UseWalk) (tree : UseTree) :
    walk.flatten tree = walk.add (Import.ofTree walk.before tree) := by
  match tree with
  | .path ident tree =>
    -- Used twice: for this walk, and for the one without imports by which the imports of a tree are defined.
    have hbelow (walk : UseWalk) :
        walk.flatten (.path ident tree) = walk.add (Import.ofTree (walk.before ++ [unraw ident]) tree) := by
      rw [flatten, flatten_eq_add _ tree, leave_add_enter]
      rfl
    rw [hbelow, Import.ofTree.eq_def walk.before, hbelow]
    rfl
  | .name _ | .rename _ _ | .glob =>
    rw [Import.ofTree, flatten, flatten]
    rfl
  | .group trees =>
    rw [flatten, flattenAll_eq_add _ trees, Import.ofTree, flatten, flattenAll_eq_add _ trees]
    rfl

/-- A walk through several trees has their imports one after the other. -/
theorem flattenAll_eq_add (walk : UseWalk) (trees : List UseTree) :
    walk.flattenAll trees = walk.add (trees.flatMap (Import.ofTree walk.before)) := by
  match trees with
  | [] =>
    rw [flattenAll, List.flatMap_nil, add, List.append_nil]
  | tree :: rest =>
    rw [flattenAll, flatten_eq_add walk tree, flattenAll_eq_add _ rest, add_add, List.flatMap_cons]
    rfl

end

end UseWalk

namespace Import

variable (before : List String)

/-- A segment goes in front of what follows. -/
theorem ofTree_path (ident : String) (tree : UseTree) :
    ofTree before (.path ident tree) = ofTree (before ++ [unraw ident]) tree := by
  rw [ofTree, UseWalk.flatten, UseWalk.flatten_eq_add, UseWalk.leave_add_enter]
  rfl

/-- A name is a leaf under its own name. -/
theorem ofTree_name (ident : String) : ofTree before (.name ident) = ofLeaf before (unraw ident) none := rfl

/-- A renamed name is a leaf under the new name. -/
theorem ofTree_rename (ident newName : String) :
    ofTree before (.rename ident newName) = ofLeaf before (unraw ident) (some (unraw newName)) := rfl

/-- A star binds everything in front of it. -/
theorem ofTree_glob : ofTree before .glob = [⟨"*", before, true⟩] := rfl

/-- A group binds what its trees bind, from left to right. -/
theorem ofTree_group (trees : List UseTree) : ofTree before (.group trees) = trees.flatMap (ofTree before) := by
  rw [ofTree, UseWalk.flatten, UseWalk.flattenAll_eq_add]
  rfl

end Import

namespace Source.UseTree

/-- The trees right below a tree. -/
def branches : UseTree → List UseTree
  | .path _ tree => [tree]
  | .group trees => trees
  | .name _ | .rename _ _ | .glob => []

/-- The segment that is passed on the way to what is below. -/
def lead : UseTree → List String
  | .path ident _ => [unraw ident]
  | .group _ | .name _ | .rename _ _ | .glob => []

/-- Whether a tree is a name, a name with a new one, or a glob. -/
def isLeaf : UseTree → Bool
  | .name _ | .rename _ _ | .glob => true
  | .path _ _ | .group _ => false

def isGlob : UseTree → Bool
  | .glob => true
  | .path _ _ | .group _ | .name _ | .rename _ _ => false

/-- The identifier of a leaf; a glob has none. -/
def ident? : UseTree → Option String
  | .name ident | .rename ident _ => some (unraw ident)
  | .glob | .path _ _ | .group _ => none

/-- The segments on the way to a place and the tree there. -/
def at? (tree : UseTree) : List Nat → Option (List String × UseTree)
  | [] => some ([], tree)
  | position :: place =>
    tree.branches[position]?.bind fun branch => (branch.at? place).map fun found => (tree.lead ++ found.1, found.2)

end Source.UseTree

/-- A leaf of a `use` tree, with its place and the segments on the way to it. -/
structure UseLeaf where
  place : List Nat
  way : List String
  tree : UseTree

namespace UseLeaf

/-- A leaf of the tree at a position, seen from above. -/
def inside (position : Nat) (lead : List String) (leaf : UseLeaf) : UseLeaf :=
  ⟨position :: leaf.place, lead ++ leaf.way, leaf.tree⟩

/-- The path of a leaf: the segments on the way to it, and its own identifier if it has one other than `self`. -/
def path (before : List String) (leaf : UseLeaf) : List String :=
  before ++ leaf.way ++ (leaf.tree.ident?.filter (· ≠ "self")).toList

/-- The name of a leaf: `*` for a glob, else the new name if there is one, else the last segment of the path. -/
def localName (before : List String) (leaf : UseLeaf) : String :=
  match leaf.tree with
  | .glob => "*"
  | .rename _ newName => unraw newName
  | _ => ((leaf.path before).getLast?).getD ""

/-- A leaf binds its name, unless that is `_` or the leaf is a `self` without a path. -/
def Binds (before : List String) (leaf : UseLeaf) : Prop :=
  leaf.localName before ≠ "_" ∧ ¬ (leaf.tree.ident? = some "self" ∧ leaf.path before = [])

instance (before : List String) : DecidablePred (Binds before) := fun leaf =>
  inferInstanceAs (Decidable (leaf.localName before ≠ "_" ∧
    ¬ (leaf.tree.ident? = some "self" ∧ leaf.path before = [])))

/-- The import of a leaf. -/
def binding (before : List String) (leaf : UseLeaf) : Import :=
  ⟨leaf.localName before, leaf.path before, leaf.tree.isGlob⟩

end UseLeaf

namespace Source.UseTree

mutual

/-- The leaves of a tree, from left to right. -/
def leaves : UseTree → List UseLeaf
  | .path ident tree => tree.leaves.map (UseLeaf.inside 0 [unraw ident])
  | .group trees => leavesFrom 0 trees
  | .name ident => [⟨[], [], .name ident⟩]
  | .rename ident newName => [⟨[], [], .rename ident newName⟩]
  | .glob => [⟨[], [], .glob⟩]

/-- The leaves of trees from a position on. -/
def leavesFrom (position : Nat) : List UseTree → List UseLeaf
  | [] => []
  | tree :: rest => tree.leaves.map (UseLeaf.inside position []) ++ leavesFrom (position + 1) rest

end

/-- What holds of a tree whenever it holds of the trees below holds of all trees. -/
theorem branches_induction {motive : UseTree → Prop}
    (step : ∀ tree : UseTree, (∀ branch ∈ tree.branches, motive branch) → motive tree) (tree : UseTree) :
    motive tree := by
  induction hsize : sizeOf tree using Nat.strong_induction_on generalizing tree with
  | _ size ih =>
    refine step tree fun branch hbranch => ih (sizeOf branch) ?_ branch rfl
    subst hsize
    cases tree with
    | path ident tree =>
      rw [List.mem_singleton.mp hbranch, UseTree.path.sizeOf_spec]
      omega
    | group trees =>
      have hlt := List.sizeOf_lt_of_mem hbranch
      rw [UseTree.group.sizeOf_spec]
      exact Nat.lt_of_lt_of_le hlt (Nat.le_add_left _ _)
    | name _ | rename _ _ | glob => cases hbranch

/-- The leaves of a group are those of its trees, each below its position. -/
theorem leavesFrom_eq (position : Nat) (trees : List UseTree) : leavesFrom position trees =
    (trees.zipIdx position).flatMap fun entry => entry.1.leaves.map (UseLeaf.inside entry.2 []) := by
  induction trees generalizing position with
  | nil => rfl
  | cons tree rest ih => rw [leavesFrom, ih, List.zipIdx_cons, List.flatMap_cons]

/-- The leaves of a tree that is none itself are those of the trees below. -/
theorem leaves_eq {tree : UseTree} (h : tree.isLeaf = false) : tree.leaves =
    tree.branches.zipIdx.flatMap fun entry => entry.1.leaves.map (UseLeaf.inside entry.2 tree.lead) := by
  cases tree with
  | path ident tree =>
    rw [leaves, branches, List.zipIdx_singleton, List.flatMap_singleton]
    rfl
  | group trees =>
    rw [leaves, leavesFrom_eq]
    rfl
  | name _ | rename _ _ | glob => cases h

/-- A leaf is its own only leaf. -/
theorem leaves_of_isLeaf {tree : UseTree} (h : tree.isLeaf = true) : tree.leaves = [⟨[], [], tree⟩] := by
  cases tree with
  | path _ _ | group _ => cases h
  | name _ | rename _ _ | glob => rw [leaves]

/-- Nothing branches off a leaf. -/
theorem branches_of_isLeaf {tree : UseTree} (h : tree.isLeaf = true) : tree.branches = [] := by
  cases tree with
  | path _ _ | group _ => cases h
  | name _ | rename _ _ | glob => rfl

/-- The leaves of a tree that is none itself, branch by branch. -/
theorem mem_leaves_iff_branch {tree : UseTree} (h : tree.isLeaf = false) {leaf : UseLeaf} :
    leaf ∈ tree.leaves ↔ ∃ (position : Nat) (branch : UseTree), tree.branches[position]? = some branch ∧
      ∃ inner ∈ branch.leaves, inner.inside position tree.lead = leaf := by
  rw [leaves_eq h, List.mem_flatMap]
  constructor
  · rintro ⟨⟨branch, position⟩, hentry, hmem⟩
    exact ⟨position, branch, List.mk_mem_zipIdx_iff_getElem?.mp hentry, List.mem_map.mp hmem⟩
  · rintro ⟨position, branch, hbranch, hmem⟩
    exact ⟨(branch, position), List.mk_mem_zipIdx_iff_getElem?.mpr hbranch, List.mem_map.mpr hmem⟩

/-- The leaves are what stands at the places of the tree. -/
theorem mem_leaves_iff {tree : UseTree} {leaf : UseLeaf} :
    leaf ∈ tree.leaves ↔ tree.at? leaf.place = some (leaf.way, leaf.tree) ∧ leaf.tree.isLeaf = true := by
  induction tree using branches_induction generalizing leaf with
  | step tree ih =>
    cases hleaf : tree.isLeaf with
    | true =>
      -- A leaf has no branches, so there is no place but its own.
      obtain ⟨place, way, found⟩ := leaf
      rw [leaves_of_isLeaf hleaf, List.mem_singleton, UseLeaf.mk.injEq]
      cases place with
      | nil =>
        rw [at?, Option.some.injEq, Prod.mk.injEq, and_iff_right rfl]
        constructor
        · rintro ⟨rfl, rfl⟩
          exact ⟨⟨rfl, rfl⟩, hleaf⟩
        · rintro ⟨⟨rfl, rfl⟩, -⟩
          exact ⟨rfl, rfl⟩
      | cons position place => simp [at?, branches_of_isLeaf hleaf]
    | false =>
      rw [mem_leaves_iff_branch hleaf]
      constructor
      · rintro ⟨position, branch, hbranch, inner, hinner, rfl⟩
        obtain ⟨hat, hfound⟩ := (ih branch (List.mem_of_getElem? hbranch)).mp hinner
        refine ⟨?_, hfound⟩
        rw [UseLeaf.inside, at?, hbranch, Option.bind_some, hat, Option.map_some]
      · obtain ⟨place, way, found⟩ := leaf
        rintro ⟨hat, hfound⟩
        cases place with
        | nil =>
          cases hat
          rw [hleaf] at hfound
          cases hfound
        | cons position place =>
          obtain ⟨branch, hbranch, hat⟩ := Option.bind_eq_some_iff.mp hat
          obtain ⟨⟨inside, inner⟩, hinner, heq⟩ := Option.map_eq_some_iff.mp hat
          cases heq
          exact ⟨position, branch, hbranch, ⟨place, inside, found⟩,
            (ih branch (List.mem_of_getElem? hbranch)).mpr ⟨hinner, hfound⟩, rfl⟩

/-- The leaves are listed in the order of their places. -/
theorem pairwise_leaves (tree : UseTree) : (tree.leaves.map UseLeaf.place).Pairwise (· < ·) := by
  rw [List.pairwise_map]
  induction tree using branches_induction with
  | step tree ih =>
    cases hleaf : tree.isLeaf with
    | true =>
      rw [leaves_of_isLeaf hleaf]
      exact List.pairwise_singleton _ _
    | false =>
      rw [leaves_eq hleaf, List.pairwise_flatMap]
      refine ⟨fun entry hentry => ?_, ?_⟩
      · have hbranch := ih entry.1 (List.fst_mem_of_mem_zipIdx hentry)
        rw [List.pairwise_map]
        exact hbranch.imp List.cons_lt_cons_self.mpr
      · have hpositions : tree.branches.zipIdx.Pairwise fun entry other => entry.2 < other.2 := by
          rw [← List.pairwise_map, List.zipIdx_map_snd]
          exact List.pairwise_lt_range'
        refine hpositions.imp fun hlt leaf hmem other hother => ?_
        obtain ⟨inner, -, rfl⟩ := List.mem_map.mp hmem
        obtain ⟨inner, -, rfl⟩ := List.mem_map.mp hother
        exact List.Lex.rel hlt

end Source.UseTree

section Inside

variable (before lead : List String) (position : Nat) (leaf : UseLeaf)

/-- The segments that lead to a leaf stand in front of its path. -/
theorem UseLeaf.path_inside : (leaf.inside position lead).path before = leaf.path (before ++ lead) := by
  simp [path, inside]

/-- A leaf inside of a tree has the local name that it has behind the segments in front. -/
theorem UseLeaf.localName_inside :
    (leaf.inside position lead).localName before = leaf.localName (before ++ lead) := by
  unfold localName
  rw [path_inside]
  rfl

/-- A leaf is bound in the same way whether the segments above it belong to the tree or not. -/
theorem UseLeaf.binding_inside : (leaf.inside position lead).binding before = leaf.binding (before ++ lead) := by
  rw [binding, binding, localName_inside, path_inside]
  rfl

/-- A leaf inside of a tree binds something exactly if it does behind the segments in front. -/
theorem UseLeaf.binds_inside : (leaf.inside position lead).Binds before ↔ leaf.Binds (before ++ lead) := by
  rw [Binds, Binds, localName_inside, path_inside]
  rfl

end Inside

namespace Import

/-- The imports of a tree that is no leaf are those of the trees below, one after the other. -/
theorem ofTree_eq_flatMap (before : List String) {tree : UseTree} (h : tree.isLeaf = false) :
    ofTree before tree = tree.branches.flatMap (ofTree (before ++ tree.lead)) := by
  cases tree with
  | path ident tree => rw [ofTree_path, UseTree.branches, List.flatMap_singleton, UseTree.lead]
  | group trees => rw [ofTree_group, UseTree.lead, List.append_nil, UseTree.branches]
  | name _ | rename _ _ | glob => cases h

/-- A name, with a new one or without, is bound exactly if its leaf binds it. -/
theorem ofLeaf_eq {before : List String} {ident : String} {rename : Option String} {tree : UseTree}
    (hident : tree.ident? = some ident) (hglob : tree.isGlob = false)
    (hname : UseLeaf.localName before ⟨[], [], tree⟩ =
      rename.getD ((UseLeaf.path before ⟨[], [], tree⟩).getLast?.getD "")) :
    ofLeaf before ident rename =
      if UseLeaf.Binds before ⟨[], [], tree⟩ then [UseLeaf.binding before ⟨[], [], tree⟩] else [] := by
  have hpath : (if ident = "self" then before else before ++ [ident]) = UseLeaf.path before ⟨[], [], tree⟩ := by
    by_cases hself : ident = "self" <;> simp [UseLeaf.path, hident, hself, Option.filter]
  have hnone (h : UseLeaf.path before ⟨[], [], tree⟩ = []) : ident = "self" := by
    by_contra hself
    rw [← hpath, if_neg hself] at h
    exact List.append_ne_nil_of_right_ne_nil before (List.cons_ne_nil ident []) h
  rw [ofLeaf, hpath]
  cases hlast : (UseLeaf.path before ⟨[], [], tree⟩).getLast? with
  | none =>
    have hempty := List.getLast?_eq_none_iff.mp hlast
    rw [if_neg fun hbinds => hbinds.2 ⟨hident.trans (congrArg some (hnone hempty)), hempty⟩]
  | some last =>
    have hsome : UseLeaf.path before ⟨[], [], tree⟩ ≠ [] := by
      intro hempty
      rw [hempty] at hlast
      cases hlast
    rw [hlast, Option.getD_some] at hname
    simp only [UseLeaf.Binds, UseLeaf.binding, hname, hglob, hsome, and_false, not_false_eq_true, and_true, ite_not]

/-- A leaf gives its binding, if it binds anything. -/
theorem ofTree_of_isLeaf (before : List String) {tree : UseTree} (h : tree.isLeaf = true) :
    ofTree before tree =
      if UseLeaf.Binds before ⟨[], [], tree⟩ then [UseLeaf.binding before ⟨[], [], tree⟩] else [] := by
  cases tree with
  | path _ _ | group _ => cases h
  | name ident =>
    rw [ofTree_name]
    exact ofLeaf_eq rfl rfl rfl
  | rename ident newName =>
    rw [ofTree_rename]
    exact ofLeaf_eq rfl rfl rfl
  | glob =>
    have hbinds : UseLeaf.Binds before ⟨[], [], .glob⟩ := ⟨(by decide : "*" ≠ "_"), fun hself => by cases hself.1⟩
    rw [if_pos hbinds]
    simp [ofTree_glob, UseLeaf.binding, UseLeaf.localName, UseLeaf.path, UseTree.ident?, UseTree.isGlob]

/-- The imports are those of the leaves that bind their name. -/
theorem ofTree_eq_map_leaves (before : List String) (tree : UseTree) :
    ofTree before tree = (tree.leaves.filter fun leaf => leaf.Binds before).map (UseLeaf.binding before) := by
  induction tree using UseTree.branches_induction generalizing before with
  | step tree ih =>
    cases hleaf : tree.isLeaf with
    | true =>
      rw [ofTree_of_isLeaf before hleaf, UseTree.leaves_of_isLeaf hleaf, List.filter_singleton]
      split <;> simp_all
    | false =>
      have hbranch (entry : UseTree × Nat) (hentry : entry ∈ tree.branches.zipIdx) :
          ((entry.1.leaves.map (UseLeaf.inside entry.2 tree.lead)).filter fun leaf => leaf.Binds before).map
            (UseLeaf.binding before) = ofTree (before ++ tree.lead) entry.1 := by
        rw [ih entry.1 (List.fst_mem_of_mem_zipIdx hentry), List.filter_map, List.map_map]
        simp only [Function.comp_def, UseLeaf.binds_inside, UseLeaf.binding_inside]
      rw [ofTree_eq_flatMap before hleaf, UseTree.leaves_eq hleaf, List.filter_flatMap, List.map_flatMap,
        List.flatMap_congr hbranch, ← List.flatMap_map Prod.fst, List.zipIdx_map_fst]

end Import

/-- A walk through a `use` tree ends where it started. It adds one import for each leaf, in the order of their
places from left to right, except for leaves named `_` and for `self` without a path. The path of an import is the
segments above the tree and those on the way to the leaf, with the leaf's own behind them unless it is `self` or a
glob. Its name is `*` for a glob, else the new name if one is given, else the last segment of its path. -/
theorem UseWalk.flatten_faithful (walk : UseWalk) (tree : UseTree) :
    ∃ leaves : List UseLeaf,
      (leaves.map UseLeaf.place).Pairwise (· < ·) ∧
      (∀ leaf, leaf ∈ leaves ↔ tree.at? leaf.place = some (leaf.way, leaf.tree) ∧ leaf.tree.isLeaf = true ∧
        leaf.Binds walk.before) ∧
      walk.flatten tree = ⟨walk.before, walk.imports ++ leaves.map (UseLeaf.binding walk.before)⟩ := by
  refine ⟨tree.leaves.filter fun leaf => leaf.Binds walk.before, ?_, fun leaf => ?_, ?_⟩
  · exact tree.pairwise_leaves.sublist (List.filter_sublist.map _)
  · rw [List.mem_filter, UseTree.mem_leaves_iff, decide_eq_true_eq, and_assoc]
  · rw [flatten_eq_add, Import.ofTree_eq_map_leaves]
    rfl

example : (UseWalk.flatten ⟨["crate"], []⟩ (.path "models" (.group
      [.name "Pet", .path "errors"
        (.group [.name "self", .rename "ErrorResponse" "Failure"]), .rename "Kind" "_", .glob]))) =
    ⟨["crate"], [⟨"Pet", ["crate", "models", "Pet"], false⟩, ⟨"errors", ["crate", "models", "errors"], false⟩,
      ⟨"Failure", ["crate", "models", "errors", "ErrorResponse"], false⟩, ⟨"*", ["crate", "models"], true⟩]⟩ := by
  decide

end ApiScribe
