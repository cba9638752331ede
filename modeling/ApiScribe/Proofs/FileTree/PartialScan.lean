import ApiScribe.FileTree.Scan
import ApiScribe.Proofs.SortedEntries
import Mathlib.Data.List.Induction

/-!
# Scanning a part of a crate

Modules are relative to the source directory of the enclosing crate, wherever below it a scan starts. So a scan
of a directory below the sources finds what a scan of the whole crate finds there, with the same modules. The
root file of a program is left out beside that of a library in both scans, since both lie in the source
directory itself.
-/

namespace ApiScribe

/-- A location is a file exactly if the tree lists it. -/
theorem FileTree.isFile_iff {tree : FileTree} {location : TreePath} :
    tree.isFile location = true ↔ location ∈ tree.files.map Prod.fst := by
  simp [isFile, content?, List.find?_isSome]

namespace SourceScan

/-- A location is reached exactly if nothing on the way is skipped. -/
theorem reaches_iff {directory location : TreePath} :
    reaches directory location = true ↔
      ∃ names, location = directory ++ names ∧ ∀ name ∈ names, isSkipped name = false := by
  unfold reaches
  cases hbelow : below? directory location with
  | none =>
    refine iff_of_false Bool.false_ne_true fun ⟨names, heq, _⟩ => ?_
    rw [heq, below?_append] at hbelow
    cases hbelow
  | some names =>
    obtain rfl := below?_eq_some_iff.mp hbelow
    simp

/-- On the way to a part of a directory nothing is passed over, so both scans reach the same places in it. -/
theorem reaches_append {directory names : TreePath} (h : ∀ name ∈ names, isSkipped name = false)
    (location : TreePath) :
    reaches (directory ++ names) location =
      (reaches directory location && (directory ++ names).isPrefixOf location) := by
  rw [Bool.eq_iff_iff, Bool.and_eq_true, reaches_iff, reaches_iff, List.isPrefixOf_iff_prefix]
  constructor
  · rintro ⟨rest, rfl, hrest⟩
    refine ⟨⟨names ++ rest, List.append_assoc .., fun name hname => ?_⟩, List.prefix_append _ _⟩
    exact (List.mem_append.mp hname).elim (h name) (hrest name)
  · rintro ⟨⟨all, rfl, hall⟩, rest, hrest⟩
    rw [List.append_assoc, List.append_cancel_left_eq] at hrest
    subst hrest
    exact ⟨rest, (List.append_assoc ..).symm, fun name hname => hall name (List.mem_append_right _ hname)⟩

/-- The way to a location ends there. -/
theorem wayTo_concat (location : TreePath) (name : String) :
    wayTo (location ++ [name]) = wayTo location ++ [location ++ [name]] := by
  induction location with
  | nil => rfl
  | cons first rest ih => simp [wayTo, ih]

/-- The ancestors of a location begin with itself. -/
theorem ancestors_concat (location : TreePath) (name : String) :
    ancestors (location ++ [name]) = (location ++ [name]) :: ancestors location := by
  rw [ancestors, wayTo_concat, List.reverse_concat]
  rfl

/-- A directory with a manifest is its own crate. -/
theorem crateOf?_of_manifest {tree : FileTree} {crate : TreePath}
    (h : tree.isFile (crate ++ [manifestName]) = true) : crateOf? tree crate = some crate := by
  rcases crate.eq_nil_or_concat with rfl | ⟨above, name, rfl⟩
  · exact List.find?_cons_of_pos h
  · rw [List.concat_eq_append] at h ⊢
    rw [crateOf?, ancestors_concat]
    exact List.find?_cons_of_pos h

/-- Without a manifest on the way down, the crate stays the same. -/
theorem crateOf?_append {tree : FileTree} (directory names : TreePath)
    (h : ∀ first, first <+: names → first ≠ [] → tree.isFile (directory ++ first ++ [manifestName]) = false) :
    crateOf? tree (directory ++ names) = crateOf? tree directory := by
  induction names using List.reverseRecOn with
  | nil => rw [List.append_nil]
  | append_singleton names name ih =>
    have hlast := h (names ++ [name]) (List.prefix_refl _) (List.concat_ne_nil _ _)
    rw [← List.append_assoc] at hlast
    have hskip : crateOf? tree (directory ++ names ++ [name]) = crateOf? tree (directory ++ names) := by
      rw [crateOf?, ancestors_concat]
      exact List.find?_cons_of_neg (ne_true_of_eq_false hlast)
    rw [← List.append_assoc, hskip]
    exact ih fun first hfirst => h first (hfirst.trans (List.prefix_append _ _))

section Crate

variable {tree : FileTree} {crate : TreePath}

/-- The source root of a crate is its source directory. -/
theorem sourceRootOf_crate (hmanifest : tree.isFile (crate ++ [manifestName]) = true)
    (hsources : tree.isDirectory (crate ++ [sourceDirectoryName]) = true) :
    sourceRootOf tree crate = crate ++ [sourceDirectoryName] := by
  simp [sourceRootOf, crateOf?_of_manifest hmanifest, hsources]

/-- So is that of a part of it that has no manifest of its own. -/
theorem sourceRootOf_part (hmanifest : tree.isFile (crate ++ [manifestName]) = true)
    (hsources : tree.isDirectory (crate ++ [sourceDirectoryName]) = true)
    (hnested : ∀ names, tree.isFile (crate ++ [sourceDirectoryName] ++ names ++ [manifestName]) = false)
    (names : TreePath) :
    sourceRootOf tree (crate ++ [sourceDirectoryName] ++ names) = crate ++ [sourceDirectoryName] := by
  have hcrate : crateOf? tree (crate ++ [sourceDirectoryName] ++ names) = some crate := by
    rw [List.append_assoc, crateOf?_append, crateOf?_of_manifest hmanifest]
    rintro first ⟨rest, hrest⟩ hne
    obtain ⟨name, below, rfl⟩ := List.exists_cons_of_ne_nil hne
    obtain ⟨rfl, -⟩ := List.cons_eq_cons.mp hrest
    simpa using hnested below
  have hbelow : (crate ++ [sourceDirectoryName]).isPrefixOf (crate ++ [sourceDirectoryName] ++ names) = true :=
    List.isPrefixOf_iff_prefix.mpr (List.prefix_append _ _)
  simp only [sourceRootOf, hcrate, hsources, hbelow, Bool.or_true, Bool.true_and, if_true]

end Crate

/-- Leaving entries out and sorting can be done in either order. -/
theorem mergeSort_filter (locations : List TreePath) (keep : TreePath → Bool) :
    (locations.filter keep).mergeSort (fun a b => compareLocations a b != .gt) =
      (locations.mergeSort fun a b => compareLocations a b != .gt).filter keep := by
  have hcmp : Std.TransCmp compareLocations := inferInstanceAs (Std.TransCmp (Text.compareLists Text.compareText))
  have hle (a b : TreePath) : (compareLocations a b != .gt) = (compareLocations a b).isLE := by
    cases compareLocations a b <;> rfl
  have hsorted (entries : List TreePath) :
      (entries.mergeSort fun a b => compareLocations a b != .gt).Pairwise
        fun a b => (compareLocations a b != .gt) = true := by
    refine List.pairwise_mergeSort (fun a b c hab hbc => ?_) (fun a b => ?_) entries
    · rw [hle] at hab hbc ⊢
      exact Std.TransCmp.isLE_trans hab hbc
    · rw [hle, hle, @Std.OrientedCmp.eq_swap _ compareLocations _ b a]
      cases compareLocations a b <;> rfl
  refine List.Perm.eq_of_pairwise (fun a b _ _ hab hba => ?_) (hsorted _) ((hsorted _).filter keep) ?_
  · rw [hle] at hab hba
    have heq : compareLocations a b = .eq := Std.OrientedCmp.isLE_antisymm hab hba
    exact (Text.compareLists_eq_iff Text.compareText_eq_iff a b).mp heq
  · exact (List.mergeSort_perm _ _).trans ((List.mergeSort_perm locations _).filter keep).symm

/-- Of what is reached from a directory, what lies below a part is reached from the part. -/
theorem reached_append {tree : FileTree} {directory names : TreePath} (h : ∀ name ∈ names, isSkipped name = false) :
    reached tree (directory ++ names) =
      (reached tree directory).filter fun location => (directory ++ names).isPrefixOf location := by
  rw [reached, reached, ← mergeSort_filter, List.filter_filter]
  congr 1
  refine List.filter_congr fun location _ => ?_
  rw [reaches_append h, Bool.and_comm (reaches directory location), Bool.and_assoc]

/-- What is reached is a file. -/
theorem isFile_of_mem_reached {tree : FileTree} {directory location : TreePath}
    (h : location ∈ reached tree directory) : tree.isFile location = true := by
  rw [reached, List.mem_mergeSort] at h
  exact FileTree.isFile_iff.mpr (List.mem_filter.mp h).1

/-- The root file of a program is left out in a part of the sources as it is in all of them. -/
theorem dropProgramRoot_filter {sources names : TreePath} {locations : List TreePath}
    (h : sources ++ names ∉ locations) :
    dropProgramRoot sources (locations.filter fun location => (sources ++ names).isPrefixOf location) =
      (dropProgramRoot sources locations).filter fun location => (sources ++ names).isPrefixOf location := by
  -- A file of the source directory itself lies in the part only if the part is the whole directory.
  have hown (name : String) (hne : names ≠ []) :
      sources ++ [name] ∉ locations.filter fun location => (sources ++ names).isPrefixOf location := by
    intro hmem
    obtain ⟨hlocation, hbelow⟩ := List.mem_filter.mp hmem
    have hprefix : names <+: [name] :=
      (List.prefix_append_right_inj sources).mp (List.isPrefixOf_iff_prefix.mp hbelow)
    rcases List.prefix_cons_iff.mp hprefix with rfl | ⟨rest, rfl, hrest⟩
    · exact hne rfl
    · rw [List.prefix_nil.mp hrest] at h
      exact h hlocation
  have hsame : (locations.filter fun location => (sources ++ names).isPrefixOf location).filter
        (fun location => location != sources ++ ["main.rs"]) =
      (locations.filter fun location => location != sources ++ ["main.rs"]).filter
        fun location => (sources ++ names).isPrefixOf location := List.filter_comm ..
  by_cases hnames : names = []
  · have hlibrary : (sources ++ names).isPrefixOf (sources ++ ["lib.rs"]) = true := by
      rw [hnames, List.append_nil]
      exact List.isPrefixOf_iff_prefix.mpr (List.prefix_append _ _)
    have hcontains : (locations.filter fun location => (sources ++ names).isPrefixOf location).contains
        (sources ++ ["lib.rs"]) = locations.contains (sources ++ ["lib.rs"]) := by
      rw [Bool.eq_iff_iff, List.contains_iff_mem, List.contains_iff_mem, List.mem_filter]
      exact and_iff_left hlibrary
    rw [dropProgramRoot, dropProgramRoot, hcontains, hsame]
    split <;> rfl
  · have hlibrary := hown "lib.rs" hnames
    have hprogram := hown "main.rs" hnames
    rw [dropProgramRoot, if_neg (by simpa using hlibrary), dropProgramRoot]
    split
    · rw [← hsame]
      refine (List.filter_eq_self.mpr fun location hlocation => ?_).symm
      exact bne_iff_ne.mpr fun heq => hprogram (heq ▸ hlocation)
    · rfl

/-- Below the sources, the module of a file does not depend on where the scan starts. -/
theorem moduleOf_congr {sources location : TreePath} (h : sources <+: location) (first second : TreePath) :
    moduleOf sources first location = moduleOf sources second location := by
  obtain ⟨rest, rfl⟩ := h
  rw [moduleOf, moduleOf, below?_append, Option.some_or, Option.some_or]

/-- The scan of a directory among the sources of a crate is the part of the crate's scan that lies under it: the
same files in the same order, with the same modules. The directory is the source directory or lies below it, and
no name on the way is passed over. -/
theorem scan_part_of_crate (tree : FileTree) (crate names : TreePath)
    (hmanifest : tree.isFile (crate ++ [manifestName]) = true)
    (hsources : tree.isDirectory (crate ++ [sourceDirectoryName]) = true)
    (hnested : ∀ below, tree.isFile (crate ++ [sourceDirectoryName] ++ below ++ [manifestName]) = false)
    (hdirectory : tree.isFile (crate ++ [sourceDirectoryName] ++ names) = false)
    (hnames : ∀ name ∈ names, isSkipped name = false) :
    let directory := crate ++ [sourceDirectoryName] ++ names
    (ofDirectory tree directory).files =
        (ofDirectory tree crate).files.filter (fun file => directory.isPrefixOf file.location) ∧
      (ofDirectory tree directory).sourceRoot = (ofDirectory tree crate).sourceRoot := by
  intro directory
  set sources := crate ++ [sourceDirectoryName] with hsourcesDef
  have hroot : sourceRootOf tree directory = sources := sourceRootOf_part hmanifest hsources hnested names
  have hcrateRoot : sourceRootOf tree crate = sources := sourceRootOf_crate hmanifest hsources
  have hskipped : ∀ name ∈ [sourceDirectoryName] ++ names, isSkipped name = false :=
    List.forall_mem_cons.mpr ⟨by decide, hnames⟩
  have hreached : reached tree directory =
      (reached tree crate).filter fun location => directory.isPrefixOf location := by
    have happend : directory = crate ++ ([sourceDirectoryName] ++ names) := List.append_assoc ..
    rw [happend]
    exact reached_append hskipped
  have hlocations : dropProgramRoot sources (reached tree directory) =
      (dropProgramRoot sources (reached tree crate)).filter fun location => directory.isPrefixOf location := by
    rw [hreached]
    refine dropProgramRoot_filter fun hmem => ?_
    rw [isFile_of_mem_reached hmem] at hdirectory
    cases hdirectory
  simp only [ofDirectory, hroot, hcrateRoot, hlocations, List.filter_map, and_true]
  refine List.map_congr_left fun location hlocation => ?_
  have hbelow : sources <+: location :=
    (List.prefix_append _ _).trans (List.isPrefixOf_iff_prefix.mp (List.mem_filter.mp hlocation).2)
  rw [moduleOf_congr hbelow directory crate]

/-- A crate with the root files of a library and of a program, a directory among its sources, and files that are
passed over or lie elsewhere. -/
def shopTree : FileTree where
  top := "/work"
  files :=
    [(["shop", "Cargo.toml"], .text ""), (["shop", "src", "main.rs"], .text ""),
     (["shop", "src", "lib.rs"], .text ""),
     (["shop", "src", "api", "pets.rs"], .text ""), (["shop", "src", "api", ".old.rs"], .text ""),
     (["shop", "src", "api", "mod.rs"], .text ""), (["shop", "tests", "pets.rs"], .text "")]

/-- The sources of the crate, and the directory among them, are scanned as in the scan of the crate. -/
theorem scan_part_of_crate_shop :
    (ofDirectory shopTree ["shop", "src"]).files =
        (ofDirectory shopTree ["shop"]).files.filter (fun file => ["shop", "src"].isPrefixOf file.location) ∧
      (ofDirectory shopTree ["shop", "src", "api"]).files =
        (ofDirectory shopTree ["shop"]).files.filter (fun file => ["shop", "src", "api"].isPrefixOf file.location) ∧
      (reached shopTree ["shop", "src", "api"]).Perm
        [["shop", "src", "api", "pets.rs"], ["shop", "src", "api", "mod.rs"]] := by
  have hmanifest : shopTree.isFile (["shop"] ++ [manifestName]) = true := by decide
  have hsources : shopTree.isDirectory (["shop"] ++ [sourceDirectoryName]) = true := by decide
  have hnested (below : TreePath) :
      shopTree.isFile (["shop"] ++ [sourceDirectoryName] ++ below ++ [manifestName]) = false := by
    have honly : ∀ location ∈ shopTree.files.map Prod.fst,
        location.getLast? = some manifestName → location.length = 2 := by decide
    refine Bool.eq_false_iff.mpr fun hfile => ?_
    have hlength := honly _ (FileTree.isFile_iff.mp hfile) List.getLast?_concat
    simp at hlength
  refine ⟨?_, ?_, (List.mergeSort_perm _ _).trans (.of_eq (by decide))⟩
  · exact (scan_part_of_crate shopTree ["shop"] [] hmanifest hsources hnested (by decide) (by decide)).1
  · exact (scan_part_of_crate shopTree ["shop"] ["api"] hmanifest hsources hnested (by decide) (by decide)).1

end SourceScan

end ApiScribe
