import ApiScribe.FileTree.Sources
import ApiScribe.Proofs.Text.Cutting

/-!
# Where the file of a module lies

A module that is loaded on demand comes from one of two places below a source root. A scan goes the other way and
gives a module to a file by its place. The two agree, apart from files whose name stands for another module: the
root files of a library and of a program directly below the source root, and the file `mod.rs` of a directory, which
a module named `mod` shares.
-/

namespace ApiScribe

namespace Source

/-- The text is an identifier, marked as raw or not. -/
def IsIdentifier (text : String) : Prop := anyIdent text.toList = some (text.toList, [])

instance : DecidablePred IsIdentifier := fun text =>
  inferInstanceAs (Decidable (anyIdent text.toList = some (text.toList, [])))

/-- What starts an identifier may continue one. -/
theorem isIdentContinue_of_isIdentStart {c : Char} (h : Text.isIdentStart c = true) :
    Text.isIdentContinue c = true := by
  unfold Text.isIdentContinue
  dsimp only
  split
  · next hascii =>
    rw [Text.isIdentStart, if_pos hascii, Bool.or_eq_true] at h
    rw [Char.isAlphanum, Bool.or_assoc, Bool.or_eq_true, Bool.or_eq_true]
    exact h.imp_right .inr
  · rw [h, Bool.true_or]

/-- An identifier is made of characters that may continue one. -/
theorem all_of_plainIdent {cs : List Char} (h : plainIdent cs = some (cs, [])) :
    ∀ c ∈ cs, Text.isIdentContinue c = true := by
  cases cs with
  | nil => exact fun _ hc => absurd hc List.not_mem_nil
  | cons first rest =>
    rw [plainIdent] at h
    split at h
    · next hfirst =>
      have hrest : rest.takeWhile Text.isIdentContinue = rest := by simpa using congrArg (Option.map Prod.fst) h
      rw [List.forall_mem_cons]
      refine ⟨isIdentContinue_of_isIdentStart hfirst, fun c hc => ?_⟩
      rw [← hrest] at hc
      exact List.all_eq_true.mp List.all_takeWhile c hc
    · cases h

/-- An identifier has no other characters than those of its name and of the mark. -/
theorem IsIdentifier.not_mem {text : String} (h : IsIdentifier text) {c : Char}
    (hcontinue : Text.isIdentContinue c = false) (hmark : c ≠ '#') : c ∉ text.toList := by
  have hplain {cs : List Char} (hcs : plainIdent cs = some (cs, [])) : c ∉ cs := fun hmem => by
    rw [all_of_plainIdent hcs c hmem] at hcontinue
    cases hcontinue
  unfold IsIdentifier anyIdent at h
  split at h
  · next raw htext =>
    obtain ⟨⟨name, rest⟩, hread, hkept⟩ := Option.bind_eq_some_iff.mp h
    dsimp only at hkept
    split at hkept
    · cases hkept
    · rw [Option.some.injEq, Prod.mk.injEq, htext, List.cons_inj_right, List.cons_inj_right] at hkept
      obtain ⟨rfl, rfl⟩ := hkept
      rw [htext, List.mem_cons, List.mem_cons, not_or, not_or]
      refine ⟨fun hr => ?_, hmark, hplain hread⟩
      rw [hr] at hcontinue
      exact absurd hcontinue (by decide)
  · exact hplain h

/-- An identifier is not empty. -/
theorem IsIdentifier.ne_empty {text : String} (h : IsIdentifier text) : text ≠ "" := by
  rintro rfl
  cases h

end Source

namespace ModulePath

/-- The last name of a location decides which module it defines. -/
theorem ofLocation_concat (parents : List String) (name : String) :
    ofLocation (parents ++ [name]) =
      let stem := (Text.dropFinal ".rs" name).getD name
      if stem = "mod" || (parents.isEmpty && (stem = "lib" || stem = "main")) then ⟨parents⟩
      else ⟨parents ++ [stem]⟩ := by
  rw [ofLocation, List.getLast?_concat, List.dropLast_concat]

/-- A module is a file of its name or a directory with `mod.rs`. -/
theorem mem_locations_iff {module : ModulePath} {relative : List String} :
    relative ∈ module.locations ↔ ∃ parents last, module.segments = parents ++ [last] ∧
      (relative = parents ++ [last ++ ".rs"] ∨ relative = parents ++ [last, "mod.rs"]) := by
  obtain ⟨segments⟩ := module
  rcases segments.eq_nil_or_concat with rfl | ⟨parents, last, rfl⟩
  · simp [locations]
  · simp only [locations, List.concat_eq_append, List.getLast?_concat, List.dropLast_concat, List.mem_cons,
      List.not_mem_nil, or_false]
    refine ⟨fun h => ⟨parents, last, rfl, h⟩, ?_⟩
    rintro ⟨parents', last', heq, h⟩
    obtain ⟨rfl, hlast⟩ := List.append_inj' heq rfl
    rwa [List.singleton_inj.mp hlast]

/-- The file of a module's directory has the module by its place. -/
theorem ofLocation_directory (parents : List String) (last : String) :
    ofLocation (parents ++ [last, "mod.rs"]) = ⟨parents ++ [last]⟩ := by
  rw [List.append_cons, ofLocation_concat]
  rfl

/-- The file of a module's own name has the module by its place, unless the name stands for another module. -/
theorem ofLocation_own_iff (parents : List String) (last : String) :
    ofLocation (parents ++ [last ++ ".rs"]) = ⟨parents ++ [last]⟩ ↔
      last ≠ "mod" ∧ ¬ (parents = [] ∧ (last = "lib" ∨ last = "main")) := by
  have hmodules : (⟨parents⟩ : ModulePath) ≠ ⟨parents ++ [last]⟩ := by simp
  rw [ofLocation_concat, Text.dropFinal_eq_some_iff.mpr rfl, Option.getD_some, ← not_or]
  dsimp only
  split
  · next h => exact iff_of_false hmodules (not_not_intro (by simpa using h))
  · next h => exact iff_of_true rfl (by simpa using h)

/-- A location of a module defines it, unless it is that of the crate root or of the enclosing module. -/
theorem ofLocation_eq_iff {module : ModulePath} {relative : List String} (h : relative ∈ module.locations) :
    ofLocation relative = module ↔
      relative ≠ ["lib.rs"] ∧ relative ≠ ["main.rs"] ∧ relative ≠ module.segments.dropLast ++ ["mod.rs"] := by
  obtain ⟨segments⟩ := module
  have hname (last stem : String) : last ++ ".rs" = stem ++ ".rs" ↔ last = stem := String.append_left_inj _
  obtain ⟨parents, last, hsegments, rfl | rfl⟩ := mem_locations_iff.mp h
  · obtain rfl : segments = parents ++ [last] := hsegments
    have hlib : parents ++ [last ++ ".rs"] = ["lib.rs"] ↔ parents = [] ∧ last = "lib" := by
      rw [List.append_eq_singleton_iff]
      simp [← hname last "lib"]
    have hmain : parents ++ [last ++ ".rs"] = ["main.rs"] ↔ parents = [] ∧ last = "main" := by
      rw [List.append_eq_singleton_iff]
      simp [← hname last "main"]
    have hmod : parents ++ [last ++ ".rs"] = parents ++ ["mod.rs"] ↔ last = "mod" := by
      simp [← hname last "mod"]
    rw [ofLocation_own_iff, List.dropLast_concat, ne_eq, ne_eq, ne_eq, ne_eq, hlib, hmain, hmod]
    grind
  · obtain rfl : segments = parents ++ [last] := hsegments
    refine iff_of_true (ofLocation_directory parents last) ⟨?_, ?_, ?_⟩
    all_goals
      intro heq
      simpa using congrArg List.length heq

/-- A name that stays as it is when a path is cut at its slashes. -/
def IsPathName (name : String) : Prop := '/' ∉ name.toList ∧ name ≠ "" ∧ name ≠ "." ∧ name ≠ ".."

/-- An identifier can be a name in a path. -/
theorem isPathName_of_isIdentifier {name : String} (h : Source.IsIdentifier name) : IsPathName name := by
  have hpoint : '.' ∉ name.toList := h.not_mem (by decide) (by decide)
  refine ⟨h.not_mem (by decide) (by decide), h.ne_empty, ?_, ?_⟩
  all_goals
    rintro rfl
    exact hpoint (by decide)

/-- So can a source file that is named for an identifier. -/
theorem isPathName_sourceFile {name : String} (h : Source.IsIdentifier name) : IsPathName (name ++ ".rs") := by
  have hletter : 'r' ∈ (name ++ ".rs").toList := by simp
  refine ⟨?_, ?_, ?_, ?_⟩
  · rw [String.toList_append, List.mem_append, not_or]
    exact ⟨(isPathName_of_isIdentifier h).1, by decide⟩
  all_goals
    intro heq
    rw [heq] at hletter
    exact absurd hletter (by decide)

/-- A path of names is cut into these names. -/
theorem locationSegments_join {names : List String} (hne : names ≠ []) (h : ∀ name ∈ names, IsPathName name) :
    locationSegments (Text.join "/" names) = names := by
  have hsplit : Text.splitOnChar '/' (Text.join "/" names) = names :=
    Text.splitOnChar_join hne fun name hname => (h name hname).1
  rw [locationSegments, hsplit, List.filter_eq_self]
  intro name hname
  simpa [and_assoc] using (h name hname).2

/-- The path of a module's file below a source root leads to the names that it was put together from. -/
theorem ofFile_join {module : ModulePath} (hnames : ∀ segment ∈ module.segments, Source.IsIdentifier segment)
    {relative : List String} (h : relative ∈ module.locations) :
    ofFile (Text.join "/" relative) = ofLocation relative := by
  obtain ⟨parents, last, hsegments, hrelative⟩ := mem_locations_iff.mp h
  rw [hsegments, List.forall_mem_append, List.forall_mem_singleton] at hnames
  have hparents : ∀ name ∈ parents, IsPathName name :=
    fun name hname => isPathName_of_isIdentifier (hnames.1 name hname)
  rw [ofFile, locationSegments_join]
  · rcases hrelative with rfl | rfl <;> simp
  · rcases hrelative with rfl | rfl
    · rw [List.forall_mem_append, List.forall_mem_singleton]
      exact ⟨hparents, isPathName_sourceFile hnames.2⟩
    · rw [List.forall_mem_append, List.forall_mem_cons, List.forall_mem_singleton]
      exact ⟨hparents, isPathName_of_isIdentifier hnames.2, by decide, by decide, by decide, by decide⟩

end ModulePath

/-- A module is loaded from one of its places below one of the source roots. -/
theorem Loader.exists_of_placeOf? {tree : FileTree} {roots : List TreePath} {module : ModulePath}
    {location : TreePath} (h : placeOf? tree roots module = some location) :
    ∃ root ∈ roots, ∃ relative ∈ module.locations, location = root ++ relative ∧ tree.isFile location = true := by
  obtain ⟨root, hroot, hfind⟩ := List.exists_of_findSome?_eq_some h
  obtain ⟨relative, hrelative, rfl⟩ := List.mem_map.mp (List.mem_of_find?_eq_some hfind)
  exact ⟨root, hroot, relative, hrelative, rfl, List.find?_some hfind⟩

/-- A file from which a module is loaded on demand has that module when it is scanned, exactly unless the file is
the root file of a library or of a program, or the file `mod.rs` of the directory above a module named `mod`. -/
theorem loaded_module_is_scanned_iff {tree : FileTree} {roots : List TreePath} {module : ModulePath}
    {location : TreePath} (hnames : ∀ segment ∈ module.segments, Source.IsIdentifier segment)
    (h : Loader.placeOf? tree roots module = some location) :
    ∃ root ∈ roots, ∃ relative ∈ module.locations, location = root ++ relative ∧
      (∀ directory, SourceScan.moduleOf root directory location = ModulePath.ofFile (Text.join "/" relative)) ∧
      (ModulePath.ofFile (Text.join "/" relative) = module ↔
        relative ≠ ["lib.rs"] ∧ relative ≠ ["main.rs"] ∧ relative ≠ module.segments.dropLast ++ ["mod.rs"]) := by
  obtain ⟨root, hroot, relative, hrelative, rfl, -⟩ := Loader.exists_of_placeOf? h
  refine ⟨root, hroot, relative, hrelative, rfl, ?_⟩
  rw [ModulePath.ofFile_join hnames hrelative]
  refine ⟨fun directory => ?_, ModulePath.ofLocation_eq_iff hrelative⟩
  rw [SourceScan.moduleOf, SourceScan.below?_append, Option.some_or, Option.getD_some]

/-- The sources of a library with a module in a directory of its own and one beside it. -/
def libraryTree : FileTree where
  top := "/work"
  files := [(["src", "lib.rs"], .text ""), (["src", "pets", "mod.rs"], .text ""),
    (["src", "pets", "dog.rs"], .text "")]

/-- A module in a directory is loaded from the file that a scan gives it. -/
theorem loaded_module_is_scanned_iff_dog :
    Loader.placeOf? libraryTree [["src"]] ⟨["pets", "dog"]⟩ = some ["src", "pets", "dog.rs"] ∧
      SourceScan.moduleOf ["src"] [] ["src", "pets", "dog.rs"] = ⟨["pets", "dog"]⟩ := by
  have hplace : Loader.placeOf? libraryTree [["src"]] ⟨["pets", "dog"]⟩ =
      some ["src", "pets", "dog.rs"] := by decide
  refine ⟨hplace, ?_⟩
  obtain ⟨root, hroot, relative, -, hlocation, hscan, hmodule⟩ := loaded_module_is_scanned_iff (by decide) hplace
  obtain rfl := List.mem_singleton.mp hroot
  obtain rfl : ["pets", "dog.rs"] = relative := by simpa using hlocation
  rw [hscan, hmodule]
  decide

/-- The root file of a library is loaded again as a module named `lib`, while a scan gives it the crate root. -/
theorem root_file_loaded_as_lib :
    Loader.placeOf? libraryTree [["src"]] ⟨["lib"]⟩ = some ["src", "lib.rs"] ∧
      SourceScan.moduleOf ["src"] [] ["src", "lib.rs"] = .root ∧ ModulePath.ofFile "lib.rs" = .root := by
  decide

end ApiScribe
