import ApiScribe.FileTree.Scan
import ApiScribe.Lookup.Loader
import ApiScribe.Source.Read

/-!
# Sources in a file tree

Reading source files of a tree, and loading from it the modules that scanned files refer to.
-/

namespace ApiScribe

/-- Read a source file of a tree that defines a module; on failure, say why. -/
def FileTree.source (tree : FileTree) (location : TreePath) (path : String) (module : ModulePath) :
    Except String Source.File :=
  match tree.readAt location with
  | .error fault => .error (unreadableSource path fault.reason)
  | .ok text =>
    match Source.File.ofText? path module text with
    | some file => .ok file
    | none => .error (unparsableSource path)

namespace Loader

/-- The modules that a file below a source root can supply: by its own name, or for its directory. -/
def suppliedBy (location : TreePath) : List ModulePath :=
  match location.getLast? with
  | .none => []
  | some name =>
    match Text.dropFinal ".rs" name with
    | .none => []
    | some stem =>
      let parents := location.dropLast
      let own : ModulePath := ⟨parents ++ [stem]⟩
      if stem = "mod" && !parents.isEmpty then [own, ⟨parents⟩] else [own]

/-- The place of a module's file: the first that is there, root by root. -/
def placeOf? (tree : FileTree) (roots : List TreePath) (module : ModulePath) : Option TreePath :=
  roots.findSome? fun root =>
    (module.locations.map (root ++ ·)).find? tree.isFile

/-- What a tree supplies for a module. -/
def supply? (tree : FileTree) (roots : List TreePath) (module : ModulePath) :
    Option (Except Failure Source.File) :=
  (placeOf? tree roots module).map fun location =>
    let path := tree.pathOf location
    match tree.source location path module with
    | .ok file => .ok file
    | .error reason => .error (.parse path reason)

/-- The loader of the modules below source roots. -/
def ofTree (tree : FileTree) (roots : List TreePath) : Loader :=
  let below := roots.flatMap fun root =>
    tree.files.filterMap fun file => SourceScan.below? root file.1
  let modules := (below.flatMap suppliedBy).eraseDups
  { entries := modules.filterMap fun module => (supply? tree roots module).map fun found => (module, found) }

end Loader

end ApiScribe
