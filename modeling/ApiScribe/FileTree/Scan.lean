import ApiScribe.FileTree.Basic
import ApiScribe.ModulePath

/-!
# Scanning a directory for sources

All source files below a directory, each with the module that it defines. Module paths are relative to
the `src` directory of the enclosing crate, or else to the scanned directory. Hidden directories and
files, and those named `target`, are passed over unless they are the scanned one.
-/

namespace ApiScribe

/-- A source file that was found. -/
structure FoundSource where
  location : TreePath
  module : ModulePath
deriving DecidableEq, Repr

/-- The result of a scan. -/
structure SourceScan where
  /-- The files in the order of their paths. -/
  files : List FoundSource
  /-- The directory that module paths are relative to. -/
  sourceRoot : TreePath
deriving DecidableEq, Repr

namespace SourceScan

/-- The file that marks the directory of a crate. -/
def manifestName : String := "Cargo.toml"

/-- The directory of a crate's sources. -/
def sourceDirectoryName : String := "src"

/-- Whether entries of a name are passed over. -/
def isSkipped (name : String) : Bool := Text.startsWith "." name || name = "target"

/-- The names of a place below a directory; `none` for a place that is not below it. -/
def below? : (directory location : TreePath) → Option TreePath
  | [], location => some location
  | _ :: _, [] => none
  | name :: directory, other :: location => if name = other then below? directory location else none

/-- Whether a scan of a directory reaches a place. -/
def reaches (directory location : TreePath) : Bool :=
  match below? directory location with
  | some names => names.all fun name => !isSkipped name
  | none => false

/-- Whether a place has the name of a source file. -/
def isSourceName (location : TreePath) : Bool :=
  (location.getLast?.bind FilePath.nameExtension?) = some "rs"

/-- The places on the way down to a place, the top first and the place itself last. -/
def wayTo : TreePath → List TreePath
  | [] => [[]]
  | name :: rest => [] :: (wayTo rest).map (name :: ·)

/-- The place itself and the directories above it, the nearest first. -/
def ancestors (location : TreePath) : List TreePath := (wayTo location).reverse

/-- The directory of the crate that encloses a place. -/
def crateOf? (tree : FileTree) (location : TreePath) : Option TreePath :=
  (ancestors location).find? fun directory => tree.isFile (directory ++ [manifestName])

/-- The directory that the modules of a scan are relative to. -/
def sourceRootOf (tree : FileTree) (location : TreePath) : TreePath :=
  match crateOf? tree location with
  | none => location
  | some crate =>
    let sources := crate ++ [sourceDirectoryName]
    if tree.isDirectory sources && (crate = location || sources.isPrefixOf location) then sources
    else location

/-- The module of a file: by its place below the source directory, or else below the scanned one. -/
def moduleOf (sourceRoot directory location : TreePath) : ModulePath :=
  .ofLocation (((below? sourceRoot location).or (below? directory location)).getD location)

/-- The order of places, name by name. -/
def compareLocations : TreePath → TreePath → Ordering := Text.compareLists Text.compareText

/-- The source files of a tree that a scan of a directory reaches, in order. -/
def reached (tree : FileTree) (directory : TreePath) : List TreePath :=
  let found := (tree.files.map Prod.fst).filter fun location =>
    reaches directory location && isSourceName location
  found.mergeSort fun a b => compareLocations a b != .gt

/-- Beside the root file of a library, the root file of a program is not part of the crate. -/
def dropProgramRoot (sourceRoot : TreePath) (locations : List TreePath) : List TreePath :=
  if locations.contains (sourceRoot ++ ["lib.rs"]) then
    locations.filter fun location => location != sourceRoot ++ ["main.rs"]
  else locations

/-- Scan a directory of a tree. -/
def ofDirectory (tree : FileTree) (directory : TreePath) : SourceScan :=
  let sourceRoot := sourceRootOf tree directory
  { files := (dropProgramRoot sourceRoot (reached tree directory)).map fun location =>
      ⟨location, moduleOf sourceRoot directory location⟩
    sourceRoot }

/-- A location is below a directory exactly if it goes on from there. -/
theorem below?_eq_some_iff {directory location names : TreePath} :
    below? directory location = some names ↔ location = directory ++ names := by
  induction directory generalizing location with
  | nil => simp [below?, eq_comm]
  | cons name directory ih =>
    cases location with
    | nil => simp [below?]
    | cons other location =>
      by_cases h : name = other
      · simp [below?, h, ih]
      · simp [below?, h, Ne.symm h]

/-- What goes on from a directory is below it. -/
theorem below?_append (directory names : TreePath) : below? directory (directory ++ names) = some names :=
  below?_eq_some_iff.mpr rfl

end SourceScan

end ApiScribe
