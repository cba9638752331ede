import ApiScribe.Text.Basic
import ApiScribe.Text.Order

/-!
# Module paths and qualified names

A module path is the place of a source file or inline module below the crate root. A
declaration is known by its qualified name, which is a module path and a local name.
-/

namespace ApiScribe

/-- The place of a module below the crate root, which itself has no segments. -/
structure ModulePath where
  segments : List String
deriving DecidableEq, Repr, Inhabited

namespace ModulePath

/-- The crate root. -/
def root : ModulePath := ⟨[]⟩

/-- Whether the module is the crate root. -/
def isRoot (module : ModulePath) : Bool := module.segments.isEmpty

/-- The module of this name inside. -/
def child (module : ModulePath) (name : String) : ModulePath := ⟨module.segments ++ [name]⟩

/-- The enclosing module; the crate root has none. -/
def parent? (module : ModulePath) : Option ModulePath :=
  if module.segments.isEmpty then none else some ⟨module.segments.dropLast⟩

/-- The module reached by further segments. -/
def join (module : ModulePath) (rest : List String) : ModulePath := ⟨module.segments ++ rest⟩

/-- The text `crate::a::b`. -/
def display (module : ModulePath) : String := Text.join "::" ("crate" :: module.segments)

/-- The text `a.b`, which tells components of one name apart. -/
def dotted (module : ModulePath) : String :=
  if module.segments.isEmpty then "crate" else Text.join "." module.segments

/-- The order of module paths, segment by segment. -/
def compare (a b : ModulePath) : Ordering := Text.compareLists Text.compareText a.segments b.segments

/-- The segments of a file's location, without empty, current and parent ones. -/
def locationSegments (location : String) : List String :=
  (Text.splitOnChar '/' location).filter fun part => part != "" && part != "." && part != ".."

/-- The module that a file with these location segments defines.

`mod` names its directory, and `lib` and `main` at the top are the crate root. -/
def ofLocation (segments : List String) : ModulePath :=
  match segments.getLast? with
  | none => root
  | some last =>
    let parents := segments.dropLast
    let stem := (Text.dropFinal ".rs" last).getD last
    if stem = "mod" || (parents.isEmpty && (stem = "lib" || stem = "main")) then ⟨parents⟩
    else ⟨parents ++ [stem]⟩

/-- The locations below the source directory at which a module's file is looked for, in order. -/
def locations (module : ModulePath) : List (List String) :=
  match module.segments.getLast? with
  | none => []
  | some last =>
    let parents := module.segments.dropLast
    [parents ++ [last ++ ".rs"], parents ++ [last, "mod.rs"]]

/-- The module that a file defines, by its location below the source directory. -/
def ofFile (location : String) : ModulePath := ofLocation (locationSegments location)

end ModulePath

/-- A module and the name of a declaration in it. -/
structure QualifiedName where
  module : ModulePath
  name : String
deriving DecidableEq, Repr, Inhabited

namespace QualifiedName

/-- The text `crate::a::b::Name`. -/
def display (name : QualifiedName) : String := name.module.display ++ "::" ++ name.name

/-- The canonical order: by module, then by local name. -/
def compare (a b : QualifiedName) : Ordering :=
  match ModulePath.compare a.module b.module with
  | .eq => Text.compareText a.name b.name
  | order => order

end QualifiedName

end ApiScribe
