import ApiScribe.Declaration.Options

/-!
# Declarations

What extraction keeps of a source file: types and traits under their qualified names, imports by
module, and functions whose comments carry directives.
-/

namespace ApiScribe

open Source (TypeSyntax UseTree)

/-- A name that a `use` declaration brings into a module. -/
structure Import where
  /-- The name it introduces; `*` for a glob. -/
  localName : String
  /-- The path as written. -/
  path : List String
  glob : Bool
deriving DecidableEq, Repr, Inhabited

/-- The import of one leaf, or none when it binds no usable name. -/
def Import.ofLeaf (before : List String) (ident : String) (rename : Option String) : List Import :=
  let path := if ident = "self" then before else before ++ [ident]
  match path.getLast? with
  | none => []
  | some last =>
    let localName := rename.getD last
    if localName = "_" then [] else [⟨localName, path, false⟩]

/-- A walk through a `use` tree: the segments above the current place and the imports found so far. -/
structure UseWalk where
  before : List String
  imports : List Import
deriving DecidableEq, Repr, Inhabited

namespace UseWalk

/-- Go down below a segment. -/
def enter (walk : UseWalk) (segment : String) : UseWalk := { walk with before := walk.before ++ [segment] }

/-- Come back up from below a segment. -/
def leave (walk : UseWalk) : UseWalk := { walk with before := walk.before.dropLast }

/-- Add imports behind those found so far. -/
def add (walk : UseWalk) (imports : List Import) : UseWalk := { walk with imports := walk.imports ++ imports }

mutual

/-- Find the imports of a `use` tree, from left to right. -/
def flatten (walk : UseWalk) : UseTree → UseWalk
  | .path ident tree => (flatten (walk.enter (Source.unraw ident)) tree).leave
  | .name ident => walk.add (Import.ofLeaf walk.before (Source.unraw ident) none)
  | .rename ident newName =>
    walk.add (Import.ofLeaf walk.before (Source.unraw ident) (some (Source.unraw newName)))
  | .glob => walk.add [⟨"*", walk.before, true⟩]
  | .group trees => flattenAll walk trees

/-- Find the imports of several `use` trees, one after the other. -/
def flattenAll (walk : UseWalk) : List UseTree → UseWalk
  | [] => walk
  | tree :: rest => flattenAll (flatten walk tree) rest

end

end UseWalk

/-- The imports of a `use` tree below the given path, from left to right. -/
def Import.ofTree (before : List String) (tree : UseTree) : List Import :=
  (UseWalk.flatten ⟨before, []⟩ tree).imports

/-- A field of a struct; a tuple field has no name. -/
structure FieldDeclaration where
  ident : Option String
  type : TypeSyntax
  docs : List String
  options : FieldOptions
deriving Repr, Inhabited

/-- A variant of an enum. -/
structure VariantDeclaration where
  ident : String
  docs : List String
  options : FieldOptions
  /-- Carries no data. -/
  isUnit : Bool
deriving DecidableEq, Repr, Inhabited

/-- A method of a trait. -/
structure MethodDeclaration where
  ident : String
  docs : List String
deriving DecidableEq, Repr, Inhabited

/-- What a declaration declares. -/
inductive Shape where
  | struct (fields : List FieldDeclaration)
  /-- A type alias, or a struct of a single tuple field. -/
  | typeAlias (target : TypeSyntax)
  | enum (variants : List VariantDeclaration)
  | interface (methods : List MethodDeclaration)
deriving Repr, Inhabited

/-- The word for a shape. -/
def Shape.label : Shape → String
  | .struct _ => "struct"
  | .typeAlias _ => "alias"
  | .enum _ => "enum"
  | .interface _ => "interface"

/-- Whether a shape is a trait. -/
def Shape.isInterface : Shape → Bool
  | .interface _ => true
  | _ => false

/-- A declared type or trait. -/
structure Declaration where
  name : QualifiedName
  shape : Shape
  docs : List String
  /-- The names of its type parameters. -/
  generics : List String
  options : ContainerOptions
  /-- The file that declares it. -/
  source : String
deriving Repr, Inhabited

/-- The trait or implementation that an operation belongs to. -/
structure Owner where
  name : String
  docs : List String
deriving DecidableEq, Repr, Inhabited

/-- A function or method whose comment carries directives. -/
structure Candidate where
  /-- `Owner::method`, or the name of the function. -/
  subject : String
  /-- The module whose scope its type names are looked up in. -/
  module : ModulePath
  docs : List String
  owner : Option Owner
  source : String
deriving DecidableEq, Repr, Inhabited

end ApiScribe
