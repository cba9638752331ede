import ApiScribe.Source.Syntax
import ApiScribe.TypeExpr.Primitive

/-!
# Types by shape

A written type is classified by its shape: wrappers such as `Option` and references are
transparent, sequences and maps are recognised by name, a sequence of `u8` is a primitive, and
everything else is a name to be looked up, free-form, or unsupported.
-/

namespace ApiScribe

open Source (TypeSyntax)

/-- A type by its shape. -/
inductive TypeExpr where
  | primitive (primitive : Primitive)
  /-- A transparent wrapper. -/
  | pointer (inner : TypeExpr)
  | array (inner : TypeExpr)
  | map (key value : TypeExpr)
  /-- A bare name. -/
  | named (name : String)
  /-- A path of several segments. -/
  | selector (qualifier : List String) (name : String)
  /-- A free-form value, a trait object or a type parameter. -/
  | any
  | unsupported (what : String)
deriving DecidableEq, Repr, Inhabited

namespace TypeExpr

/-- The names of transparent wrappers. -/
def pointerNames : List String := ["Option", "Box", "Rc", "Arc", "Cow", "Json", "RefCell", "Cell"]

/-- The names of sequences. -/
def sequenceNames : List String := ["Vec", "VecDeque", "LinkedList", "HashSet", "BTreeSet", "IndexSet"]

/-- The names of maps. -/
def mapNames : List String := ["HashMap", "BTreeMap", "IndexMap"]

/-- The names of library types that a crate may also declare itself. -/
def wellKnownNames : List String :=
  ["Value", "DateTime", "NaiveDateTime", "OffsetDateTime", "PrimitiveDateTime", "SystemTime",
   "NaiveDate", "Uuid"]

/-- The built-in reading of a library type's name. -/
def wellKnown? (name : String) : Option TypeExpr :=
  if wellKnownNames.contains name then
    if name = "Value" then some .any else (Primitive.ofTypeName? name).map .primitive
  else none

/-- Wrap a type; a primitive stays as it is. -/
def wrap : TypeExpr → TypeExpr
  | .primitive p => .primitive p
  | inner => .pointer inner

/-- A sequence of a type; a sequence of `u8` is a primitive. -/
def sequence : TypeExpr → TypeExpr
  | .primitive .u8 => .primitive .bytes
  | inner => .array inner

/-- The name that a path ends in, when it stands for nothing built in. -/
def ofName (qualifier : List String) (name : String) : TypeExpr :=
  if qualifier.isEmpty then .named name else .selector qualifier name

/-- Whether a path points into the crate itself, so that library names mean its own types. -/
def isLocal (qualifier : List String) : Bool :=
  match qualifier with
  | [] => true
  | first :: _ => ["crate", "self", "super"].contains first

/-- Classify a path that is neither wrapper, sequence nor map. -/
def ofPlainPath (qualifier : List String) (name : String) : TypeExpr :=
  if wellKnownNames.contains name then
    if isLocal qualifier then ofName qualifier name
    else (wellKnown? name).getD (ofName qualifier name)
  else
    match Primitive.ofTypeName? name with
    | some p => .primitive p
    | none => ofName qualifier name

/-- Classify a path from its classified type arguments. -/
def ofPath (generics : List String) (qualifier : List String) (name : String)
    (arguments : List TypeExpr) : TypeExpr :=
  if qualifier.isEmpty && generics.contains name then .any
  else
    match arguments with
    | [] => ofPlainPath qualifier name
    | first :: rest =>
      if pointerNames.contains name then wrap ((first :: rest).getLast (by simp))
      else if sequenceNames.contains name then sequence first
      else
        match mapNames.contains name, rest with
        | true, second :: _ => .map first second
        | _, _ => ofPlainPath qualifier name

mutual

/-- Classify a written type inside a declaration with the given type parameters. -/
def classify (generics : List String) : TypeSyntax → TypeExpr
  | .path false qualifier name arguments => ofPath generics qualifier name (classifyAll generics arguments)
  | .path true _ _ _ => .unsupported "type expression"
  | .reference inner => wrap (classify generics inner)
  | .slice inner => sequence (classify generics inner)
  | .array inner => sequence (classify generics inner)
  | .paren inner => classify generics inner
  | .traitObject _ => .any
  | .implTrait => .any
  | .tuple [] => .unsupported "()"
  | .tuple (_ :: _) => .unsupported "tuple"
  | .function => .unsupported "function pointer"
  | .rawPointer => .unsupported "raw pointer"
  | .other => .unsupported "type expression"

/-- Classify a list of written types. -/
def classifyAll (generics : List String) : List TypeSyntax → List TypeExpr
  | [] => []
  | type :: rest => classify generics type :: classifyAll generics rest

end

/-- Whether values serve as the keys of an object as they are. -/
def isTextLike : TypeExpr → Bool
  | .primitive p => p.isTextLike
  | .pointer inner => inner.isTextLike
  | .named _ => true
  | .selector _ _ => true
  | _ => false

/-- The path of a name that is to be looked up. -/
def segments? : TypeExpr → Option (List String)
  | .named name => some [name]
  | .selector qualifier name => some (qualifier ++ [name])
  | _ => none

end TypeExpr

end ApiScribe
