import ApiScribe.ModulePath
import ApiScribe.Source.Token

/-!
# The syntax that matters

Of a source file only attributes, declarations, function names, imports and types are kept.
Function bodies and expressions are not. Of what declares nothing itself, such as a constant, only
the items in its blocks remain.
-/

namespace ApiScribe.Source

/-- What an attribute says after its name. -/
inductive AttributeBody where
  | word
  /-- The tokens between delimiters. -/
  | list (tokens : List Tree)
  /-- A text after an equals sign. -/
  | text (value : String)
  /-- Any other value after an equals sign. -/
  | value
deriving Repr, Inhabited

/-- An attribute; `name` is absent when its path has several segments. -/
structure Attribute where
  name : Option String
  body : AttributeBody
deriving Repr, Inhabited

/-- A written type. Of the generic arguments of a path only the types of its last segment are kept. -/
inductive TypeSyntax where
  /-- A path; `qualified` when it starts with `<T as Trait>::` or `<T>::`. -/
  | path (qualified : Bool) (qualifier : List String) (name : String) (arguments : List TypeSyntax)
  | reference (inner : TypeSyntax)
  | slice (inner : TypeSyntax)
  | array (inner : TypeSyntax)
  | paren (inner : TypeSyntax)
  | tuple (elements : List TypeSyntax)
  /-- An object type; `lone` when it is one bound without `dyn`, to which others may be joined. -/
  | traitObject (lone : Bool)
  | implTrait
  | function
  | rawPointer
  /-- Macros, `!`, `_` and what has no meaning yet. -/
  | other
deriving Repr, Inhabited

/-- A field of a struct; a tuple field has no name. -/
structure FieldSyntax where
  ident : Option String
  type : TypeSyntax
  attributes : List Attribute
deriving Repr, Inhabited

/-- The fields of a struct. -/
inductive FieldsSyntax where
  | named (fields : List FieldSyntax)
  | unnamed (fields : List FieldSyntax)
  | unit
deriving Repr, Inhabited

/-- A variant of an enum. -/
structure VariantSyntax where
  ident : String
  attributes : List Attribute
  isUnit : Bool
deriving Repr, Inhabited

/-- A function or method, without its signature and body. -/
structure FunctionSyntax where
  ident : String
  attributes : List Attribute
deriving Repr, Inhabited

/-- The tree of a `use` declaration. -/
inductive UseTree where
  | path (ident : String) (tree : UseTree)
  | name (ident : String)
  | rename (ident newName : String)
  | glob
  | group (trees : List UseTree)
deriving Repr, Inhabited

/-- The name, attributes and type parameters of a type declaration. -/
structure TypeHead where
  ident : String
  attributes : List Attribute
  generics : List String
deriving Repr, Inhabited

/-- An item of a source file. -/
inductive Item where
  | struct (head : TypeHead) (fields : FieldsSyntax)
  | enum (head : TypeHead) (variants : List VariantSyntax)
  | typeAlias (head : TypeHead) (target : TypeSyntax)
  | trait (head : TypeHead) (methods : List FunctionSyntax)
  | impl (ofTrait : Bool) (selfType : TypeSyntax) (attributes : List Attribute)
      (methods : List FunctionSyntax)
  | function (function : FunctionSyntax)
  | use (tree : UseTree)
  /-- An inline module. -/
  | module (ident : String) (items : List Item)
  /-- The items in the blocks of something that declares nothing itself. -/
  | inBlocks (items : List Item)
  /-- Anything that declares nothing of interest. -/
  | other
deriving Repr, Inhabited

/-- What a source text holds. -/
structure Content where
  /-- The inner attributes at the top. -/
  attributes : List Attribute
  /-- The items, those in the blocks of the inner attributes first. -/
  items : List Item
deriving Repr, Inhabited

/-- A source file and the module that it defines. -/
structure File where
  path : String
  module : ModulePath
  content : Content
deriving Repr, Inhabited

/-- An identifier without the mark of a raw one. -/
def unraw (ident : String) : String := (Text.dropLead "r#" ident).getD ident

/-- The lines of the documentation that attributes carry, in order. -/
def docLines (attributes : List Attribute) : List String :=
  attributes.flatMap fun attr =>
    match attr.name, attr.body with
    | some "doc", .text value =>
      (Text.splitOnChar '\n' value).map (Text.trimEndOf (· == '\r'))
    | _, _ => []

end ApiScribe.Source
