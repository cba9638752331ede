import ApiScribe.Comment.Directive
import ApiScribe.Declaration.Table
import ApiScribe.Finding

/-!
# Extraction

A file is visited item by item. A name declared twice is remembered as the failure of the file,
after which no declaration is added, but imports and candidates of the rest of the file still are.
-/

namespace ApiScribe

open Source

/-- What extraction has gathered so far. -/
structure Extraction where
  table : Table := {}
  findings : List Finding := []
  /-- The first repeated declaration. -/
  failure : Option Failure := none
deriving Repr, Inhabited

namespace Extraction

/-- Report something. -/
def report (state : Extraction) (subject : String) (cause : Cause) : Extraction :=
  { state with findings := state.findings ++ [⟨subject, cause⟩] }

/-- Add a declaration, unless a repeated one came before. -/
def declare (state : Extraction) (declaration : Declaration) : Extraction :=
  if state.failure.isSome then state
  else
    let state :=
      if declaration.docs.isEmpty then
        state.report declaration.name.display (.noComment declaration.shape.label)
      else state
    match state.table.insert declaration with
    | .ok table => { state with table }
    | .error failure => { state with failure := some failure }

/-- Add a function if its comment carries directives. A method without any comment is reported. -/
def consider (state : Extraction) (source : String) (module : ModulePath) (subject : String)
    (docs : List String) (owner : Option Owner) : Extraction :=
  if Comment.hasDirective docs then
    { state with table := state.table.addCandidate ⟨subject, module, docs, owner, source⟩ }
  else if owner.isSome && docs.isEmpty then state.report subject (.noComment "method")
  else state

/-- The declaration of a type with this head in a module. -/
def declarationOf (source : String) (module : ModulePath) (head : TypeHead) (shape : Shape) :
    Declaration :=
  { name := ⟨module, unraw head.ident⟩
    shape
    docs := docLines head.attributes
    generics := head.generics
    options := ContainerOptions.read head.attributes
    source }

/-- The declaration of a field. -/
def fieldOf (field : FieldSyntax) : FieldDeclaration :=
  ⟨field.ident.map unraw, field.type, docLines field.attributes, FieldOptions.read field.attributes⟩

/-- The declaration of a variant. -/
def variantOf (variant : VariantSyntax) : VariantDeclaration :=
  ⟨unraw variant.ident, docLines variant.attributes, FieldOptions.read variant.attributes, variant.isUnit⟩

/-- A struct's shape: a single tuple field makes it an alias. -/
def structShape : FieldsSyntax → Shape
  | .unnamed [field] => .typeAlias field.type
  | .unnamed fields => .struct (fields.map fieldOf)
  | .named fields => .struct (fields.map fieldOf)
  | .unit => .struct []

/-- Consider the methods of an owner in order. -/
def considerMethods (source : String) (module : ModulePath) (owner : Owner)
    (methods : List FunctionSyntax) (state : Extraction) : Extraction :=
  methods.foldl (fun state method =>
    state.consider source module (owner.name ++ "::" ++ unraw method.ident)
      (docLines method.attributes) (some owner)) state

mutual

/-- Visit an item of a module. -/
def visit (source : String) (module : ModulePath) (state : Extraction) : Item → Extraction
  | .struct head fields => state.declare (declarationOf source module head (structShape fields))
  | .enum head variants =>
    state.declare (declarationOf source module head (.enum (variants.map variantOf)))
  | .typeAlias head target =>
    state.declare (declarationOf source module head (.typeAlias target))
  | .trait head methods =>
    let owner : Owner := ⟨unraw head.ident, docLines head.attributes⟩
    let methodOf (method : FunctionSyntax) : MethodDeclaration :=
      ⟨unraw method.ident, docLines method.attributes⟩
    (considerMethods source module owner methods state).declare
      (declarationOf source module head (.interface (methods.map methodOf)))
  | .impl false (.path _ _ ident _) attributes methods =>
    let documented := methods.filter fun method => !(docLines method.attributes).isEmpty
    considerMethods source module ⟨unraw ident, docLines attributes⟩ documented state
  | .impl _ _ _ _ => state
  | .function function =>
    state.consider source module (unraw function.ident) (docLines function.attributes) none
  | .use tree => { state with table := state.table.addImports module (Import.ofTree [] tree) }
  | .module ident items =>
    let inner := module.child (unraw ident)
    visitAll source inner { state with table := state.table.openModule inner } items
  | .inBlocks items => visitAll source module state items
  | .other => state

/-- Visit the items of a module in order. -/
def visitAll (source : String) (module : ModulePath) (state : Extraction) :
    List Item → Extraction
  | [] => state
  | item :: rest => visitAll source module (visit source module state item) rest

end

mutual

/-- The names of the types and traits that an item declares, in the order in which they are visited. -/
def declaredBy (module : ModulePath) : Item → List QualifiedName
  | .struct head _ => [⟨module, unraw head.ident⟩]
  | .enum head _ => [⟨module, unraw head.ident⟩]
  | .typeAlias head _ => [⟨module, unraw head.ident⟩]
  | .trait head _ => [⟨module, unraw head.ident⟩]
  | .module ident items => declaredByAll (module.child (unraw ident)) items
  | .inBlocks items => declaredByAll module items
  | .impl _ _ _ _ => []
  | .function _ => []
  | .use _ => []
  | .other => []

/-- The names of the types and traits that items declare, in the order in which they are visited. -/
def declaredByAll (module : ModulePath) : List Item → List QualifiedName
  | [] => []
  | item :: rest => declaredBy module item ++ declaredByAll module rest

end

/-- The names of the types and traits that a file declares, in the order in which they are visited. -/
def declaredIn (file : File) : List QualifiedName := declaredByAll file.module file.content.items

/-- Visit a file. -/
def addFile (state : Extraction) (file : File) : Extraction :=
  visitAll file.path file.module { state with table := state.table.openModule file.module }
    file.content.items

/-- Visit files in order up to the first that repeats a declaration. -/
def ofFiles (files : List File) : Extraction :=
  files.foldl (fun state file => if state.failure.isSome then state else state.addFile file) {}

/-- The table and findings of a successful extraction. -/
def result (state : Extraction) : Except Failure (Table × List Finding) :=
  match state.failure with
  | some failure => .error failure
  | none => .ok (state.table, state.findings)

end Extraction

end ApiScribe
