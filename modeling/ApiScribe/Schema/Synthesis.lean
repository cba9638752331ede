import ApiScribe.Schema.Registry
import ApiScribe.TypeExpr.Basic

/-!
# Building components

A component is built once. Its place in the registry is taken before its fields are looked at, so a
type that reaches itself gets a reference. Types that are not opted in only show their kind, aliases
are expanded in place.

Building one component may ask for others, so the rules here refer to each other through a record of
the rules one level down, and the rules of every depth are built by recursion on the depth. Each level
enters a new name into the index or the list of aliases under expansion; twice the number of names that
can ever be declared is therefore deep enough.
-/

namespace ApiScribe

open Source (TypeSyntax)

/-- An action on the registry; `none` when the depth is exhausted. -/
abbrev Build := StateT Registry Option

instance : MonadLift (StateM Registry) Build := ⟨fun action registry => some (action.run registry)⟩

/-- The rules one level down. -/
structure Recursion where
  /-- Give the component of a declaration. -/
  component : QualifiedName → Build (Option Nat)
  /-- Give the shape of a declaration that is no component. -/
  inline : QualifiedName → String → Build Schema

namespace Synthesis

open Registry

/-- Look up a path: in its scope, then among component names, then as a unique local name. -/
def lookup (segments : List String) (scope : ModulePath) : StateM Registry (Option QualifiedName) := do
  match ← resolving (Resolver.lookup segments scope) with
  | some found => return some found
  | none =>
    match segments with
    | [single] =>
      let registry ← get
      return (registry.names.holder? single).or (registry.table.findUnique? single)
    | _ => return none

/-- The built-in reading of a bare library name that nothing in scope declares. -/
def undeclaredWellKnown (name : String) (scope : ModulePath) : StateM Registry (Option TypeExpr) := do
  match TypeExpr.wellKnown? name with
  | none => return none
  | some known =>
    match ← resolving (Resolver.lookup [name] scope) with
    | some _ => return none
    | none => return some known

/-- The schema of a built-in reading, which is a primitive or free-form. -/
def wellKnownSchema : TypeExpr → Schema
  | .primitive primitive => Schema.ofPrimitive primitive
  | _ => {}

/-- A reference to a component. -/
def referenceTo (id : Nat) : StateM Registry Schema := do
  return (((← get).nodes[id]?).map fun node => Schema.referenceTo node.name).getD {}

variable (rules : Recursion)

/-- The schema of a path in a field: a component by reference, any other type by its shape. -/
def resolvePath (segments : List String) (scope : ModulePath) (subject : String) :
    Build (Option Schema) := do
  match ← lookup segments scope with
  | none =>
    report subject (.typeNotFound (Text.join "::" segments))
    return none
  | some name =>
    match ← rules.component name with
    | some id => return some (← referenceTo id)
    | none => return some (← rules.inline name subject)

/-- The schema of a field's type; `none` when there is none, which is reported. -/
def resolve (scope : ModulePath) (subject : String) : TypeExpr → Build (Option Schema)
  | .primitive primitive => return some (Schema.ofPrimitive primitive)
  | .pointer inner => resolve scope subject inner
  | .array inner => do return (← resolve scope subject inner).map Schema.arrayOf
  | .map key value => do
    if !key.isTextLike then report subject .mapKeyNotText
    return (← resolve scope subject value).map Schema.mapOf
  | .any => return some {}
  | .unsupported what => do
    report subject (.unsupportedType what)
    return none
  | .named name => do
    match ← undeclaredWellKnown name scope with
    | some known => return some (wellKnownSchema known)
    | none => resolvePath rules [name] scope subject
  | .selector qualifier name => resolvePath rules (qualifier ++ [name]) scope subject

/-- The reference that a path in a comment stands for: it must be an opted-in component. -/
def strictPath (segments : List String) (scope : ModulePath) :
    Build (Except ReferenceFault Schema) := do
  let written := Text.join "::" segments
  match ← lookup segments scope with
  | none => return .error (.notFound written)
  | some name =>
    if ← isSchema name then
      match ← rules.component name with
      | some id => return .ok (← referenceTo id)
      | none => return .error (.notBuildable written)
    else return .error (.notSchema written)

/-- The schema of a type in a comment. -/
def strict (scope : ModulePath) : TypeExpr → Build (Except ReferenceFault Schema)
  | .primitive primitive => return .ok (Schema.ofPrimitive primitive)
  | .pointer inner => strict scope inner
  | .array inner => do return (← strict scope inner).map Schema.arrayOf
  | .map _ value => do return (← strict scope value).map Schema.mapOf
  | .any => return .ok {}
  | .unsupported what => return .error (.unsupported what)
  | .named name => do
    match ← undeclaredWellKnown name scope with
    | some known => return .ok (wellKnownSchema known)
    | none => strictPath rules [name] scope
  | .selector qualifier name => strictPath rules (qualifier ++ [name]) scope

/-- The schema of a type written as text in a comment. -/
def referenceFor (written : String) (scope : ModulePath) : Build (Except ReferenceFault Schema) :=
  match TypeSyntax.ofText? written with
  | none => return .error (.notAType written)
  | some type => strict rules scope (TypeExpr.classify [] type)

/-- The members of a composition that have a schema; the others are reported. -/
def members (scope : ModulePath) (subject : String) : List String → Build (List Schema)
  | [] => return []
  | written :: rest => do
    match ← referenceFor rules written scope with
    | .ok schema => return schema :: (← members scope subject rest)
    | .error fault =>
      report subject (.oneOfMemberDropped written fault)
      members scope subject rest

/-- The schema of a field: a composition if its comment names members that exist, else the schema of
its type, with what the comment says laid over it. -/
def fieldSchema (type : TypeExpr) (remarks : Comment.Field) (scope : ModulePath) (subject : String) :
    Build (Option Schema) := do
  let found ← members rules scope subject remarks.oneOf
  if found.isEmpty then
    if !remarks.oneOf.isEmpty then report subject .noOneOfMember
    return (← resolve rules scope subject type).map fun schema => schema.withDetails remarks
  else return some (Schema.withRemarks { oneOf := found } remarks)

/-- Whether a type is an `Option` under any path. -/
def isOptional : TypeSyntax → Bool
  | .path _ _ name _ => name = "Option"
  | .paren inner => isOptional inner
  | _ => false

/-- The name under which a field is exposed. -/
def exposedName (options : ContainerOptions) (field : FieldDeclaration) (remarks : Comment.Field)
    (ident : String) : String :=
  ((remarks.name.or field.options.rename).or
    (options.renameAll.map fun rule => rule.applyToField ident)).getD ident

/-- Whether a field must be present. -/
def isRequired (options : ContainerOptions) (field : FieldDeclaration) : Bool :=
  !isOptional field.type && !field.options.default && !field.options.skipIf && !options.default

/-- Add the property of one field, if it has one, to the schema of its struct. -/
def addField (declaration : Declaration) (schema : Schema) (field : FieldDeclaration) (position : Nat) :
    Build Schema := do
  match field.ident with
  | none =>
    report (declaration.name.display ++ "." ++ Text.decimal position) .tupleField
    return schema
  | some ident =>
    if field.options.skip then return schema
    else
      let subject := declaration.name.display ++ "." ++ ident
      let (remarks, findings) := Comment.Field.read field.docs subject
      modify fun registry => registry.addFindings findings
      if field.options.flatten then
        report subject .flattenedField
        return schema
      else
        let exposed := exposedName declaration.options field remarks ident
        let type := TypeExpr.classify declaration.generics field.type
        match ← fieldSchema rules type remarks declaration.name.module subject with
        | none => return schema
        | some property =>
          if (Json.lookup exposed schema.properties).isSome then report subject (.repeatedProperty exposed)
          return { schema with
            required :=
              if isRequired declaration.options field then schema.required ++ [exposed] else schema.required
            properties := Json.insert exposed property schema.properties }

/-- Add the properties of fields from a position on. -/
def addFields (declaration : Declaration) : Schema → Nat → List FieldDeclaration → Build Schema
  | schema, _, [] => return schema
  | schema, position, field :: rest => do
    addFields declaration (← addField rules declaration schema field position) (position + 1) rest

/-- The values of an enum's variants; those that carry data are reported and left out. -/
def enumValues (declaration : Declaration) : List VariantDeclaration → StateM Registry (List Json.Value)
  | [] => return []
  | variant :: rest => do
    if variant.options.skip then enumValues declaration rest
    else if !variant.isUnit then
      report (declaration.name.display ++ "::" ++ variant.ident) .variantWithData
      enumValues declaration rest
    else
      let value := (variant.options.rename.or
        (declaration.options.renameAll.map fun rule => rule.applyToVariant variant.ident)).getD variant.ident
      return .str value :: (← enumValues declaration rest)

/-- The schema of a declaration that is a component. -/
def shapeSchema (declaration : Declaration) : Build Schema := do
  match declaration.shape with
  | .struct fields => addFields rules declaration (Schema.ofKind .object) 0 fields
  | .enum variants =>
    return { Schema.ofKind .string with enumValues := ← enumValues declaration variants }
  | .typeAlias target =>
    let type := TypeExpr.classify declaration.generics target
    return (← resolve rules declaration.name.module declaration.name.display type).getD {}
  | .interface _ => return {}

/-- Take a place in the registry for a component. -/
def reserve (name : QualifiedName) : StateM Registry Nat := do
  let component ← componentName name
  let registry ← get
  let id := registry.nodes.length
  set { registry with
    nodes := registry.nodes ++ [Node.mk name component {}]
    index := (name, id) :: registry.index
    visiting := name :: registry.visiting }
  return id

/-- Put the finished schema in its place. -/
def finish (name : QualifiedName) (id : Nat) (schema : Schema) : StateM Registry Unit :=
  modify fun registry =>
    { registry with
      nodes := registry.nodes.modify id fun node => { node with schema }
      visiting := registry.visiting.erase name }

/-- Give the component of a declaration, building it at the first request. There is none when the
name is unknown, not opted in, or a trait. -/
def component (name : QualifiedName) : Build (Option Nat) := do
  match (← get).indexOf? name with
  | some id => return some id
  | none =>
    if (← get).failed.contains name then return none
    else if !(← isSchema name) then return none
    else
      match (← get).table.get? name with
      | none => return none
      | some declaration =>
        if declaration.shape.isInterface then
          report name.display .traitSchema
          modify fun registry => { registry with failed := name :: registry.failed }
          return none
        else
          let id ← reserve name
          let schema ← shapeSchema rules declaration
          finish name id (schema.withContainer (← container name))
          return some id

/-- Give the shape of a declaration that is no component: an alias is expanded, unless it is being
expanded already, and other types show their kind. -/
def inline (name : QualifiedName) (subject : String) : Build Schema := do
  match (← get).table.get? name with
  | none => return {}
  | some declaration =>
    match declaration.shape with
    | .struct _ => return Schema.ofKind .object
    | .enum _ => return Schema.ofKind .string
    | .interface _ => return {}
    | .typeAlias target =>
      if (← get).expanding.contains name then return {}
      else
        modify fun registry => { registry with expanding := name :: registry.expanding }
        let type := TypeExpr.classify declaration.generics target
        let schema ← resolve rules name.module subject type
        modify fun registry => { registry with expanding := registry.expanding.erase name }
        return schema.getD {}

end Synthesis

/-- The rules that allow the given depth. -/
def Recursion.ofDepth : Nat → Recursion
  | 0 => ⟨fun _ => failure, fun _ _ => failure⟩
  | depth + 1 =>
    ⟨fun name registry => Synthesis.component (ofDepth depth) name registry,
     fun name subject registry => Synthesis.inline (ofDepth depth) name subject registry⟩

namespace Registry

/-- The number of names that can ever be declared. -/
def nameBound (registry : Registry) : Nat :=
  registry.table.size + registry.resolver.loader.declarationCount

/-- Rules of a depth that is never exhausted. -/
def rules (registry : Registry) : Recursion := Recursion.ofDepth (2 * registry.nameBound + 2)

/-- Run an action to its end; the registry is left as it was if the depth were exhausted. -/
def perform {α : Type} (fallback : α) (action : Recursion → Build α) : StateM Registry α := do
  let registry ← get
  match (action registry.rules).run registry with
  | some (result, registry) => set registry; return result
  | none => return fallback

/-- Give the component of a declaration, building it at the first request. -/
def synthesize (name : QualifiedName) : StateM Registry (Option Nat) :=
  perform none fun rules => rules.component name

/-- The schema of a type written in a comment. -/
def referenceFor (written : String) (scope : ModulePath) :
    StateM Registry (Except ReferenceFault Schema) :=
  perform (.error (.notAType written)) fun rules => Synthesis.referenceFor rules written scope

/-- The opted-in declarations that are neither built nor given up. -/
def pending : StateM Registry (List QualifiedName) := do
  let candidates ← schemaDeclarations
  let registry ← get
  return candidates.filter fun name => (registry.indexOf? name).isNone && !registry.failed.contains name

/-- Build what is pending until nothing is, in at most the given number of passes. -/
def synthesizePasses : Nat → StateM Registry Unit
  | 0 => return ()
  | passes + 1 => do
    let names ← pending
    if names.isEmpty then return ()
    else
      names.forM fun name => do
        let _ ← synthesize name
      synthesizePasses passes

/-- Build every opted-in declaration, those loaded in the meantime included. -/
def synthesizeAll : StateM Registry Unit := do
  synthesizePasses ((← get).nameBound + 1)

end Registry

end ApiScribe
