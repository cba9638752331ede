import ApiScribe.Proofs.Registry.Room

/-!
# What a table says by itself

Without a loader nothing is added to the table of a run, so what a name leads to and what a declaration
shows is decided by the table alone. This module says it without a registry: how a declared name is shown
while some aliases are being expanded, what the schema of a component is made of, and in which order
components are built when some are asked for. An alias that is met again during its own expansion is shown
as a free-form schema; this is the only place where what is being expanded matters.
-/

namespace ApiScribe

/-- The schema of a type when the schema of the name at its core is given. -/
def TypeExpr.enclose : TypeExpr → Schema → Schema
  | .pointer inner, core => inner.enclose core
  | .array inner, core => Schema.arrayOf (inner.enclose core)
  | .map _ value, core => Schema.mapOf (value.enclose core)
  | _, core => core

/-- The registry of a table, without a loader and with nothing built. -/
def Registry.fresh (table : Table) : Registry := Registry.ofResolver { table }

/-- A component that is asked for. -/
structure Request where
  name : QualifiedName
  /-- The aliases being expanded when it is asked for. -/
  aliases : List QualifiedName

/-- Requests for components while the same aliases are being expanded. -/
def Request.each (aliases names : List QualifiedName) : List Request := names.map fun name => ⟨name, aliases⟩

/-- Requests are made one after another. -/
theorem Request.each_append (aliases first second : List QualifiedName) :
    each aliases (first ++ second) = each aliases first ++ each aliases second := List.map_append

/-- The core of a type. -/
inductive Leaf where
  /-- There is none. -/
  | missing
  /-- A schema that no declaration stands behind. -/
  | plain (schema : Schema)
  | declared (name : QualifiedName)

namespace Leaf

/-- The schema of a core when declared names are shown as given. -/
def schema? (shown : QualifiedName → Schema) : Leaf → Option Schema
  | .missing => none
  | .plain schema => some schema
  | .declared name => some (shown name)

/-- The declared name that a core shows. -/
def shownName? : Leaf → Option QualifiedName
  | .declared name => some name
  | _ => none

end Leaf

/-- A schema with the components asked for on the way to it. -/
structure Rendering where
  schema : Schema
  requests : List Request

/-- What a property shows. -/
inductive Content where
  /-- A schema, with the components it names. -/
  | fixed (schema : Schema) (named : List QualifiedName)
  /-- A type around a declared name. -/
  | through (name : QualifiedName) (type : TypeExpr) (remarks : Comment.Field)

namespace Content

/-- The schema of a property when declared names are shown as given. -/
def schema (shown : QualifiedName → Schema) : Content → Schema
  | .fixed schema _ => schema
  | .through name type remarks => (type.enclose (shown name)).withDetails remarks

/-- The declared name that a property shows. -/
def shownName? : Content → Option QualifiedName
  | .fixed _ _ => none
  | .through name _ _ => some name

end Content

/-- What a field shows whose type has the core. -/
def Leaf.content? (type : TypeExpr) (remarks : Comment.Field) : Leaf → Option Content
  | .missing => none
  | .plain schema => some (.fixed ((type.enclose schema).withDetails remarks) [])
  | .declared name => some (.through name type remarks)

/-- The schema of a leaf's content is that of the leaf, enclosed and with the remarks laid over it. -/
theorem Leaf.content?_schema (type : TypeExpr) (remarks : Comment.Field) (shown : QualifiedName → Schema)
    (leaf : Leaf) :
    (leaf.content? type remarks).map (Content.schema shown) =
      ((leaf.schema? shown).map type.enclose).map fun schema => schema.withDetails remarks := by
  cases leaf <;> rfl

/-- A property of a struct. -/
structure Property where
  key : String
  required : Bool
  content : Content

/-- Add a property to the schema of its struct. -/
def Property.addTo (shown : QualifiedName → Schema) (schema : Schema) (property : Property) : Schema :=
  { schema with
    required := if property.required then schema.required ++ [property.key] else schema.required
    properties := Json.insert property.key (property.content.schema shown) schema.properties }

/-- The type that a declaration stands for, if it is an alias. -/
def Declaration.target? (declaration : Declaration) : Option TypeExpr :=
  match declaration.shape with
  | .typeAlias target => some (TypeExpr.classify declaration.generics target)
  | _ => none

/-- The schema that shows only the kind of a declaration. -/
def Shape.kindSchema : Shape → Schema
  | .struct _ => Schema.ofKind .object
  | .enum _ => Schema.ofKind .string
  | _ => {}

/-- The value of an enum's variant, unless it is skipped or carries data. -/
def Declaration.variantValue? (declaration : Declaration) (variant : VariantDeclaration) : Option Json.Value :=
  if variant.options.skip || !variant.isUnit then none
  else some (.str ((variant.options.rename.or
    (declaration.options.renameAll.map fun rule => rule.applyToVariant variant.ident)).getD variant.ident))

namespace Table

variable (table : Table)

/-- What the comment of a declaration says. -/
def comment (name : QualifiedName) : Comment.Container :=
  (Comment.Container.read (((table.get? name).map Declaration.docs).getD []) name.display).1

/-- Whether a declaration is opted in. -/
def isOptedIn (name : QualifiedName) : Bool := table.contains name && (table.comment name).schema

/-- Whether a declaration has a component. -/
def isComponent (name : QualifiedName) : Bool :=
  table.isOptedIn name && (table.get? name).any fun declaration => !declaration.shape.isInterface

/-- Everything opted in, in the order in which it is named: what asks for a name comes first. -/
def namingOrder : List QualifiedName :=
  (table.names.filter table.isOptedIn).filter (fun name => (table.comment name).name.isSome) ++
    (table.names.filter table.isOptedIn).filter fun name => (table.comment name).name.isNone

/-- The names given when a declaration is named after others. -/
def entitle (names : ComponentNames) (name : QualifiedName) : ComponentNames :=
  (names.assign name ((table.comment name).name.getD name.name)).2.1

/-- The name of a component. -/
def componentName (name : QualifiedName) : String := ((Registry.fresh table).names.get? name).getD ""

/-- A name if it is declared. -/
def declared? (name : QualifiedName) : Option QualifiedName := if table.contains name then some name else none

/-- The first declared name among those that imports designate. -/
def imported? (scope : ModulePath) (designates : Import → Option (List String × String))
    (imports : List Import) : Option QualifiedName :=
  imports.findSome? fun binding =>
    (designates binding).bind fun target =>
      (table.moduleOf? scope target.1).bind fun module => table.declared? ⟨module, target.2⟩

/-- What a bare name means in a scope. -/
def findBare? (name : String) (scope : ModulePath) : Option QualifiedName :=
  (table.declared? ⟨scope, name⟩).or
    ((table.imported? scope (Resolver.namedTarget name) (table.imports scope)).or
      (table.imported? scope (Resolver.globTarget name) (table.imports scope)))

/-- What a path means in a scope. -/
def findScoped? (segments : List String) (scope : ModulePath) : Option QualifiedName :=
  match segments.getLast?, segments.dropLast with
  | none, _ => none
  | some name, [] => table.findBare? name scope
  | some name, qualifier => (table.moduleOf? scope qualifier).bind fun module => table.declared? ⟨module, name⟩

/-- What a path leads to: in its scope, then as a component name, then as a unique local name. -/
def find? (segments : List String) (scope : ModulePath) : Option QualifiedName :=
  (table.findScoped? segments scope).or
    (match segments with
      | [single] => ((Registry.fresh table).names.holder? single).or (table.findUnique? single)
      | _ => none)

/-- The built-in reading of a bare library name that nothing in scope declares. -/
def builtIn? (name : String) (scope : ModulePath) : Option TypeExpr :=
  (TypeExpr.wellKnown? name).bind fun known =>
    if (table.findScoped? [name] scope).isSome then none else some known

/-- The core of a path. -/
def leafOfPath (segments : List String) (scope : ModulePath) : Leaf :=
  match table.find? segments scope with
  | none => .missing
  | some name => .declared name

/-- The core of a type. -/
def leaf (scope : ModulePath) : TypeExpr → Leaf
  | .primitive primitive => .plain (Schema.ofPrimitive primitive)
  | .pointer inner => leaf scope inner
  | .array inner => leaf scope inner
  | .map _ value => leaf scope value
  | .any => .plain {}
  | .unsupported _ => .missing
  | .named name =>
    match table.builtIn? name scope with
    | some known => .plain (Synthesis.wellKnownSchema known)
    | none => table.leafOfPath [name] scope
  | .selector qualifier name => table.leafOfPath (qualifier ++ [name]) scope

/-- The type that an alias stands for, unless the alias is a component. -/
def aliasOf? (name : QualifiedName) : Option TypeExpr :=
  if table.isComponent name then none else (table.get? name).bind Declaration.target?

/-- What a declaration shows that is neither component nor alias. -/
def kindSchema (name : QualifiedName) : Schema :=
  ((table.get? name).map fun declaration => declaration.shape.kindSchema).getD {}

/-- What is named is what is opted in. -/
theorem mem_namingOrder {table : Table} {name : QualifiedName} :
    name ∈ table.namingOrder ↔ table.isOptedIn name = true := by
  have hdeclared (h : table.isOptedIn name = true) : name ∈ table.names :=
    (contains_iff_mem_names table name).mp (Bool.and_eq_true_iff.mp h).1
  cases hname : (table.comment name).name <;> simp +contextual [namingOrder, hname, hdeclared]

/-- An alias is in the table. -/
theorem mem_names_of_aliasOf? {table : Table} {name : QualifiedName} {type : TypeExpr}
    (h : table.aliasOf? name = some type) : name ∈ table.names := by
  rw [← contains_iff_mem_names, contains]
  unfold aliasOf? at h
  split at h
  · cases h
  · cases hget : table.get? name with
    | none => simp [hget] at h
    | some declaration => rfl

/-- How a declared name is shown while aliases are being expanded: a component by reference, an alias by
what it stands for unless it is among them. -/
def render (aliases : List QualifiedName) (name : QualifiedName) : Rendering :=
  match _h : table.aliasOf? name with
  | none =>
    if table.isComponent name then ⟨Schema.referenceTo (table.componentName name), [⟨name, aliases⟩]⟩
    else ⟨table.kindSchema name, []⟩
  | some type =>
    if name ∈ aliases then ⟨{}, []⟩
    else
      match table.leaf name.module type with
      | .missing => ⟨{}, []⟩
      | .plain schema => ⟨type.enclose schema, []⟩
      | .declared next =>
        let inner := render (name :: aliases) next
        ⟨type.enclose inner.schema, inner.requests⟩
termination_by table.names.countP fun other => other ∉ aliases
decreasing_by
  exact countP_lt_countP (fun other _ hother => by simp_all) (mem_names_of_aliasOf? _h) (by simpa) (by simp)

/-- The schema that shows a declared name while aliases are being expanded. -/
def shown (aliases : List QualifiedName) (name : QualifiedName) : Schema := (table.render aliases name).schema

/-- The schema of a core that must not be an alias or a type that is not opted in, with the component it
names. -/
def referred? : Leaf → Option (Schema × List QualifiedName)
  | .missing => none
  | .plain schema => some (schema, [])
  | .declared name =>
    if table.isComponent name then some (Schema.referenceTo (table.componentName name), [name]) else none

/-- The member of a composition that a written type stands for, with the component it names. -/
def member? (scope : ModulePath) (written : String) : Option (Schema × List QualifiedName) :=
  (Source.TypeSyntax.ofText? written).bind fun parsed =>
    let type := TypeExpr.classify [] parsed
    (table.referred? (table.leaf scope type)).map fun found => (type.enclose found.1, found.2)

/-- What a field shows whose type is looked up in a home of its own, away from its comment: a composition if the
comment names members that exist, else the type. -/
def contentIn? (home scope : ModulePath) (type : TypeExpr) (remarks : Comment.Field) : Option Content :=
  let found := remarks.oneOf.filterMap (table.member? scope)
  if found.isEmpty then (table.leaf home type).content? type remarks
  else some (.fixed (Schema.withRemarks { oneOf := found.map Prod.fst } remarks) (found.flatMap Prod.snd))

/-- What a field shows whose type is looked up where its comment is. -/
def content? (scope : ModulePath) (type : TypeExpr) (remarks : Comment.Field) : Option Content :=
  table.contentIn? scope scope type remarks

/-- The property of a field, if it has one. -/
def property? (declaration : Declaration) (field : FieldDeclaration) : Option Property :=
  field.ident.bind fun ident =>
    if field.options.skip || field.options.flatten then none
    else
      let remarks := (Comment.Field.read field.docs (declaration.name.display ++ "." ++ ident)).1
      let type := TypeExpr.classify declaration.generics field.type
      (table.content? declaration.name.module type remarks).map fun content =>
        ⟨Synthesis.exposedName declaration.options field remarks ident,
          Synthesis.isRequired declaration.options field, content⟩

/-- The schema of a declaration when declared names are shown as given. -/
def sketch (shown : QualifiedName → Schema) (declaration : Declaration) : Schema :=
  match declaration.shape with
  | .struct fields =>
    (fields.filterMap (table.property? declaration)).foldl (Property.addTo shown) (Schema.ofKind .object)
  | .enum variants =>
    { Schema.ofKind .string with enumValues := variants.filterMap declaration.variantValue? }
  | .typeAlias target =>
    let type := TypeExpr.classify declaration.generics target
    (((table.leaf declaration.name.module type).schema? shown).map type.enclose).getD {}
  | .interface _ => {}

/-- The components that the core of a type asks for. -/
def requestsOfLeaf (aliases : List QualifiedName) (leaf : Leaf) : List Request :=
  (leaf.shownName?.map fun name => (table.render aliases name).requests).getD []

section Render

variable {table : Table} {aliases : List QualifiedName} {name : QualifiedName}

/-- A component has no alias to expand. -/
theorem aliasOf?_of_isComponent (h : table.isComponent name) : table.aliasOf? name = none := by
  unfold aliasOf?
  rw [if_pos h]

/-- A component is shown by reference and asked for. -/
theorem render_component (h : table.isComponent name) :
    table.render aliases name = ⟨Schema.referenceTo (table.componentName name), [⟨name, aliases⟩]⟩ := by
  unfold render
  split
  · rw [if_pos h]
  · next halias =>
    rw [aliasOf?_of_isComponent h] at halias
    cases halias

/-- Any other declaration shows its kind. -/
theorem render_kind (halias : table.aliasOf? name = none) (h : table.isComponent name = false) :
    table.render aliases name = ⟨table.kindSchema name, []⟩ := by
  unfold render
  split
  · simp [h]
  · next hsome =>
    rw [halias] at hsome
    cases hsome

/-- An alias is cut off where it is being expanded already. -/
theorem render_cut {type : TypeExpr} (halias : table.aliasOf? name = some type) (h : name ∈ aliases) :
    table.render aliases name = ⟨{}, []⟩ := by
  unfold render
  split
  · next hnone =>
    rw [halias] at hnone
    cases hnone
  · rw [if_pos h]

/-- An alias is shown as what it stands for. -/
theorem render_expand {type : TypeExpr} (halias : table.aliasOf? name = some type) (h : name ∉ aliases) :
    table.render aliases name =
      ⟨(((table.leaf name.module type).schema? (table.shown (name :: aliases))).map type.enclose).getD {},
        table.requestsOfLeaf (name :: aliases) (table.leaf name.module type)⟩ := by
  rw [render]
  split
  · next hnone =>
    rw [halias] at hnone
    cases hnone
  · next other hsome =>
    cases Option.some.inj (halias.symm.trans hsome)
    rw [if_neg h]
    cases table.leaf name.module type <;> rfl

end Render

/-- The components that a property asks for. -/
def requestsOfContent (aliases : List QualifiedName) : Content → List Request
  | .fixed _ named => Request.each aliases named
  | .through name _ _ => (table.render aliases name).requests

/-- The content of a leaf makes the requests of the leaf. -/
theorem requestsOfContent_leaf (aliases : List QualifiedName) (type : TypeExpr) (remarks : Comment.Field)
    (leaf : Leaf) :
    ((leaf.content? type remarks).map (table.requestsOfContent aliases)).getD [] =
      table.requestsOfLeaf aliases leaf := by
  cases leaf <;> rfl

/-- The components that a declaration asks for, in order. -/
def requestsOfDeclaration (aliases : List QualifiedName) (declaration : Declaration) : List Request :=
  match declaration.shape with
  | .struct fields =>
    (fields.filterMap (table.property? declaration)).flatMap fun property =>
      table.requestsOfContent aliases property.content
  | .typeAlias target =>
    table.requestsOfLeaf aliases
      (table.leaf declaration.name.module (TypeExpr.classify declaration.generics target))
  | _ => []

/-- The components that a component asks for while it is built. -/
def requests (request : Request) : List Request :=
  ((table.get? request.name).map (table.requestsOfDeclaration request.aliases)).getD []

/-- The schema of a component that is built while aliases are being expanded. -/
def schemaOf (aliases : List QualifiedName) (name : QualifiedName) : Schema :=
  (((table.get? name).map (table.sketch (table.shown aliases))).getD {}).withContainer
    (table.comment name)

/-- The node of a component that is built at a request. -/
def node (request : Request) : Node :=
  ⟨request.name, table.componentName request.name, table.schemaOf request.aliases request.name⟩

/-- The requests at which components are built, in order, when others are built already: each component is
built at the first request for it, and what it asks for comes before what was asked for after it. -/
inductive Walks : List QualifiedName → List Request → List Request → Prop where
  | done (built : List QualifiedName) : Walks built [] []
  | skip {built : List QualifiedName} {request : Request} {rest log : List Request}
      (h : request.name ∈ built) (hrest : Walks built rest log) : Walks built (request :: rest) log
  | build {built : List QualifiedName} {request : Request} {rest inner outer : List Request}
      (h : request.name ∉ built) (hinner : Walks (built ++ [request.name]) (table.requests request) inner)
      (houter : Walks (built ++ request.name :: inner.map Request.name) rest outer) :
      Walks built (request :: rest) (request :: inner ++ outer)

variable {table : Table}

/-- Requests in front of others are walked first. -/
theorem Walks.append {built : List QualifiedName} {first second log log' : List Request}
    (h : table.Walks built first log) (h' : table.Walks (built ++ log.map Request.name) second log') :
    table.Walks built (first ++ second) (log ++ log') := by
  induction h with
  | done built => simpa using h'
  | skip hmem _ ih => exact .skip hmem (ih h')
  | @build built request rest inner outer hnew hinner _ _ ih =>
    rw [List.append_assoc]
    refine .build hnew hinner (ih ?_)
    simpa using h'

end Table

end ApiScribe
