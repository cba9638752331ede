import ApiScribe.Lookup.Resolver
import ApiScribe.Schema.Details
import ApiScribe.Schema.Names

/-!
# The registry of components

The state of a run: the resolver, the components built so far with an index by qualified name, the
comments read so far, the component names, and what is being built or expanded at the moment.
-/

namespace ApiScribe

/-- One component. -/
structure Node where
  canonical : QualifiedName
  /-- The name used in references. -/
  name : String
  schema : Schema
deriving Repr, Inhabited

/-- The components of a run and what they are built from. -/
structure Registry where
  resolver : Resolver
  nodes : List Node := []
  index : List (QualifiedName × Nat) := []
  /-- The comments read so far. -/
  containers : List (QualifiedName × Comment.Container) := []
  names : ComponentNames := {}
  /-- Components being built. -/
  visiting : List QualifiedName := []
  /-- Opted-in declarations that cannot be components. -/
  failed : List QualifiedName := []
  /-- Aliases being expanded in place. -/
  expanding : List QualifiedName := []

namespace Registry

/-- The declarations of the run. -/
def table (registry : Registry) : Table := registry.resolver.table

/-- What has been reported so far. -/
def findings (registry : Registry) : List Finding := registry.resolver.findings

/-- The number of a component. -/
def indexOf? (registry : Registry) (name : QualifiedName) : Option Nat :=
  (registry.index.find? fun entry => entry.1 = name).map Prod.snd

/-- The component of a declaration. -/
def nodeFor? (registry : Registry) (name : QualifiedName) : Option Node :=
  (registry.indexOf? name).bind fun id => registry.nodes[id]?

/-- The component schemas, sorted by component name. -/
def components (registry : Registry) : List (String × Schema) :=
  registry.nodes.foldl
    (fun sorted node => Text.insertSorted Text.compareText node.name node.schema sorted) []

/-- Add findings. -/
def addFindings (registry : Registry) (findings : List Finding) : Registry :=
  { registry with
    resolver := { registry.resolver with findings := registry.resolver.findings ++ findings } }

/-- Report something. -/
def report (subject : String) (cause : Cause) : StateM Registry Unit :=
  modify fun registry => registry.addFindings [⟨subject, cause⟩]

/-- Look something up, which may load modules. -/
def resolving {α : Type} (action : Resolving α) : StateM Registry α := do
  let registry ← get
  let (result, resolver) := action.run registry.resolver
  set { registry with resolver }
  return result

/-- What the comment of a declaration says; each comment is read once. -/
def container (name : QualifiedName) : StateM Registry Comment.Container := do
  let registry ← get
  match registry.containers.find? fun entry => entry.1 = name with
  | some (_, known) => return known
  | none =>
    let docs := ((registry.table.get? name).map Declaration.docs).getD []
    let (record, findings) := Comment.Container.read docs name.display
    set { registry.addFindings findings with containers := (name, record) :: registry.containers }
    return record

/-- Whether a declaration is opted in as a component. -/
def isSchema (name : QualifiedName) : StateM Registry Bool := do
  if (← get).table.contains name then return (← container name).schema else return false

/-- The name of a declaration's component. -/
def componentName (name : QualifiedName) : StateM Registry String := do
  match (← get).names.get? name with
  | some assigned => return assigned
  | none =>
    let preferred := (← container name).name.getD name.name
    let registry ← get
    let (assigned, names, findings) := registry.names.assign name preferred
    set { registry.addFindings findings with names }
    return assigned

/-- The opted-in declarations among those given, in their order. -/
def optedIn : List QualifiedName → StateM Registry (List QualifiedName)
  | [] => return []
  | name :: rest => do
    let chosen ← isSchema name
    let others ← optedIn rest
    return if chosen then name :: others else others

/-- All opted-in declarations in canonical order. -/
def schemaDeclarations : StateM Registry (List QualifiedName) := do
  optedIn (← get).table.names

/-- Name all opted-in declarations: those that ask for a name first, then the others. -/
def assignNames : StateM Registry Unit := do
  let candidates ← schemaDeclarations
  let asked ← candidates.filterM fun name => do return (← container name).name.isSome
  let others ← candidates.filterM fun name => do return (← container name).name.isNone
  (asked ++ others).forM fun name => do
    let _ ← componentName name

/-- The registry at the start of a run: nothing is built, everything opted in is named. -/
def ofResolver (resolver : Resolver) : Registry :=
  (assignNames.run { resolver }).2

end Registry

end ApiScribe
