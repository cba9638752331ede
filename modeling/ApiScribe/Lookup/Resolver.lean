import ApiScribe.Lookup.Loader
import ApiScribe.Lookup.Scope

/-!
# Looking up types

A path written in a module leads to a declared name. A module that is not known yet is requested
from the loader, once; what it declares is added to the table.
-/

namespace ApiScribe

/-- The table of a run with what can still be added to it. -/
structure Resolver where
  table : Table
  loader : Loader := {}
  /-- The modules requested so far. -/
  requested : List ModulePath := []
  /-- What has been reported so far. -/
  findings : List Finding := []

/-- An action that may load modules. -/
abbrev Resolving := StateM Resolver

namespace Resolver

/-- Add the file of a module that was requested. Declarations in front of a repeated one stay. -/
def supply (resolver : Resolver) (module : ModulePath) (file : Source.File) : Resolver :=
  let state := Extraction.addFile { table := resolver.table } file
  let failed : List Finding :=
    match state.failure with
    | some failure => [⟨module.display, .moduleNotExtracted failure⟩]
    | none => []
  { resolver with table := state.table, findings := resolver.findings ++ state.findings ++ failed }

/-- Request a module unless it is known or was requested before. -/
def ensureModule (resolver : Resolver) (module : ModulePath) : Resolver :=
  if resolver.table.hasModule module || resolver.requested.contains module then resolver
  else
    let resolver := { resolver with requested := module :: resolver.requested }
    match resolver.loader.find? module with
    | some (.ok file) => resolver.supply module file
    | some (.error failure) =>
      { resolver with findings := resolver.findings ++ [⟨module.display, .moduleNotLoaded failure⟩] }
    | none => resolver

/-- A name if it is declared, after its module was requested if need be. -/
def declared (name : QualifiedName) : Resolving (Option QualifiedName) := do
  if !(← get).table.contains name then modify fun resolver => resolver.ensureModule name.module
  return if (← get).table.contains name then some name else none

/-- The first declared name among those that imports designate. -/
def firstDeclared (scope : ModulePath) (designates : Import → Option (List String × String)) :
    List Import → Resolving (Option QualifiedName)
  | [] => return none
  | binding :: rest => do
    match designates binding with
    | none => firstDeclared scope designates rest
    | some (qualifier, name) =>
      match (← get).table.moduleOf? scope qualifier with
      | none => firstDeclared scope designates rest
      | some module =>
        match ← declared ⟨module, name⟩ with
        | some found => return some found
        | none => firstDeclared scope designates rest

/-- The path of a named import, cut before its last segment. -/
def namedTarget (name : String) (binding : Import) : Option (List String × String) :=
  if !binding.glob && binding.localName = name then
    binding.path.getLast?.map fun last => (binding.path.dropLast, last)
  else none

/-- The path under which a glob import would supply a name. -/
def globTarget (name : String) (binding : Import) : Option (List String × String) :=
  if binding.glob then some (binding.path, name) else none

/-- Look up a bare name: in the scope itself, then by named imports, then by glob imports. -/
def lookupBare (name : String) (scope : ModulePath) : Resolving (Option QualifiedName) := do
  let table := (← get).table
  if table.contains ⟨scope, name⟩ then return some ⟨scope, name⟩
  else
    let imports := table.imports scope
    match ← firstDeclared scope (namedTarget name) imports with
    | some found => return some found
    | none => firstDeclared scope (globTarget name) imports

/-- Look up a path as written in a scope. -/
def lookup (segments : List String) (scope : ModulePath) : Resolving (Option QualifiedName) := do
  match segments.getLast?, segments.dropLast with
  | none, _ => return none
  | some name, [] => lookupBare name scope
  | some name, qualifier =>
    match (← get).table.moduleOf? scope qualifier with
    | none => return none
    | some module => declared ⟨module, name⟩

end Resolver

/-- The only declaration of a run with this local name. -/
def Table.findUnique? (table : Table) (name : String) : Option QualifiedName :=
  match table.withLocalName name with
  | [single] => some single
  | _ => none

end ApiScribe
