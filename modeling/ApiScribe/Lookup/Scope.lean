import ApiScribe.Declaration.Table

/-!
# Paths within a scope

The qualifier of a path names a module as seen from the module in which it is written: through
`crate`, `self` and `super`, through a named import, as a child module, or else from the crate root.
-/

namespace ApiScribe.Table

/-- Imports of imports are followed this far; longer chains count as cyclic. -/
def maxImportDepth : Nat := 8

/-- Go up once for every leading `super`, then down the rest. -/
def climb (module : ModulePath) : List String → Option ModulePath
  | [] => some module
  | segment :: rest =>
    if segment = "super" then module.parent?.bind fun parent => climb parent rest
    else some (module.join (segment :: rest))

/-- The first named import of a scope under this name. -/
def namedImport? (table : Table) (scope : ModulePath) (name : String) : Option Import :=
  (table.imports scope).find? fun binding => !binding.glob && binding.localName = name

/-- A qualifier that no import explains: a child module, or else a path from the crate root. -/
def moduleByPosition (table : Table) (scope : ModulePath) (first : String) (rest : List String) :
    ModulePath :=
  if table.hasModule (scope.child first) then (scope.child first).join rest
  else ModulePath.root.join (first :: rest)

/-- The module that a qualifier names, following at most `depth` imports. -/
def moduleWithin (table : Table) (scope : ModulePath) : Nat → List String → Option ModulePath
  | _, [] => none
  | depth, first :: rest =>
    if first = "crate" then some (ModulePath.root.join rest)
    else if first = "self" then some (scope.join rest)
    else if first = "super" then climb scope (first :: rest)
    else
      match depth, table.namedImport? scope first with
      | depth + 1, some binding =>
        (moduleWithin table scope depth binding.path).map fun base => base.join rest
      | _, _ => some (table.moduleByPosition scope first rest)

/-- The module that a qualifier names in a scope. -/
def moduleOf? (table : Table) (scope : ModulePath) (qualifier : List String) : Option ModulePath :=
  table.moduleWithin scope maxImportDepth qualifier

end ApiScribe.Table
