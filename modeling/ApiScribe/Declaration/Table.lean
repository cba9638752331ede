import ApiScribe.Declaration.Basic
import ApiScribe.Failure

/-!
# The declaration table

All declarations of a run, in canonical order of their qualified names, with the imports of every
known module and the operation candidates in the order in which they were found.
-/

namespace ApiScribe

/-- All declarations of a run. -/
structure Table where
  /-- Sorted by qualified name, which no two share. -/
  declarations : List (QualifiedName × Declaration) := []
  /-- The imports of every known module. -/
  scopes : List (ModulePath × List Import) := []
  /-- In the order in which they were found. -/
  candidates : List Candidate := []
deriving Repr, Inhabited

namespace Table

/-- The declaration of a name. -/
def get? (table : Table) (name : QualifiedName) : Option Declaration :=
  (table.declarations.find? fun entry => entry.1 = name).map Prod.snd

/-- Whether a name is declared. -/
def contains (table : Table) (name : QualifiedName) : Bool := (table.get? name).isSome

/-- The number of declarations. -/
def size (table : Table) : Nat := table.declarations.length

/-- The declared names in canonical order. -/
def names (table : Table) : List QualifiedName := table.declarations.map Prod.fst

/-- Whether a module is known. -/
def hasModule (table : Table) (module : ModulePath) : Bool :=
  table.scopes.any fun entry => entry.1 = module

/-- The imports of a module, none for an unknown one. -/
def imports (table : Table) (module : ModulePath) : List Import :=
  ((table.scopes.find? fun entry => entry.1 = module).map Prod.snd).getD []

/-- The names of all declarations with this local name, in canonical order. -/
def withLocalName (table : Table) (name : String) : List QualifiedName :=
  table.names.filter fun qualified => qualified.name = name

/-- Add imports to a module in a list of scopes, which makes the module known. -/
def addToScopes (module : ModulePath) (imports : List Import) :
    List (ModulePath × List Import) → List (ModulePath × List Import)
  | [] => [(module, imports)]
  | (known, existing) :: rest =>
    if known = module then (known, existing ++ imports) :: rest
    else (known, existing) :: addToScopes module imports rest

/-- Add imports to a module, which makes the module known. -/
def addImports (table : Table) (module : ModulePath) (imports : List Import) : Table :=
  { table with scopes := addToScopes module imports table.scopes }

/-- Make a module known. -/
def openModule (table : Table) (module : ModulePath) : Table := table.addImports module []

/-- Add a candidate. -/
def addCandidate (table : Table) (candidate : Candidate) : Table :=
  { table with candidates := table.candidates ++ [candidate] }

/-- Add a declaration whose name must be new. -/
def insert (table : Table) (declaration : Declaration) : Except Failure Table :=
  match table.get? declaration.name with
  | some existing =>
    .error (.redeclaration declaration.name.display existing.source declaration.source)
  | none =>
    .ok { table with
      declarations :=
        Text.insertSorted QualifiedName.compare declaration.name declaration table.declarations }

end Table

end ApiScribe
