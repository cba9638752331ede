import ApiScribe.Lookup.Resolver

/-!
# Tables that say the same

Two tables can differ in the order in which they list their modules and candidates and still say the same to
every lookup. What a path means in a scope depends on the imports of the scope and on its known child modules;
the rest depends on the declarations.
-/

namespace ApiScribe.Table

variable {scope : ModulePath} {first last : Table}

/-- A scope says the same in two tables: it has the same imports and the same known child modules. -/
structure SameScope (scope : ModulePath) (first last : Table) : Prop where
  imports : last.imports scope = first.imports scope
  children : ∀ child, last.hasModule (scope.child child) = first.hasModule (scope.child child)

/-- Qualifiers name the same modules as long as their scope says the same. -/
theorem SameScope.moduleOf? (h : SameScope scope first last) (qualifier : List String) :
    last.moduleOf? scope qualifier = first.moduleOf? scope qualifier := by
  have himport (name : String) : last.namedImport? scope name = first.namedImport? scope name := by
    simp only [namedImport?, h.imports]
  have hposition (name : String) (rest : List String) :
      last.moduleByPosition scope name rest = first.moduleByPosition scope name rest := by
    simp only [moduleByPosition, h.children]
  have hwithin (depth : Nat) (qualifier : List String) :
      last.moduleWithin scope depth qualifier = first.moduleWithin scope depth qualifier := by
    induction depth generalizing qualifier with
    | zero =>
      cases qualifier with
      | nil => rfl
      | cons segment rest => simp only [moduleWithin, hposition]
    | succ depth ih =>
      cases qualifier with
      | nil => rfl
      | cons segment rest =>
        unfold moduleWithin
        rw [himport, hposition]
        cases first.namedImport? scope segment with
        | none => rfl
        | some binding =>
          dsimp only
          rw [ih]
  exact hwithin maxImportDepth qualifier

/-- Two tables have the same declarations and say the same of every scope. -/
structure Alike (first last : Table) : Prop where
  declarations : last.declarations = first.declarations
  scopes : ∀ scope, SameScope scope first last

namespace Alike

/-- A table is like itself. -/
theorem refl (table : Table) : Alike table table := ⟨rfl, fun _ => ⟨rfl, fun _ => rfl⟩⟩

variable (h : Alike first last)

include h

/-- Tables that are alike have the same declarations. -/
theorem get? (name : QualifiedName) : last.get? name = first.get? name := by
  rw [Table.get?, h.declarations, Table.get?]

/-- Tables that are alike contain the same names. -/
theorem contains (name : QualifiedName) : last.contains name = first.contains name := by
  rw [Table.contains, h.get?, Table.contains]

/-- Tables that are alike have the same unique names. -/
theorem findUnique? (name : String) : last.findUnique? name = first.findUnique? name := by
  unfold Table.findUnique? withLocalName names
  rw [h.declarations]

end Alike

end ApiScribe.Table
