import ApiScribe.Lookup.Resolver
import ApiScribe.Proofs.Actions
import ApiScribe.Proofs.Declaration.Events

/-!
# What loading can declare

A lookup changes the resolver only by requesting modules, and a request only ever adds to the table.
Whatever a run declares later was declared at its start or stands in a file that the loader can supply,
so the number of names that can ever be declared is known in advance.
-/

namespace ApiScribe

namespace Loader

/-- The names of the types that everything the loader can supply declares. -/
def names (loader : Loader) : List QualifiedName :=
  loader.entries.flatMap fun entry =>
    match entry.2 with
    | .ok file => Extraction.declaredIn file
    | .error _ => []

/-- A loader has as many names as declarations. -/
theorem length_names (loader : Loader) : loader.names.length = loader.declarationCount := by
  obtain ⟨entries⟩ := loader
  unfold names declarationCount
  induction entries with
  | nil => rfl
  | cons entry rest ih =>
    rw [List.flatMap_cons, List.length_append, ih, List.foldr_cons]
    rcases entry.2 with failure | file
    · exact Nat.zero_add _
    · rfl

/-- What the loader supplies is one of its entries. -/
theorem declaredIn_subset_names {loader : Loader} {module : ModulePath} {file : Source.File}
    (h : loader.find? module = some (.ok file)) : Extraction.declaredIn file ⊆ loader.names := by
  obtain ⟨entry, hentry, hfile⟩ := Option.map_eq_some_iff.mp h
  intro name hname
  refine List.mem_flatMap.mpr ⟨entry, List.mem_of_find?_eq_some hentry, ?_⟩
  rw [hfile]
  exact hname

end Loader

namespace Resolver

/-- One resolver comes from another by requesting modules. -/
inductive Loads : Resolver → Resolver → Prop where
  | refl (resolver : Resolver) : Loads resolver resolver
  | request {first last : Resolver} (module : ModulePath) (h : Loads first last) :
      Loads first (last.ensureModule module)

/-- Loading is transitive. -/
theorem Loads.trans {first middle last : Resolver} (h : Loads first middle) (h' : Loads middle last) :
    Loads first last := by
  induction h' with
  | refl => exact h
  | request module _ ih => exact .request module ih

instance : IsPreorder Resolver Loads where
  refl := Loads.refl
  trans _ _ _ := Loads.trans

/-- Asking for a declaration only loads. -/
theorem declared_moves (name : QualifiedName) : Moves Loads (declared name) := by
  unfold declared
  refine moves_bind moves_get fun resolver => ?_
  dsimp only
  split
  · refine moves_bind (moves_modify fun state => .request name.module (.refl state)) fun _ => ?_
    exact moves_bind moves_get fun _ => moves_pure _
  · exact moves_bind moves_get fun _ => moves_pure _

/-- Going through imports only loads. -/
theorem firstDeclared_moves (scope : ModulePath) (designates : Import → Option (List String × String))
    (imports : List Import) : Moves Loads (firstDeclared scope designates imports) := by
  induction imports with
  | nil => exact moves_pure none
  | cons binding rest ih =>
    unfold firstDeclared
    split
    · exact ih
    · refine moves_bind moves_get fun resolver => ?_
      split
      · exact ih
      · refine moves_bind (declared_moves _) fun found => ?_
        split
        · exact moves_pure _
        · exact ih

/-- Looking up a bare name only loads. -/
theorem lookupBare_moves (name : String) (scope : ModulePath) : Moves Loads (lookupBare name scope) := by
  unfold lookupBare
  refine moves_bind moves_get fun resolver => ?_
  dsimp only
  split
  · exact moves_pure _
  · refine moves_bind (firstDeclared_moves scope _ _) fun found => ?_
    split
    · exact moves_pure _
    · exact firstDeclared_moves scope _ _

/-- Looking up a path does nothing to the resolver but request modules. -/
theorem lookup_moves (segments : List String) (scope : ModulePath) :
    Moves Loads (lookup segments scope) := by
  unfold lookup
  split
  · exact moves_pure none
  · exact lookupBare_moves _ scope
  · refine moves_bind moves_get fun resolver => ?_
    split
    · exact moves_pure none
    · exact declared_moves _

/-- A request leaves the table as it is, or visits the file that the loader supplies. -/
theorem ensureModule_cases (resolver : Resolver) (module : ModulePath) :
    (resolver.ensureModule module).loader = resolver.loader ∧
      ((resolver.ensureModule module).table = resolver.table ∨
        ∃ file, resolver.loader.find? module = some (.ok file) ∧
          (resolver.ensureModule module).table =
            ((Extraction.events file).foldl Extraction.Event.apply { table := resolver.table }).table) := by
  unfold ensureModule
  split
  · exact ⟨rfl, .inl rfl⟩
  · dsimp only
    split
    · next file hfile => exact ⟨rfl, .inr ⟨file, hfile, by rw [← Extraction.addFile_eq_foldl]; rfl⟩⟩
    · exact ⟨rfl, .inl rfl⟩
    · exact ⟨rfl, .inl rfl⟩

/-- A request keeps the loader. -/
theorem ensureModule_loader (resolver : Resolver) (module : ModulePath) :
    (resolver.ensureModule module).loader = resolver.loader :=
  (resolver.ensureModule_cases module).1

/-- A request declares nothing but what the loader can supply. -/
theorem mem_names_of_ensureModule {resolver : Resolver} {module : ModulePath} {name : QualifiedName}
    (h : name ∈ (resolver.ensureModule module).table.names) :
    name ∈ resolver.table.names ∨ name ∈ resolver.loader.names := by
  rcases (resolver.ensureModule_cases module).2 with htable | ⟨file, hfile, htable⟩
  · exact .inl (htable ▸ h)
  · rw [htable] at h
    rcases Extraction.mem_names_of_foldl h with h | h
    · rw [← Extraction.declaredIn_eq] at h
      exact .inr (Loader.declaredIn_subset_names hfile h)
    · exact .inl h

/-- A request keeps what is declared. -/
theorem get?_ensureModule {resolver : Resolver} {name : QualifiedName} {declaration : Declaration}
    (h : resolver.table.get? name = some declaration) (module : ModulePath) :
    (resolver.ensureModule module).table.get? name = some declaration := by
  rcases (resolver.ensureModule_cases module).2 with htable | ⟨file, -, htable⟩
  · rw [htable, h]
  · rw [htable]
    exact Extraction.get?_foldl h _

end Resolver

end ApiScribe
