import ApiScribe.Proofs.Loading
import ApiScribe.Proofs.Lookup.Alike

/-!
# How long an answer lasts

Requests only ever add to a resolver, so a name that was found stays declared. The answer to a lookup can
still change, because a path is read relative to a scope and the readings are consulted in order: the
qualifier may come to name another module, and a reading that was not declared before may be now. As long
as the scope says the same, the second is the only way to lose an answer.
-/

namespace ApiScribe

/-- An entry that passes is found first exactly if none in front of it passes. -/
theorem find?_eq_some_iff_takeWhile {α : Type} [DecidableEq α] {test : α → Bool} {entries : List α} {entry : α}
    (hmem : entry ∈ entries) (h : test entry = true) :
    entries.find? test = some entry ↔ ∀ other ∈ entries.takeWhile (· ≠ entry), test other = false := by
  induction entries with
  | nil => cases hmem
  | cons first rest ih =>
    by_cases hfirst : first = entry
    · simp [hfirst, h]
    · have hrest : entry ∈ rest := (List.mem_cons.mp hmem).resolve_left (Ne.symm hfirst)
      cases htest : test first <;> simp [hfirst, htest, ih hrest]

namespace Table

variable {scope : ModulePath} {first last : Table}

/-- A module is known exactly if it has a scope. -/
theorem hasModule_iff (table : Table) (module : ModulePath) :
    table.hasModule module = true ↔ module ∈ table.scopes.map Prod.fst := by
  simp [hasModule]

/-- The name that an import of a scope designates. -/
def target? (table : Table) (scope : ModulePath) (designates : Import → Option (List String × String))
    (binding : Import) : Option QualifiedName :=
  (designates binding).bind fun target =>
    (table.moduleOf? scope target.1).map fun module => ⟨module, target.2⟩

/-- The names that imports of a scope designate. -/
def targets (table : Table) (scope : ModulePath) (designates : Import → Option (List String × String))
    (imports : List Import) : List QualifiedName :=
  imports.filterMap (table.target? scope designates)

/-- The name that a path without a qualifier has in its scope. -/
def localName? (segments : List String) (scope : ModulePath) : Option QualifiedName :=
  match segments with
  | [name] => some ⟨scope, name⟩
  | _ => none

/-- The names that a path leads to from its scope, in the order in which they are consulted. -/
def designated (table : Table) (segments : List String) (scope : ModulePath) : List QualifiedName :=
  match segments.getLast?, segments.dropLast with
  | none, _ => []
  | some name, [] =>
    table.targets scope (Resolver.namedTarget name) (table.imports scope) ++
      table.targets scope (Resolver.globTarget name) (table.imports scope)
  | some name, qualifier => (table.moduleOf? scope qualifier).toList.map fun module => ⟨module, name⟩

/-- A bare name designates what named imports lead to, then what globs lead to. -/
theorem designated_bare (table : Table) (name : String) (scope : ModulePath) :
    table.designated [name] scope =
      table.targets scope (Resolver.namedTarget name) (table.imports scope) ++
        table.targets scope (Resolver.globTarget name) (table.imports scope) := rfl

/-- A qualified name designates the name in the module that its qualifier leads to. -/
theorem designated_qualified (table : Table) {qualifier : List String} (h : qualifier ≠ []) (name : String)
    (scope : ModulePath) :
    table.designated (qualifier ++ [name]) scope =
      (table.moduleOf? scope qualifier).toList.map fun module => ⟨module, name⟩ := by
  unfold designated
  rw [List.getLast?_concat, List.dropLast_concat]
  split
  · cases ‹some name = none›
  · exact absurd rfl h
  · next heq _ => cases heq; rfl

/-- All readings of a path, in the order in which they are consulted. -/
def readings (table : Table) (segments : List String) (scope : ModulePath) : List QualifiedName :=
  (localName? segments scope).toList ++ table.designated segments scope

/-- Imports designate the same names as long as their scope says the same. -/
theorem SameScope.targets (h : SameScope scope first last)
    (designates : Import → Option (List String × String)) (imports : List Import) :
    last.targets scope designates imports = first.targets scope designates imports := by
  unfold Table.targets Table.target?
  simp only [h.moduleOf?]

/-- Tables with the same scope designate the same. -/
theorem SameScope.designated (h : SameScope scope first last) (segments : List String) :
    last.designated segments scope = first.designated segments scope := by
  simp only [Table.designated, h.targets, h.moduleOf?, h.imports]

end Table

namespace Resolver

/-- What only ever grows in a resolver. -/
structure Extends (first last : Resolver) : Prop where
  declarations : ∀ name declaration, first.table.get? name = some declaration →
    last.table.get? name = some declaration
  imports : ∀ module, first.table.imports module <+: last.table.imports module
  modules : ∀ module, first.table.hasModule module = true → last.table.hasModule module = true
  requested : first.requested ⊆ last.requested

/-- A resolver extends itself. -/
theorem Extends.refl (resolver : Resolver) : Extends resolver resolver where
  declarations _ _ h := h
  imports _ := List.prefix_refl _
  modules _ h := h
  requested _ h := h

/-- Extensions compose. -/
theorem Extends.trans {first middle last : Resolver} (h : Extends first middle) (h' : Extends middle last) :
    Extends first last where
  declarations name declaration hname := h'.declarations name declaration (h.declarations name declaration hname)
  imports module := (h.imports module).trans (h'.imports module)
  modules module hmodule := h'.modules module (h.modules module hmodule)
  requested _ hmodule := h'.requested (h.requested hmodule)

/-- What is declared stays declared. -/
theorem Extends.contains {first last : Resolver} (h : Extends first last) {name : QualifiedName}
    (hname : first.table.contains name = true) : last.table.contains name = true := by
  obtain ⟨declaration, hget⟩ := Option.isSome_iff_exists.mp hname
  simp [Table.contains, h.declarations name declaration hget]

/-- A request only adds to a resolver. -/
theorem ensureModule_extends (resolver : Resolver) (module : ModulePath) :
    Extends resolver (resolver.ensureModule module) where
  declarations _ _ h := get?_ensureModule h module
  imports other := by
    rcases (resolver.ensureModule_cases module).2 with htable | ⟨file, -, htable⟩
    · have hsame : (resolver.ensureModule module).table.imports other = resolver.table.imports other := by
        rw [htable]
      exact hsame ▸ List.prefix_refl _
    · rw [htable, Extraction.imports_foldl]
      exact List.prefix_append _ _
  modules other hother := by
    rcases (resolver.ensureModule_cases module).2 with htable | ⟨file, -, htable⟩
    · rw [htable, hother]
    · rw [htable, Extraction.hasModule_foldl, hother, Bool.true_or]
  requested := by
    unfold ensureModule
    split
    · exact fun _ h => h
    · dsimp only
      split <;> exact List.subset_cons_self _ _

/-- Loading extends a resolver. -/
theorem Loads.extends {first last : Resolver} (h : Loads first last) : Extends first last := by
  induction h with
  | refl => exact .refl first
  | request module _ ih => exact ih.trans (ensureModule_extends _ module)

/-- The scope of a resolver in between says what it says at both ends. -/
theorem Extends.sameScope {first middle last : Resolver} {scope : ModulePath} (h : Extends first middle)
    (h' : Extends middle last) (hscope : Table.SameScope scope first.table last.table) :
    Table.SameScope scope first.table middle.table ∧ Table.SameScope scope middle.table last.table := by
  have himports : middle.table.imports scope = first.table.imports scope := by
    refine ((h.imports scope).eq_of_length_le ?_).symm
    rw [← hscope.imports]
    exact (h'.imports scope).length_le
  have hchildren (child : String) :
      middle.table.hasModule (scope.child child) = first.table.hasModule (scope.child child) := by
    have hfirst := h.modules (scope.child child)
    have hlast := h'.modules (scope.child child)
    rw [hscope.children child] at hlast
    exact Bool.eq_iff_iff.mpr ⟨hlast, hfirst⟩
  refine ⟨⟨himports, hchildren⟩, ⟨?_, fun child => ?_⟩⟩
  · rw [himports, hscope.imports]
  · rw [hchildren, hscope.children]

/-- A request for the module changes nothing any more. -/
def Settled (resolver : Resolver) (module : ModulePath) : Prop :=
  resolver.table.hasModule module = true ∨ module ∈ resolver.requested

/-- A settled module stays settled. -/
theorem Settled.extends {first last : Resolver} {module : ModulePath} (h : first.Settled module)
    (hextends : Extends first last) : last.Settled module :=
  h.imp (hextends.modules module) fun hmodule => hextends.requested hmodule

/-- A settled module is not loaded again. -/
theorem ensureModule_of_settled {resolver : Resolver} {module : ModulePath} (h : resolver.Settled module) :
    resolver.ensureModule module = resolver := by
  have hknown : (resolver.table.hasModule module || resolver.requested.contains module) = true := by
    simpa [Settled] using h
  rw [ensureModule, if_pos hknown]

/-- A module that was asked for is settled. -/
theorem settled_ensureModule (resolver : Resolver) (module : ModulePath) :
    (resolver.ensureModule module).Settled module := by
  unfold ensureModule
  split
  · next hknown => simpa [Settled] using hknown
  · dsimp only
    split <;> exact .inr List.mem_cons_self

/-- A name that is declared is given back as it is. -/
theorem declared_run_of_contains {resolver : Resolver} {name : QualifiedName}
    (h : resolver.table.contains name = true) : (declared name).run resolver = (some name, resolver) := by
  simp only [declared, StateT.run_bind, StateT.run_get, pure_bind, h, Bool.not_true, Bool.false_eq_true,
    if_false, if_true]
  rfl

/-- The module of a name that is not declared is requested. -/
theorem declared_run_of_not_contains {resolver : Resolver} {name : QualifiedName}
    (h : resolver.table.contains name = false) :
    (declared name).run resolver =
      (if (resolver.ensureModule name.module).table.contains name then some name else none,
        resolver.ensureModule name.module) := by
  simp only [declared, StateT.run_bind, StateT.run_get, pure_bind, h, Bool.not_false, if_true]
  rfl

/-- The first declared name of a list. -/
def consult : List QualifiedName → Resolving (Option QualifiedName)
  | [] => return none
  | name :: rest => do
    match ← declared name with
    | some found => return some found
    | none => consult rest

/-- Consulting names only loads. -/
theorem consult_moves (names : List QualifiedName) : Moves Loads (consult names) := by
  induction names with
  | nil => exact moves_pure none
  | cons name rest ih =>
    refine moves_bind (declared_moves name) fun found => ?_
    cases found with
    | none => exact ih
    | some found => exact moves_pure _

/-- Names are consulted one after another until one is declared. -/
theorem consult_cons_run (name : QualifiedName) (rest : List QualifiedName) (resolver : Resolver) :
    (consult (name :: rest)).run resolver =
      match (declared name).run resolver with
      | (some found, last) => (some found, last)
      | (none, last) => (consult rest).run last := by
  rw [consult, StateT.run_bind]
  rcases (declared name).run resolver with ⟨_ | found, last⟩ <;> rfl

/-- The second list is consulted if nothing in the first is declared. -/
theorem consult_append_run (names more : List QualifiedName) (resolver : Resolver) :
    (consult (names ++ more)).run resolver =
      match (consult names).run resolver with
      | (some found, last) => (some found, last)
      | (none, last) => (consult more).run last := by
  induction names generalizing resolver with
  | nil => rfl
  | cons name rest ih =>
    rw [List.cons_append, consult_cons_run, consult_cons_run]
    rcases (declared name).run resolver with ⟨_ | found, last⟩
    · exact ih last
    · rfl

/-- A name that is found is declared, and the modules of the names in front of it are settled. -/
theorem consult_run_some {names : List QualifiedName} {first last : Resolver} {found : QualifiedName}
    (h : (consult names).run first = (some found, last)) :
    found ∈ names ∧ last.table.contains found = true ∧
      ∀ name ∈ names.takeWhile (· ≠ found), last.Settled name.module := by
  induction names generalizing first with
  | nil => cases h
  | cons name rest ih =>
    rw [consult_cons_run] at h
    cases hname : first.table.contains name with
    | true =>
      rw [declared_run_of_contains hname] at h
      cases h
      simp [hname]
    | false =>
      rw [declared_run_of_not_contains hname] at h
      cases hloaded : (first.ensureModule name.module).table.contains name with
      | true =>
        rw [hloaded] at h
        cases h
        simp [hloaded]
      | false =>
        rw [hloaded] at h
        obtain ⟨hmem, hfound, hfront⟩ := ih h
        have hsettled : last.Settled name.module := by
          have hloads : Loads (first.ensureModule name.module) last := (consult_moves rest).of_run h
          exact (settled_ensureModule first _).extends hloads.extends
        refine ⟨List.mem_cons_of_mem _ hmem, hfound, fun other hother => ?_⟩
        rw [List.takeWhile_cons] at hother
        split at hother
        · rcases List.mem_cons.mp hother with rfl | hother
          · exact hsettled
          · exact hfront other hother
        · cases hother

/-- Where the modules in front of a declared name are settled, consulting only looks into the table. -/
theorem consult_run_of_settled {names : List QualifiedName} {resolver : Resolver} {found : QualifiedName}
    (hmem : found ∈ names) (hfound : resolver.table.contains found = true)
    (hsettled : ∀ name ∈ names.takeWhile (· ≠ found), resolver.Settled name.module) :
    (consult names).run resolver = (names.find? resolver.table.contains, resolver) := by
  induction names with
  | nil => cases hmem
  | cons name rest ih =>
    rw [consult_cons_run, List.find?_cons]
    cases hname : resolver.table.contains name with
    | true => rw [declared_run_of_contains hname]
    | false =>
      have hne : name ≠ found := by
        rintro rfl
        rw [hname] at hfound
        cases hfound
      rw [List.takeWhile_cons, if_pos (by simpa using hne)] at hsettled
      rw [declared_run_of_not_contains hname, ensureModule_of_settled (hsettled name List.mem_cons_self), hname]
      refine ih ((List.mem_cons.mp hmem).resolve_left hne.symm) fun other hother => ?_
      exact hsettled other (List.mem_cons_of_mem _ hother)

section Imports

variable {scope : ModulePath} {designates : Import → Option (List String × String)} {imports : List Import}
  {first : Resolver}

/-- Imports are gone through one after another until one leads to a declaration. -/
theorem firstDeclared_cons_run (binding : Import) (rest : List Import) :
    (firstDeclared scope designates (binding :: rest)).run first =
      match first.table.target? scope designates binding with
      | none => (firstDeclared scope designates rest).run first
      | some name =>
        match (declared name).run first with
        | (some found, last) => (some found, last)
        | (none, last) => (firstDeclared scope designates rest).run last := by
  rw [firstDeclared, Table.target?]
  cases designates binding with
  | none => rfl
  | some target =>
    rw [StateT.run_bind, StateT.run_get, pure_bind, Option.bind_some]
    dsimp only
    cases first.table.moduleOf? scope target.1 with
    | none => rfl
    | some module =>
      dsimp only [Option.map_some]
      rw [StateT.run_bind]
      rcases (declared ⟨module, target.2⟩).run first with ⟨_ | found, last⟩ <;> rfl

/-- Imports are followed by consulting the names they designate, if their scope says the same at the end. -/
theorem firstDeclared_run
    (h : Table.SameScope scope first.table ((firstDeclared scope designates imports).run first).2.table) :
    (firstDeclared scope designates imports).run first =
      (consult (first.table.targets scope designates imports)).run first := by
  induction imports generalizing first with
  | nil => rfl
  | cons binding rest ih =>
    rw [firstDeclared_cons_run] at h ⊢
    rw [Table.targets, List.filterMap_cons]
    cases htarget : first.table.target? scope designates binding with
    | none =>
      rw [htarget] at h
      exact ih h
    | some name =>
      rw [htarget] at h
      dsimp only at h ⊢
      rw [consult_cons_run]
      have hfirst := declared_moves name first
      rcases hrun : (declared name).run first with ⟨_ | found, middle⟩
      · rw [hrun] at h hfirst
        have hlast := firstDeclared_moves scope designates rest middle
        obtain ⟨hbefore, hafter⟩ := hfirst.extends.sameScope hlast.extends h
        exact (ih hafter).trans (by rw [hbefore.targets, Table.targets])
      · rfl

/-- Imports are followed by consulting the names they designate, if their scope says the same after that. -/
theorem firstDeclared_run_of_consult (h : Table.SameScope scope first.table
      ((consult (first.table.targets scope designates imports)).run first).2.table) :
    (firstDeclared scope designates imports).run first =
      (consult (first.table.targets scope designates imports)).run first := by
  induction imports generalizing first with
  | nil => rfl
  | cons binding rest ih =>
    rw [firstDeclared_cons_run]
    rw [Table.targets, List.filterMap_cons] at h ⊢
    cases htarget : first.table.target? scope designates binding with
    | none =>
      rw [htarget] at h
      exact ih h
    | some name =>
      rw [htarget] at h
      dsimp only at h ⊢
      rw [consult_cons_run] at h ⊢
      have hfirst := declared_moves name first
      rcases hrun : (declared name).run first with ⟨_ | found, middle⟩
      · rw [hrun] at h hfirst
        have hlast := consult_moves (first.table.targets scope designates rest) middle
        obtain ⟨hbefore, hafter⟩ := hfirst.extends.sameScope hlast.extends h
        rw [← hbefore.targets] at hafter
        exact (ih hafter).trans (by rw [hbefore.targets, Table.targets])
      · rfl

end Imports

/-- A name that its scope declares is found there. -/
theorem lookup_run_of_local {name : String} {scope : ModulePath} {resolver : Resolver}
    (h : resolver.table.contains ⟨scope, name⟩ = true) :
    (lookup [name] scope).run resolver = (some ⟨scope, name⟩, resolver) := by
  change (lookupBare name scope).run resolver = _
  rw [lookupBare, StateT.run_bind, StateT.run_get, pure_bind]
  dsimp only
  rw [if_pos h]
  rfl

/-- A bare name that its scope does not declare is looked up by named imports, then by glob imports. -/
theorem lookup_run_bare {name : String} {scope : ModulePath} {resolver : Resolver}
    (h : resolver.table.contains ⟨scope, name⟩ = false) :
    (lookup [name] scope).run resolver =
      match (firstDeclared scope (namedTarget name) (resolver.table.imports scope)).run resolver with
      | (some found, last) => (some found, last)
      | (none, last) => (firstDeclared scope (globTarget name) (resolver.table.imports scope)).run last := by
  change (lookupBare name scope).run resolver = _
  rw [lookupBare, StateT.run_bind, StateT.run_get, pure_bind]
  dsimp only
  rw [h, if_neg Bool.false_ne_true, StateT.run_bind]
  rcases (firstDeclared scope (namedTarget name) (resolver.table.imports scope)).run resolver with ⟨_ | _, _⟩ <;>
    rfl

/-- A path with a qualifier is looked up in the module that the qualifier names. -/
theorem lookup_run_qualified {qualifier : List String} (h : qualifier ≠ []) (name : String)
    (scope : ModulePath) (resolver : Resolver) :
    (lookup (qualifier ++ [name]) scope).run resolver =
      (consult (resolver.table.designated (qualifier ++ [name]) scope)).run resolver := by
  rw [Table.designated_qualified _ h]
  cases qualifier with
  | nil => exact absurd rfl h
  | cons segment rest =>
    unfold lookup
    rw [List.getLast?_concat, List.dropLast_concat]
    dsimp only
    rw [StateT.run_bind, StateT.run_get, pure_bind]
    dsimp only
    cases resolver.table.moduleOf? scope (segment :: rest) with
    | none => rfl
    | some module =>
      rw [Option.toList_some, List.map_cons, consult_cons_run]
      rcases (declared ⟨module, name⟩).run resolver with ⟨_ | _, _⟩ <;> rfl

section Bare

variable {name : String} {scope : ModulePath} {first : Resolver}

/-- A bare name that its scope does not declare is looked up by consulting the names that imports designate,
if the scope says the same at the end. -/
theorem lookup_run_imported (hlocal : first.table.contains ⟨scope, name⟩ = false)
    (h : Table.SameScope scope first.table ((lookup [name] scope).run first).2.table) :
    (lookup [name] scope).run first = (consult (first.table.designated [name] scope)).run first := by
  rw [lookup_run_bare hlocal] at h ⊢
  rw [Table.designated_bare, consult_append_run]
  have hnamed := firstDeclared_moves scope (namedTarget name) (first.table.imports scope) first
  rcases hrun : (firstDeclared scope (namedTarget name) (first.table.imports scope)).run first
    with ⟨_ | found, middle⟩
  · rw [hrun] at h hnamed
    have hglob := firstDeclared_moves scope (globTarget name) (first.table.imports scope) middle
    obtain ⟨hbefore, hafter⟩ := hnamed.extends.sameScope hglob.extends h
    rw [← firstDeclared_run (by rw [hrun]; exact hbefore), hrun]
    dsimp only
    rw [firstDeclared_run hafter, hbefore.targets]
  · rw [hrun] at h
    rw [← firstDeclared_run (by rw [hrun]; exact h), hrun]

/-- A bare name that its scope does not declare is looked up by consulting the names that imports designate,
if the scope says the same after that. -/
theorem lookup_run_of_consult (hlocal : first.table.contains ⟨scope, name⟩ = false)
    (h : Table.SameScope scope first.table
      ((consult (first.table.designated [name] scope)).run first).2.table) :
    (lookup [name] scope).run first = (consult (first.table.designated [name] scope)).run first := by
  rw [lookup_run_bare hlocal]
  rw [Table.designated_bare, consult_append_run] at h ⊢
  have hnamed := consult_moves (first.table.targets scope (namedTarget name) (first.table.imports scope)) first
  rcases hrun : (consult (first.table.targets scope (namedTarget name) (first.table.imports scope))).run first
    with ⟨_ | found, middle⟩
  · rw [hrun] at h hnamed
    dsimp only at h ⊢
    have hglob := consult_moves (first.table.targets scope (globTarget name) (first.table.imports scope)) middle
    obtain ⟨hbefore, hafter⟩ := hnamed.extends.sameScope hglob.extends h
    rw [firstDeclared_run_of_consult (by rw [hrun]; exact hbefore), hrun]
    dsimp only
    rw [← hbefore.targets] at hafter ⊢
    exact firstDeclared_run_of_consult hafter
  · rw [hrun] at h
    rw [firstDeclared_run_of_consult (by rw [hrun]; exact h), hrun]

end Bare

/-- The resolver after further lookups. -/
def afterLookups (resolver : Resolver) (lookups : List (List String × ModulePath)) : Resolver :=
  lookups.foldl (fun resolver path => ((lookup path.1 path.2).run resolver).2) resolver

/-- Lookups only load. -/
theorem afterLookups_loads (resolver : Resolver) (lookups : List (List String × ModulePath)) :
    Loads resolver (resolver.afterLookups lookups) := by
  induction lookups generalizing resolver with
  | nil => exact .refl resolver
  | cons path rest ih => exact (lookup_moves path.1 path.2 resolver).trans (ih _)

section Later

variable {scope : ModulePath} {found : QualifiedName} {first middle last : Resolver}

/-- A found name is only looked into the table for, from then on. -/
theorem consult_run_later {names : List QualifiedName} (h : (consult names).run first = (some found, middle))
    (hlast : Extends middle last) :
    (consult names).run last = (names.find? last.table.contains, last) ∧
      (names.find? last.table.contains = some found ↔
        ∀ name ∈ names.takeWhile (· ≠ found), last.table.contains name = false) := by
  obtain ⟨hmem, hfound, hsettled⟩ := consult_run_some h
  have hfound' := hlast.contains hfound
  refine ⟨consult_run_of_settled hmem hfound' fun name hname => ?_, find?_eq_some_iff_takeWhile hmem hfound'⟩
  exact (hsettled name hname).extends hlast

/-- A bare name leads to what it led to exactly if no reading in front of that is declared. -/
theorem lookup_bare_later {name : String} (h : (lookup [name] scope).run first = (some found, middle))
    (hlast : Loads middle last) (hscope : Table.SameScope scope first.table last.table) :
    ((lookup [name] scope).run last).1 = some found ↔
      ∀ other ∈ (first.table.readings [name] scope).takeWhile (· ≠ found), last.table.contains other = false := by
  have hfirst : Loads first middle := (lookup_moves _ _).of_run h
  have hreadings : first.table.readings [name] scope =
      ⟨scope, name⟩ :: first.table.designated [name] scope := rfl
  rw [hreadings, List.takeWhile_cons]
  by_cases hlocal : last.table.contains ⟨scope, name⟩ = true
  · -- The scope declares the name: it is found there, whatever was found before.
    rw [lookup_run_of_local hlocal]
    by_cases hfound : (⟨scope, name⟩ : QualifiedName) = found
    · simp [hfound]
    · simp [hfound, hlocal]
  · have hlocal' : first.table.contains ⟨scope, name⟩ = false := by
      by_contra hcontains
      exact hlocal ((hfirst.trans hlast).extends.contains (by simpa using hcontains))
    obtain ⟨hbefore, hafter⟩ := hfirst.extends.sameScope hlast.extends hscope
    have hconsult : (consult (first.table.designated [name] scope)).run first = (some found, middle) := by
      rw [← lookup_run_imported hlocal' (by rw [h]; exact hbefore), h]
    obtain ⟨hrun, hiff⟩ := consult_run_later hconsult hlast.extends
    have hrun' : (lookup [name] scope).run last =
        ((first.table.designated [name] scope).find? last.table.contains, last) := by
      rw [← hscope.designated] at hrun ⊢
      rw [lookup_run_of_consult (by simpa using hlocal) (by rw [hrun]; exact ⟨rfl, fun _ => rfl⟩), hrun]
    have hne : (⟨scope, name⟩ : QualifiedName) ≠ found := by
      rintro rfl
      exact hlocal (hlast.extends.contains (consult_run_some hconsult).2.1)
    rw [hrun', hiff]
    simp [hne, hlocal]

/-- The only reading of a path with a qualifier is the name it led to. -/
theorem readings_eq_singleton {qualifier : List String} {name : String} (hqualifier : qualifier ≠ [])
    (h : (lookup (qualifier ++ [name]) scope).run first = (some found, middle)) :
    first.table.moduleOf? scope qualifier = some found.module ∧
      first.table.readings (qualifier ++ [name]) scope = [found] := by
  have hlocal : Table.localName? (qualifier ++ [name]) scope = none := by
    cases qualifier with
    | nil => exact absurd rfl hqualifier
    | cons segment rest => cases rest <;> rfl
  rw [lookup_run_qualified hqualifier, Table.designated_qualified _ hqualifier] at h
  obtain ⟨module, hmodule, rfl⟩ := List.mem_map.mp (consult_run_some h).1
  have hmodule' := Option.mem_toList.mp hmodule
  refine ⟨hmodule', ?_⟩
  rw [Table.readings, hlocal, Table.designated_qualified _ hqualifier, hmodule']
  rfl

/-- A path with a qualifier leads to what it led to exactly if the qualifier names the same module. -/
theorem lookup_qualified_later {qualifier : List String} {name : String} (hqualifier : qualifier ≠ [])
    (h : (lookup (qualifier ++ [name]) scope).run first = (some found, middle)) (hlast : Loads middle last) :
    ((lookup (qualifier ++ [name]) scope).run last).1 = some found ↔
      last.table.moduleOf? scope qualifier = some found.module := by
  constructor
  · intro hlater
    exact (readings_eq_singleton hqualifier (Prod.ext hlater rfl)).1
  · intro hmodule
    rw [lookup_run_qualified hqualifier, Table.designated_qualified _ hqualifier] at h ⊢
    obtain ⟨hmem, hfound, -⟩ := consult_run_some h
    obtain ⟨module, -, rfl⟩ := List.mem_map.mp hmem
    rw [hmodule, Option.toList_some, List.map_singleton, consult_cons_run,
      declared_run_of_contains (hlast.extends.contains hfound)]

end Later

/-- When an answer lasts: as long as the scope says the same, a path leads to the name it led to exactly if
no reading in front of that name is declared; and a path with a qualifier leads to it exactly if the
qualifier still names its module. -/
theorem lookup_again_iff {segments : List String} {scope : ModulePath} {found : QualifiedName}
    {first middle : Resolver} (h : (lookup segments scope).run first = (some found, middle))
    (lookups : List (List String × ModulePath)) :
    let last := middle.afterLookups lookups
    (Table.SameScope scope first.table last.table →
      (((lookup segments scope).run last).1 = some found ↔
        ∀ name ∈ (first.table.readings segments scope).takeWhile (· ≠ found),
          last.table.contains name = false)) ∧
    (segments.dropLast ≠ [] →
      (((lookup segments scope).run last).1 = some found ↔
        last.table.moduleOf? scope segments.dropLast = some found.module)) := by
  intro last
  have hlast : Loads middle last := afterLookups_loads middle lookups
  rcases hname : segments.getLast? with _ | name
  · rw [List.getLast?_eq_none_iff.mp hname] at h
    cases h
  obtain ⟨qualifier, rfl⟩ := List.getLast?_eq_some_iff.mp hname
  rw [List.dropLast_concat]
  by_cases hqualifier : qualifier = []
  · subst hqualifier
    exact ⟨lookup_bare_later h hlast, fun hne => absurd rfl hne⟩
  · refine ⟨fun hscope => ?_, fun _ => lookup_qualified_later hqualifier h hlast⟩
    obtain ⟨hmodule, hreadings⟩ := readings_eq_singleton hqualifier h
    rw [lookup_qualified_later hqualifier h hlast, hscope.moduleOf?, hmodule, hreadings]
    simp

/-- A module in which `Bar` is imported by name from `a` and with everything else from `b`. -/
def importingFile : Source.File where
  path := "src/s.rs"
  module := ⟨["s"]⟩
  content.attributes := []
  content.items :=
    [.use (.path "crate" (.path "a" (.name "Bar"))), .use (.path "crate" (.path "b" .glob))]

/-- A module that declares `Bar`. -/
def barFile (module : ModulePath) : Source.File where
  path := "loaded.rs"
  module
  content.attributes := []
  content.items := [.struct ⟨"Bar", [], []⟩ .unit]

/-- With `a` missing and `b` loaded on demand, `Bar` is found in `b`, and found there again. -/
theorem lookup_again_iff_imports :
    let scope : ModulePath := ⟨["s"]⟩
    let first : Resolver :=
      { table := (Extraction.ofFiles [importingFile]).table
        loader := ⟨[(⟨["b"]⟩, .ok (barFile ⟨["b"]⟩))]⟩ }
    let middle := ((lookup ["Bar"] scope).run first).2
    let last := middle.afterLookups [(["crate", "a", "Bar"], scope), (["crate", "b", "Bar"], .root)]
    ((lookup ["Bar"] scope).run first).1 = some ⟨⟨["b"]⟩, "Bar"⟩ ∧
    Table.SameScope scope first.table last.table ∧
    (first.table.readings ["Bar"] scope).takeWhile (· ≠ ⟨⟨["b"]⟩, "Bar"⟩) = [⟨scope, "Bar"⟩, ⟨⟨["a"]⟩, "Bar"⟩] ∧
    ((lookup ["Bar"] scope).run last).1 = some ⟨⟨["b"]⟩, "Bar"⟩ := by
  intro scope first middle last
  have hfirst : (lookup ["Bar"] scope).run first = (some ⟨⟨["b"]⟩, "Bar"⟩, middle) := by
    refine Prod.ext ?_ rfl
    decide +kernel
  have hscope : Table.SameScope scope first.table last.table := by
    have hmodules : first.table.scopes.map Prod.fst = [⟨["s"]⟩] ∧
        last.table.scopes.map Prod.fst = [⟨["s"]⟩, ⟨["b"]⟩] := by
      decide +kernel
    refine ⟨by decide +kernel, fun child => ?_⟩
    rw [Bool.eq_iff_iff, Table.hasModule_iff, Table.hasModule_iff, hmodules.1, hmodules.2]
    simp [scope, ModulePath.child]
  have hfront : (first.table.readings ["Bar"] scope).takeWhile (· ≠ ⟨⟨["b"]⟩, "Bar"⟩) =
      [⟨scope, "Bar"⟩, ⟨⟨["a"]⟩, "Bar"⟩] := by
    decide +kernel
  refine ⟨congrArg Prod.fst hfirst, hscope, hfront, ((lookup_again_iff hfirst _).1 hscope).mpr ?_⟩
  rw [hfront]
  decide +kernel

/-- An answer can be lost: `foo::Bar` leads to the crate root until the scope's own child module `foo` is
loaded by another lookup. -/
theorem lookup_changes_to_child :
    let scope : ModulePath := ⟨["s"]⟩
    let first : Resolver :=
      { table := (Extraction.ofFiles [barFile ⟨["foo"]⟩, ⟨"src/s.rs", scope, ⟨[], []⟩⟩]).table
        loader := ⟨[(⟨["s", "foo"]⟩, .ok (barFile ⟨["s", "foo"]⟩))]⟩ }
    let middle := ((lookup ["foo", "Bar"] scope).run first).2
    let last := middle.afterLookups [(["self", "foo", "Bar"], scope)]
    ((lookup ["foo", "Bar"] scope).run first).1 = some ⟨⟨["foo"]⟩, "Bar"⟩ ∧
    ((lookup ["foo", "Bar"] scope).run last).1 = some ⟨⟨["s", "foo"]⟩, "Bar"⟩ := by
  decide +kernel

end Resolver

end ApiScribe
