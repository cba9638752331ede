import ApiScribe.Proofs.Declaration.Imports
import ApiScribe.Proofs.Lookup.Stability

/-!
# Names without marks

An identifier may be written with the mark of a raw one. The names of types, modules and imports lose it when
a file is read, so a run knows none of them by a marked name, at its start and whatever is loaded later. A path
with a marked segment leads nowhere then.
-/

namespace ApiScribe

/-- An identifier is marked as raw. -/
def IsRaw (ident : String) : Prop := Text.startsWith "r#" ident = true

instance : DecidablePred IsRaw := fun ident => inferInstanceAs (Decidable (Text.startsWith "r#" ident = true))

/-- A marked identifier is raw. -/
theorem isRaw_raw (ident : String) : IsRaw ("r#" ++ ident) := by
  simp [IsRaw, Text.startsWith, Text.stripLead]

/-- No segment of the module is marked. -/
def ModulePath.Plain (module : ModulePath) : Prop := ∀ segment ∈ module.segments, ¬ IsRaw segment

instance : DecidablePred ModulePath.Plain := fun module =>
  inferInstanceAs (Decidable (∀ segment ∈ module.segments, ¬ IsRaw segment))

/-- Neither the name nor its module is marked. -/
def QualifiedName.Plain (name : QualifiedName) : Prop := name.module.Plain ∧ ¬ IsRaw name.name

namespace Source

mutual

/-- The identifiers of a `use` tree. -/
def UseTree.idents : UseTree → List String
  | .path ident tree => ident :: tree.idents
  | .name ident => [ident]
  | .rename ident newName => [ident, newName]
  | .glob => []
  | .group trees => UseTree.identsAll trees

/-- The identifiers of several `use` trees. -/
def UseTree.identsAll : List UseTree → List String
  | [] => []
  | tree :: rest => tree.idents ++ UseTree.identsAll rest

end

mutual

/-- The identifiers under which an item declares types and modules and imports names. -/
def Item.idents : Item → List String
  | .struct head _ => [head.ident]
  | .enum head _ => [head.ident]
  | .typeAlias head _ => [head.ident]
  | .trait head _ => [head.ident]
  | .use tree => tree.idents
  | .module ident items => ident :: Item.identsAll items
  | .inBlocks items => Item.identsAll items
  | .impl _ _ _ _ => []
  | .function _ => []
  | .other => []

/-- The identifiers under which items declare types and modules and import names. -/
def Item.identsAll : List Item → List String
  | [] => []
  | item :: rest => item.idents ++ Item.identsAll rest

end

/-- An identifier carries the mark at most once. -/
def WellSpelled (ident : String) : Prop := ¬ IsRaw (unraw ident)

instance : DecidablePred WellSpelled := fun ident => inferInstanceAs (Decidable (¬ IsRaw (unraw ident)))

/-- The module of the file is not marked, and no identifier in it is marked twice. -/
structure File.WellSpelled (file : File) : Prop where
  module : file.module.Plain
  idents : ∀ ident ∈ Item.identsAll file.content.items, Source.WellSpelled ident

end Source

open Source

namespace Import

variable {before : List String}

/-- A leaf of plain names binds a plain name. -/
theorem plain_ofLeaf (hbefore : ∀ segment ∈ before, ¬ IsRaw segment) {ident : String} (hident : ¬ IsRaw ident)
    {rename : Option String} (hrename : ∀ name ∈ rename, ¬ IsRaw name) :
    ∀ binding ∈ ofLeaf before ident rename, ¬ IsRaw binding.localName := by
  intro binding hbinding
  unfold ofLeaf at hbinding
  dsimp only at hbinding
  split at hbinding
  · cases hbinding
  · next last hlast =>
    split at hbinding
    · cases hbinding
    · rw [List.mem_singleton.mp hbinding]
      cases rename with
      | some name => exact hrename name rfl
      | none =>
        have hmem := List.mem_of_getLast? hlast
        split at hmem
        · exact hbefore last hmem
        · rcases List.mem_append.mp hmem with hmem | hmem
          · exact hbefore last hmem
          · exact List.mem_singleton.mp hmem ▸ hident

mutual

/-- The imports of a `use` tree introduce no marked name. -/
theorem plain_ofTree (before : List String) (hbefore : ∀ segment ∈ before, ¬ IsRaw segment) (tree : UseTree)
    (h : ∀ ident ∈ tree.idents, WellSpelled ident) : ∀ binding ∈ ofTree before tree, ¬ IsRaw binding.localName := by
  match tree with
  | .path ident tree =>
    rw [UseTree.idents, List.forall_mem_cons] at h
    rw [ofTree_path]
    refine plain_ofTree _ (fun segment hsegment => ?_) tree h.2
    rcases List.mem_append.mp hsegment with hsegment | hsegment
    · exact hbefore segment hsegment
    · exact List.mem_singleton.mp hsegment ▸ h.1
  | .name ident =>
    exact plain_ofLeaf hbefore (h ident List.mem_cons_self) fun _ hname => by cases hname
  | .rename ident newName =>
    rw [UseTree.idents, List.forall_mem_cons, List.forall_mem_singleton] at h
    refine plain_ofLeaf hbefore h.1 fun name hname => ?_
    rw [← Option.some.inj hname]
    exact h.2
  | .glob =>
    intro binding hbinding
    rw [List.mem_singleton.mp hbinding]
    exact (by decide : ¬ IsRaw "*")
  | .group trees =>
    rw [UseTree.idents] at h
    rw [ofTree_group]
    exact plain_ofTrees before hbefore trees h

/-- Well-spelled trees bind plain names. -/
theorem plain_ofTrees (before : List String) (hbefore : ∀ segment ∈ before, ¬ IsRaw segment) (trees : List UseTree)
    (h : ∀ ident ∈ UseTree.identsAll trees, WellSpelled ident) :
    ∀ binding ∈ trees.flatMap (ofTree before), ¬ IsRaw binding.localName := by
  match trees with
  | [] =>
    intro binding hbinding
    cases hbinding
  | tree :: rest =>
    rw [UseTree.identsAll, List.forall_mem_append] at h
    rw [List.flatMap_cons, List.forall_mem_append]
    exact ⟨plain_ofTree before hbefore tree h.1, plain_ofTrees before hbefore rest h.2⟩

end

end Import

/-- What a table knows goes by names without marks. -/
structure Table.Plain (table : Table) : Prop where
  names : ∀ name ∈ table.names, name.Plain
  imports : ∀ module, ∀ binding ∈ table.imports module, ¬ IsRaw binding.localName

namespace Extraction

/-- An event declares and imports nothing under a marked name. -/
def Event.Plain : Event → Prop
  | .enter _ imports => ∀ binding ∈ imports, ¬ IsRaw binding.localName
  | .declare declaration => declaration.name.Plain
  | .consider _ _ _ _ _ => True

/-- A plain event keeps the table plain. -/
theorem plain_apply {state : Extraction} (h : state.table.Plain) {event : Event} (hevent : event.Plain) :
    (event.apply state).table.Plain := by
  cases event with
  | enter module imports =>
    refine ⟨h.names, fun other => ?_⟩
    rw [Event.apply, Table.imports_addImports, List.forall_mem_append]
    refine ⟨h.imports other, ?_⟩
    split
    · exact hevent
    · exact fun _ hbinding => absurd hbinding List.not_mem_nil
  | declare declaration =>
    rcases state.declare_cases declaration with ⟨-, hnew, -, htable⟩ | ⟨-, -, htable⟩
    · rw [Event.apply, htable]
      refine ⟨fun name hname => ?_, h.imports⟩
      rcases List.mem_cons.mp ((Table.names_including_perm hnew).mem_iff.mp hname) with rfl | hname
      · exact hevent
      · exact h.names name hname
    · rw [Event.apply, htable]
      exact h
  | consider source module subject docs owner =>
    rw [Event.apply, (consider_eq _ _ _ _ _ _).2]
    exact ⟨h.names, h.imports⟩

/-- The events of methods are plain. -/
theorem plain_methodEvents (source : String) (module : ModulePath) (owner : Owner) (methods : List FunctionSyntax) :
    ∀ event ∈ methodEvents source module owner methods, event.Plain := by
  intro event hevent
  obtain ⟨method, -, rfl⟩ := List.mem_map.mp hevent
  trivial

/-- A well-spelled module inside of a plain one is plain. -/
theorem plain_child {module : ModulePath} (h : module.Plain) {ident : String} (hident : WellSpelled ident) :
    (module.child (unraw ident)).Plain := by
  intro segment hsegment
  rcases List.mem_append.mp hsegment with hsegment | hsegment
  · exact h segment hsegment
  · exact List.mem_singleton.mp hsegment ▸ hident

mutual

/-- The events of a well-spelled item are plain. -/
theorem plain_eventsBy (source : String) (module : ModulePath) (hmodule : module.Plain) (item : Item)
    (h : ∀ ident ∈ item.idents, WellSpelled ident) : ∀ event ∈ eventsBy source module item, event.Plain := by
  match item with
  | .struct head _ | .enum head _ | .typeAlias head _ =>
    simp only [Item.idents, List.forall_mem_singleton] at h
    rw [eventsBy, List.forall_mem_singleton]
    exact ⟨hmodule, h⟩
  | .trait head methods =>
    rw [Item.idents, List.forall_mem_singleton] at h
    rw [eventsBy, List.forall_mem_append, List.forall_mem_singleton]
    exact ⟨plain_methodEvents _ _ _ _, hmodule, h⟩
  | .impl ofTrait selfType attributes methods =>
    have hevents : eventsBy source module (.impl ofTrait selfType attributes methods) = [] ∨
        ∃ owner kept, eventsBy source module (.impl ofTrait selfType attributes methods) =
          methodEvents source module owner kept := by
      cases ofTrait <;> cases selfType <;> simp [eventsBy]
    rcases hevents with hevents | ⟨owner, kept, hevents⟩
    · rw [hevents]
      exact fun _ hevent => absurd hevent List.not_mem_nil
    · rw [hevents]
      exact plain_methodEvents source module owner kept
  | .function function =>
    rw [eventsBy, List.forall_mem_singleton]
    trivial
  | .use tree =>
    rw [Item.idents] at h
    rw [eventsBy, List.forall_mem_singleton]
    exact Import.plain_ofTree [] (fun _ hsegment => absurd hsegment List.not_mem_nil) tree h
  | .module ident items =>
    rw [Item.idents, List.forall_mem_cons] at h
    rw [eventsBy, List.forall_mem_cons]
    exact ⟨fun _ hbinding => absurd hbinding List.not_mem_nil,
      plain_eventsByAll source _ (plain_child hmodule h.1) items h.2⟩
  | .inBlocks items =>
    rw [Item.idents] at h
    rw [eventsBy]
    exact plain_eventsByAll source module hmodule items h
  | .other => exact fun _ hevent => absurd hevent List.not_mem_nil

/-- The events of well-spelled items are plain. -/
theorem plain_eventsByAll (source : String) (module : ModulePath) (hmodule : module.Plain) (items : List Item)
    (h : ∀ ident ∈ Item.identsAll items, WellSpelled ident) :
    ∀ event ∈ eventsByAll source module items, event.Plain := by
  match items with
  | [] => exact fun _ hevent => absurd hevent List.not_mem_nil
  | item :: rest =>
    rw [Item.identsAll, List.forall_mem_append] at h
    rw [eventsByAll, List.forall_mem_append]
    exact ⟨plain_eventsBy source module hmodule item h.1, plain_eventsByAll source module hmodule rest h.2⟩

end

/-- A file loses its marks when it is read. -/
theorem plain_events {file : File} (h : file.WellSpelled) : ∀ event ∈ events file, event.Plain := by
  rw [events, List.forall_mem_cons]
  exact ⟨fun _ hbinding => absurd hbinding List.not_mem_nil, plain_eventsByAll _ _ h.module _ h.idents⟩

/-- The table of well-spelled files is plain. -/
theorem plain_ofFiles {files : List File} (h : ∀ file ∈ files, file.WellSpelled) : (ofFiles files).table.Plain := by
  refine ofFiles_keeps (fun file hfile event hevent state hstate => ?_) ⟨?_, ?_⟩
  · exact plain_apply hstate (plain_events (h file hfile) event hevent)
  · exact fun _ hname => absurd hname List.not_mem_nil
  · exact fun _ _ hbinding => absurd hbinding List.not_mem_nil

end Extraction

namespace Table

variable {table : Table} {scope module : ModulePath} {qualifier : List String} {segment : String}

/-- A segment other than `super` is in the module that it leads to. -/
theorem mem_of_climb (h : climb scope qualifier = some module) (hsegment : segment ∈ qualifier)
    (hne : segment ≠ "super") : segment ∈ module.segments := by
  induction qualifier generalizing scope with
  | nil => cases hsegment
  | cons first rest ih =>
    unfold climb at h
    split at h
    · next hsuper =>
      obtain ⟨parent, -, hrest⟩ := Option.bind_eq_some_iff.mp h
      exact ih hrest ((List.mem_cons.mp hsegment).resolve_left (hsuper ▸ hne))
    · cases h
      exact List.mem_append_right _ hsegment

/-- A marked segment of a qualifier is still there in the module that the qualifier names, because nothing
but a name without mark is ever replaced. -/
theorem Plain.mem_of_moduleOf? (h : table.Plain) (hmodule : table.moduleOf? scope qualifier = some module)
    (hsegment : segment ∈ qualifier) (hraw : IsRaw segment) : segment ∈ module.segments := by
  have hne {other : String} (hother : ¬ IsRaw other) : segment ≠ other := by
    rintro rfl
    exact hother hraw
  unfold moduleOf? at hmodule
  cases qualifier with
  | nil => cases hsegment
  | cons first rest =>
    have hrest (hfirst : ¬ IsRaw first) : segment ∈ rest := (List.mem_cons.mp hsegment).resolve_left (hne hfirst)
    unfold moduleWithin at hmodule
    split at hmodule
    · next hcrate =>
      cases hmodule
      exact List.mem_append_right _ (hrest (hcrate ▸ by decide))
    · split at hmodule
      · next hself =>
        cases hmodule
        exact List.mem_append_right _ (hrest (hself ▸ by decide))
      · split at hmodule
        · exact mem_of_climb hmodule hsegment (hne (by decide))
        · split at hmodule
          · next _ binding _ hbinding =>
            obtain ⟨base, -, rfl⟩ := Option.map_eq_some_iff.mp hmodule
            have hlocal : binding.localName = first := by
              have hfound := List.find?_some hbinding
              simp only [Bool.and_eq_true, decide_eq_true_eq] at hfound
              exact hfound.2
            have hplain := h.imports scope binding (List.mem_of_find?_eq_some hbinding)
            exact List.mem_append_right _ (hrest (hlocal ▸ hplain))
          · cases hmodule
            unfold moduleByPosition
            split
            · rw [ModulePath.join, ModulePath.child, List.append_assoc]
              exact List.mem_append_right _ hsegment
            · exact hsegment

/-- A marked name is not found as the local name of a declaration. -/
theorem Plain.findUnique?_of_isRaw (h : table.Plain) {name : String} (hraw : IsRaw name) :
    table.findUnique? name = none := by
  have hnone : table.withLocalName name = [] := by
    refine List.filter_eq_nil_iff.mpr fun other hother heq => ?_
    exact (h.names other hother).2 (of_decide_eq_true heq ▸ hraw)
  rw [findUnique?, hnone]

end Table

namespace Resolver

/-- What a resolver knows, now and after further requests, goes by names without marks. -/
structure Plain (resolver : Resolver) : Prop where
  table : resolver.table.Plain
  loader : ∀ module file, resolver.loader.find? module = some (.ok file) → file.WellSpelled

/-- Loading keeps a resolver plain. -/
theorem Plain.ensureModule {resolver : Resolver} (h : resolver.Plain) (module : ModulePath) :
    (resolver.ensureModule module).Plain := by
  obtain ⟨hloader, htable⟩ := resolver.ensureModule_cases module
  refine ⟨?_, by rw [hloader]; exact h.loader⟩
  rcases htable with htable | ⟨file, hfile, htable⟩
  · rw [htable]
    exact h.table
  · rw [htable]
    refine Extraction.foldl_keeps (fun event hevent state hstate => ?_) h.table
    exact Extraction.plain_apply hstate (Extraction.plain_events (h.loader module file hfile) event hevent)

/-- Nothing is declared in a plain resolver under a name that is not plain. -/
theorem Plain.not_contains {resolver : Resolver} (h : resolver.Plain) {name : QualifiedName}
    (hname : ¬ name.Plain) : resolver.table.contains name = false := by
  rw [Bool.eq_false_iff]
  exact fun hcontains => hname (h.table.names name ((Table.contains_iff_mem_names _ _).mp hcontains))

/-- A marked name is not declared. -/
theorem declared_gives_none {name : QualifiedName} (hname : ¬ name.Plain) : Gives Plain (declared name) none := by
  intro resolver h
  have hrequested := h.ensureModule name.module
  rw [declared_run_of_not_contains (h.not_contains hname), hrequested.not_contains hname]
  exact ⟨rfl, hrequested⟩

section Paths

variable {scope : ModulePath}

/-- Imports that lead to names that are not plain find nothing. -/
theorem firstDeclared_gives_none {designates : Import → Option (List String × String)} {imports : List Import}
    (htargets : ∀ binding ∈ imports, ∀ resolver : Resolver, resolver.Plain →
      ∀ name, resolver.table.target? scope designates binding = some name → ¬ name.Plain) :
    Gives Plain (firstDeclared scope designates imports) none := by
  induction imports with
  | nil => exact gives_pure none
  | cons binding rest ih =>
    rw [List.forall_mem_cons] at htargets
    intro resolver h
    rw [firstDeclared_cons_run]
    cases htarget : resolver.table.target? scope designates binding with
    | none => exact ih htargets.2 resolver h
    | some name =>
      obtain ⟨hnone, hlast⟩ := declared_gives_none (htargets.1 resolver h name htarget) resolver h
      dsimp only
      rcases hrun : (declared name).run resolver with ⟨found, last⟩
      rw [hrun] at hnone hlast
      cases hnone
      exact ih htargets.2 last hlast

/-- No import by name is for a marked one. -/
theorem target?_named_of_isRaw {name : String} (hraw : IsRaw name) {binding : Import}
    (hbinding : ¬ IsRaw binding.localName) (table : Table) :
    table.target? scope (namedTarget name) binding = none := by
  have hne : binding.localName ≠ name := by
    rintro rfl
    exact hbinding hraw
  simp [Table.target?, namedTarget, hne]

/-- A glob designates the name itself. -/
theorem name_of_target?_glob {name : String} {binding : Import} {table : Table} {found : QualifiedName}
    (h : table.target? scope (globTarget name) binding = some found) : found.name = name := by
  obtain ⟨target, htarget, h⟩ := Option.bind_eq_some_iff.mp h
  obtain ⟨module, -, rfl⟩ := Option.map_eq_some_iff.mp h
  unfold globTarget at htarget
  split at htarget
  · cases htarget
    rfl
  · cases htarget

/-- A marked name is not found in any scope. -/
theorem lookup_bare_gives_none {name : String} (hraw : IsRaw name) (scope : ModulePath) :
    Gives Plain (lookup [name] scope) none := by
  intro resolver h
  have hlocal : resolver.table.contains ⟨scope, name⟩ = false := h.not_contains fun hplain => hplain.2 hraw
  have hnamed : Gives Plain (firstDeclared scope (namedTarget name) (resolver.table.imports scope)) none := by
    refine firstDeclared_gives_none fun binding hbinding other _ found htarget => ?_
    rw [target?_named_of_isRaw hraw (h.table.imports scope binding hbinding)] at htarget
    cases htarget
  obtain ⟨hnone, hmiddle⟩ := hnamed resolver h
  rw [lookup_run_bare hlocal]
  rcases hrun : (firstDeclared scope (namedTarget name) (resolver.table.imports scope)).run resolver with
    ⟨found, middle⟩
  rw [hrun] at hnone hmiddle
  cases hnone
  refine firstDeclared_gives_none (fun binding _ other _ found htarget hplain => ?_) middle hmiddle
  exact hplain.2 (name_of_target?_glob htarget ▸ hraw)

/-- A path with a marked segment leads nowhere. -/
theorem lookup_gives_none {segments : List String} {segment : String} (hsegment : segment ∈ segments)
    (hraw : IsRaw segment) (scope : ModulePath) : Gives Plain (lookup segments scope) none := by
  obtain ⟨qualifier, name, rfl⟩ := (List.eq_nil_or_concat' segments).resolve_left (List.ne_nil_of_mem hsegment)
  by_cases hqualifier : qualifier = []
  · subst hqualifier
    rw [List.nil_append, List.mem_singleton] at hsegment
    exact lookup_bare_gives_none (hsegment ▸ hraw) scope
  · intro resolver h
    rw [lookup_run_qualified hqualifier, Table.designated_qualified _ hqualifier]
    cases hmodule : resolver.table.moduleOf? scope qualifier with
    | none => exact ⟨rfl, h⟩
    | some module =>
      have hname : ¬ QualifiedName.Plain ⟨module, name⟩ := by
        rintro ⟨hplain, hlast⟩
        rcases List.mem_append.mp hsegment with hsegment | hsegment
        · exact hplain segment (h.table.mem_of_moduleOf? hmodule hsegment hraw) hraw
        · exact hlast (List.mem_singleton.mp hsegment ▸ hraw)
      obtain ⟨hnone, hlast⟩ := declared_gives_none hname resolver h
      rw [Option.toList_some, List.map_singleton, consult_cons_run]
      rcases hrun : (declared ⟨module, name⟩).run resolver with ⟨found, last⟩
      rw [hrun] at hnone hlast
      cases hnone
      exact ⟨rfl, hlast⟩

end Paths

end Resolver

end ApiScribe
