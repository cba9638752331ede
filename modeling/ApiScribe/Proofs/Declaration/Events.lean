import ApiScribe.Declaration.Extraction
import ApiScribe.Proofs.SortedEntries

/-!
# Extraction as a sequence of events

Items hold items, and a file is visited through all of them. What the visit does is a plain sequence of
events in reading order: a module is entered with imports, a type is declared, a function is considered.
Modules, imports and candidates are gathered from all events, whether or not a declaration is repeated;
declarations only ever add to the table.
-/

namespace ApiScribe

open Source

/-- Qualified names compare as equal exactly when they are. -/
theorem QualifiedName.compare_eq_iff (a b : QualifiedName) : compare a b = .eq ↔ a = b := by
  have hmodule : ModulePath.compare a.module b.module = .eq ↔ a.module = b.module := by
    rw [ModulePath.compare, Text.compareLists_eq_iff Text.compareText_eq_iff]
    cases a.module
    cases b.module
    simp
  obtain ⟨module, name⟩ := a
  obtain ⟨module', name'⟩ := b
  rw [QualifiedName.mk.injEq, ← hmodule, ← Text.compareText_eq_iff]
  unfold compare
  split <;> simp_all

instance : Std.TransCmp QualifiedName.compare := by
  have hmodule : Std.TransCmp ModulePath.compare := Text.transCmp_comap ModulePath.segments
  have hmodules : Std.TransCmp fun a b : QualifiedName => ModulePath.compare a.module b.module :=
    Text.transCmp_comap QualifiedName.module
  have hnames : Std.TransCmp fun a b : QualifiedName => Text.compareText a.name b.name :=
    Text.transCmp_comap QualifiedName.name
  have heq : QualifiedName.compare =
      compareLex (fun a b => ModulePath.compare a.module b.module)
        (fun a b => Text.compareText a.name b.name) := by
    funext a b
    unfold QualifiedName.compare compareLex
    dsimp only
    cases ModulePath.compare a.module b.module <;> rfl
  rw [heq]
  infer_instance

namespace Table

/-- A name is declared exactly when it is among the declared names. -/
theorem contains_iff_mem_names (table : Table) (name : QualifiedName) :
    table.contains name = true ↔ name ∈ table.names := by
  simp [contains, get?, names]

/-- Nothing is found exactly if the name is not in the table. -/
theorem get?_eq_none_iff (table : Table) (name : QualifiedName) :
    table.get? name = none ↔ name ∉ table.names := by
  rw [← contains_iff_mem_names, contains, Bool.not_eq_true, Option.isSome_eq_false_iff,
    Option.isNone_iff_eq_none]

/-- The table with a declaration in its place. -/
def including (table : Table) (declaration : Declaration) : Table :=
  { table with
    declarations :=
      Text.insertSorted QualifiedName.compare declaration.name declaration table.declarations }

/-- A new declaration adds its name. -/
theorem names_including_perm {table : Table} {declaration : Declaration}
    (hnew : table.get? declaration.name = none) :
    (table.including declaration).names.Perm (declaration.name :: table.names) :=
  (Text.insertSorted_perm (fun a b => (QualifiedName.compare_eq_iff a b).mp) declaration
    ((get?_eq_none_iff table declaration.name).mp hnew)).map Prod.fst

/-- A declaration that is there stays when another one is added. -/
theorem get?_including_of_some {table : Table} {declaration known : Declaration} {name : QualifiedName}
    (hnew : table.get? declaration.name = none) (h : table.get? name = some known) :
    (table.including declaration).get? name = some known := by
  have hne : declaration.name ≠ name := by
    rintro rfl
    rw [hnew] at h
    cases h
  unfold get? including
  rw [Text.find?_insertSorted_of_ne (fun a b => (QualifiedName.compare_eq_iff a b).mp) declaration hne]
  exact h

/-- The imports of a module after imports were added to one. -/
theorem imports_addImports (table : Table) (module other : ModulePath) (imports : List Import) :
    (table.addImports module imports).imports other =
      table.imports other ++ if module = other then imports else [] := by
  have hfind (scopes : List (ModulePath × List Import)) :
      (((addToScopes module imports scopes).find? fun entry => entry.1 = other).map Prod.snd).getD [] =
        ((scopes.find? fun entry => entry.1 = other).map Prod.snd).getD [] ++
          if module = other then imports else [] := by
    induction scopes with
    | nil => by_cases h : module = other <;> simp [addToScopes, h]
    | cons scope rest ih =>
      by_cases hscope : scope.1 = module <;> by_cases hother : scope.1 = other <;>
        grind [addToScopes]
  exact hfind table.scopes

/-- Adding imports to a module makes no other module known. -/
theorem hasModule_addImports (table : Table) (module other : ModulePath) (imports : List Import) :
    (table.addImports module imports).hasModule other = (table.hasModule other || module = other) := by
  have hany (scopes : List (ModulePath × List Import)) :
      ((addToScopes module imports scopes).any fun entry => entry.1 = other) =
        ((scopes.any fun entry => entry.1 = other) || module = other) := by
    induction scopes with
    | nil => simp [addToScopes]
    | cons scope rest ih => grind [addToScopes]
  exact hany table.scopes

end Table

namespace Extraction

/-- What visiting an item does. -/
inductive Event where
  /-- Enter a module, which gets imports. -/
  | enter (module : ModulePath) (imports : List Import)
  | declare (declaration : Declaration)
  /-- Consider a function with its subject, comment and owner. -/
  | consider (source : String) (module : ModulePath) (subject : String) (docs : List String)
      (owner : Option Owner)

namespace Event

/-- The effect of an event. -/
def apply (state : Extraction) : Event → Extraction
  | .enter module imports => { state with table := state.table.addImports module imports }
  | .declare declaration => state.declare declaration
  | .consider source module subject docs owner => state.consider source module subject docs owner

/-- The module that an event enters, with its imports. -/
def scope? : Event → Option (ModulePath × List Import)
  | .enter module imports => some (module, imports)
  | _ => none

/-- The declaration of an event. -/
def declaration? : Event → Option Declaration
  | .declare declaration => some declaration
  | _ => none

/-- The candidate of an event, if the comment carries directives. -/
def candidate? : Event → Option Candidate
  | .consider source module subject docs owner =>
    if Comment.hasDirective docs then some ⟨subject, module, docs, owner, source⟩ else none
  | _ => none

end Event

/-- The events of an owner's methods. -/
def methodEvents (source : String) (module : ModulePath) (owner : Owner) (methods : List FunctionSyntax) :
    List Event :=
  methods.map fun method =>
    .consider source module (owner.name ++ "::" ++ unraw method.ident) (docLines method.attributes) (some owner)

mutual

/-- The events of an item, in reading order. -/
def eventsBy (source : String) (module : ModulePath) : Item → List Event
  | .struct head fields => [.declare (declarationOf source module head (structShape fields))]
  | .enum head variants => [.declare (declarationOf source module head (.enum (variants.map variantOf)))]
  | .typeAlias head target => [.declare (declarationOf source module head (.typeAlias target))]
  | .trait head methods =>
    methodEvents source module ⟨unraw head.ident, docLines head.attributes⟩ methods ++
      [.declare (declarationOf source module head (.interface (methods.map fun method =>
        ⟨unraw method.ident, docLines method.attributes⟩)))]
  | .impl false (.path _ _ ident _) attributes methods =>
    methodEvents source module ⟨unraw ident, docLines attributes⟩
      (methods.filter fun method => !(docLines method.attributes).isEmpty)
  | .impl _ _ _ _ => []
  | .function function =>
    [.consider source module (unraw function.ident) (docLines function.attributes) none]
  | .use tree => [.enter module (Import.ofTree [] tree)]
  | .module ident items =>
    .enter (module.child (unraw ident)) [] :: eventsByAll source (module.child (unraw ident)) items
  | .inBlocks items => eventsByAll source module items
  | .other => []

/-- The events of items, in reading order. -/
def eventsByAll (source : String) (module : ModulePath) : List Item → List Event
  | [] => []
  | item :: rest => eventsBy source module item ++ eventsByAll source module rest

end

/-- The events of a file. -/
def events (file : File) : List Event :=
  .enter file.module [] :: eventsByAll file.path file.module file.content.items

/-- Methods are considered by applying their events. -/
theorem considerMethods_eq_foldl (source : String) (module : ModulePath) (owner : Owner)
    (methods : List FunctionSyntax) (state : Extraction) :
    considerMethods source module owner methods state =
      (methodEvents source module owner methods).foldl Event.apply state := by
  rw [methodEvents, List.foldl_map]
  rfl

mutual

/-- Visiting an item runs through its events. -/
theorem visit_eq_foldl (source : String) (module : ModulePath) (state : Extraction) (item : Item) :
    visit source module state item = (eventsBy source module item).foldl Event.apply state := by
  match item with
  | .struct _ _ | .enum _ _ | .typeAlias _ _ | .function _ | .use _ | .other => simp [visit, eventsBy, Event.apply]
  | .trait head methods =>
    simp only [visit, eventsBy, considerMethods_eq_foldl, List.foldl_append]
    rfl
  | .impl ofTrait selfType attributes methods =>
    cases ofTrait <;> cases selfType <;> simp [visit, eventsBy, considerMethods_eq_foldl]
  | .module ident items =>
    rw [visit, eventsBy, List.foldl_cons]
    exact visitAll_eq_foldl source _ _ items
  | .inBlocks items =>
    rw [visit, eventsBy]
    exact visitAll_eq_foldl source module state items

/-- Visiting items runs through their events. -/
theorem visitAll_eq_foldl (source : String) (module : ModulePath) (state : Extraction) (items : List Item) :
    visitAll source module state items = (eventsByAll source module items).foldl Event.apply state := by
  match items with
  | [] => simp [visitAll, eventsByAll]
  | item :: rest =>
    rw [visitAll, eventsByAll, List.foldl_append, visit_eq_foldl source module state item]
    exact visitAll_eq_foldl source module _ rest

end

/-- Visiting a file runs through its events. -/
theorem addFile_eq_foldl (state : Extraction) (file : File) :
    state.addFile file = (events file).foldl Event.apply state :=
  visitAll_eq_foldl file.path file.module _ file.content.items

/-- Declaring a type adds it to the table, unless a declaration is repeated. -/
theorem declare_cases (state : Extraction) (declaration : Declaration) :
    (state.failure = none ∧ state.table.get? declaration.name = none ∧
      (state.declare declaration).failure = none ∧
      (state.declare declaration).table = state.table.including declaration) ∨
    ((state.failure ≠ none ∨ state.table.get? declaration.name ≠ none) ∧
      (state.declare declaration).failure ≠ none ∧ (state.declare declaration).table = state.table) := by
  cases hfailure : state.failure with
  | some failure =>
    have hsame : state.declare declaration = state := by simp [declare, hfailure]
    rw [hsame, hfailure]
    exact .inr ⟨.inl (Option.some_ne_none _), Option.some_ne_none _, rfl⟩
  | none =>
    -- A missing comment is reported first, which changes neither the table nor the failure.
    cases hget : state.table.get? declaration.name with
    | some existing =>
      refine .inr ⟨.inr (Option.some_ne_none _), ?_⟩
      by_cases hdocs : declaration.docs.isEmpty <;>
        simp [declare, hfailure, hdocs, report, Table.insert, hget]
    | none =>
      refine .inl ⟨rfl, rfl, ?_⟩
      by_cases hdocs : declaration.docs.isEmpty <;>
        simp [declare, hfailure, hdocs, report, Table.insert, hget, Table.including]

/-- Considering a function can only add it to the candidates. -/
theorem consider_eq (state : Extraction) (source : String) (module : ModulePath) (subject : String)
    (docs : List String) (owner : Option Owner) :
    (state.consider source module subject docs owner).failure = state.failure ∧
      (state.consider source module subject docs owner).table =
        { state.table with
          candidates := state.table.candidates ++
            (Event.consider source module subject docs owner).candidate?.toList } := by
  by_cases hdocs : Comment.hasDirective docs
  · simp [consider, Event.candidate?, hdocs, Table.addCandidate]
  · rw [consider, if_neg hdocs, Event.candidate?, if_neg hdocs, Option.toList_none, List.append_nil]
    split <;> exact ⟨rfl, rfl⟩

section Gathered

variable (state : Extraction) (events : List Event)

/-- A module has the imports of all events that enter it. -/
theorem imports_foldl (module : ModulePath) :
    (events.foldl Event.apply state).table.imports module =
      state.table.imports module ++
        (events.filterMap Event.scope?).flatMap fun scope => if scope.1 = module then scope.2 else [] := by
  induction events generalizing state with
  | nil => simp
  | cons event rest ih =>
    rw [List.foldl_cons, ih]
    cases event with
    | enter entered imports => simp [Event.apply, Event.scope?, Table.imports_addImports]
    | declare declaration =>
      rcases state.declare_cases declaration with ⟨-, -, -, htable⟩ | ⟨-, -, htable⟩ <;>
        simp [List.filterMap_cons, Event.apply, Event.scope?, htable, Table.imports, Table.including]
    | consider source considered subject docs owner =>
      simp [List.filterMap_cons, Event.apply, Event.scope?, consider_eq, Table.imports]

/-- A module is known once an event enters it. -/
theorem hasModule_foldl (module : ModulePath) :
    (events.foldl Event.apply state).table.hasModule module =
      (state.table.hasModule module || (events.filterMap Event.scope?).any fun scope => scope.1 = module) := by
  induction events generalizing state with
  | nil => simp
  | cons event rest ih =>
    rw [List.foldl_cons, ih]
    cases event with
    | enter entered imports => simp [Event.apply, Event.scope?, Table.hasModule_addImports, Bool.or_assoc]
    | declare declaration =>
      rcases state.declare_cases declaration with ⟨-, -, -, htable⟩ | ⟨-, -, htable⟩ <;>
        simp [List.filterMap_cons, Event.apply, Event.scope?, htable, Table.hasModule, Table.including]
    | consider source considered subject docs owner =>
      simp [List.filterMap_cons, Event.apply, Event.scope?, consider_eq, Table.hasModule]

/-- The candidates of all events are gathered in order. -/
theorem candidates_foldl :
    (events.foldl Event.apply state).table.candidates =
      state.table.candidates ++ events.filterMap Event.candidate? := by
  induction events generalizing state with
  | nil => simp
  | cons event rest ih =>
    rw [List.foldl_cons, ih]
    cases event with
    | enter entered imports => rfl
    | declare declaration =>
      rcases state.declare_cases declaration with ⟨-, -, -, htable⟩ | ⟨-, -, htable⟩ <;>
        simp [List.filterMap_cons, Event.apply, Event.candidate?, htable, Table.including]
    | consider source considered subject docs owner =>
      rw [Event.apply, (consider_eq _ _ _ _ _ _).2, List.append_assoc, List.filterMap_cons]
      cases (Event.consider source considered subject docs owner).candidate? <;> rfl

end Gathered

/-- What every event keeps holds after all of them. -/
theorem foldl_keeps {holds : Table → Prop} {events : List Event}
    (hevents : ∀ event ∈ events, ∀ state : Extraction, holds state.table → holds (event.apply state).table)
    {state : Extraction} (h : holds state.table) : holds (events.foldl Event.apply state).table := by
  induction events generalizing state with
  | nil => exact h
  | cons event rest ih =>
    rw [List.forall_mem_cons] at hevents
    exact ih hevents.2 (hevents.1 state h)

/-- What every event of some files keeps holds of their table, if it holds of the empty one. -/
theorem ofFiles_keeps {holds : Table → Prop} {files : List File}
    (hevents : ∀ file ∈ files, ∀ event ∈ events file, ∀ state : Extraction,
      holds state.table → holds (event.apply state).table)
    (h : holds {}) : holds (ofFiles files).table := by
  have hfiles (state : Extraction) (h : holds state.table) :
      holds (files.foldl (fun state file => if state.failure.isSome then state else state.addFile file)
        state).table := by
    induction files generalizing state with
    | nil => exact h
    | cons file rest ih =>
      rw [List.forall_mem_cons] at hevents
      refine ih hevents.2 _ ?_
      dsimp only
      split
      · exact h
      · rw [addFile_eq_foldl]
        exact foldl_keeps hevents.1 h
  exact hfiles {} h

/-- What is declared stays declared. -/
theorem get?_foldl {state : Extraction} {name : QualifiedName} {known : Declaration}
    (h : state.table.get? name = some known) (events : List Event) :
    (events.foldl Event.apply state).table.get? name = some known := by
  induction events generalizing state with
  | nil => exact h
  | cons event rest ih =>
    refine ih ?_
    cases event with
    | enter module imports => exact h
    | declare declaration =>
      rcases state.declare_cases declaration with ⟨-, hnew, -, htable⟩ | ⟨-, -, htable⟩
      · rw [Event.apply, htable]
        exact Table.get?_including_of_some hnew h
      · rw [Event.apply, htable]
        exact h
    | consider source module subject docs owner =>
      rw [Event.apply, (consider_eq _ _ _ _ _ _).2]
      exact h

/-- Events declare no name but those of their declarations. -/
theorem mem_names_of_foldl {state : Extraction} {events : List Event} {name : QualifiedName}
    (h : name ∈ (events.foldl Event.apply state).table.names) :
    name ∈ (events.filterMap Event.declaration?).map Declaration.name ∨ name ∈ state.table.names := by
  induction events generalizing state with
  | nil => exact .inr h
  | cons event rest ih =>
    rcases ih h with hrest | hfirst
    · exact .inl (List.map_subset _ ((List.sublist_cons_self event rest).filterMap _).subset hrest)
    · cases event with
      | enter module imports => exact .inr hfirst
      | declare declaration =>
        rcases state.declare_cases declaration with ⟨-, hnew, -, htable⟩ | ⟨-, -, htable⟩
        · rw [Event.apply, htable, (Table.names_including_perm hnew).mem_iff, List.mem_cons] at hfirst
          rcases hfirst with rfl | hfirst
          · exact .inl List.mem_cons_self
          · exact .inr hfirst
        · rw [Event.apply, htable] at hfirst
          exact .inr hfirst
      | consider source module subject docs owner =>
        rw [Event.apply, (consider_eq _ _ _ _ _ _).2] at hfirst
        exact .inr hfirst

mutual

/-- The names that an item is known to declare are those of its events. -/
theorem declaredBy_eq (source : String) (module : ModulePath) (item : Item) :
    declaredBy module item =
      ((eventsBy source module item).filterMap Event.declaration?).map Declaration.name := by
  have hmethods (owner : Owner) (methods : List FunctionSyntax) :
      (methodEvents source module owner methods).filterMap Event.declaration? = [] := by
    rw [methodEvents, List.filterMap_map]
    exact List.filterMap_eq_nil_iff.mpr fun _ _ => rfl
  match item with
  | .struct _ _ | .enum _ _ | .typeAlias _ _ | .function _ | .use _ | .other =>
    simp [declaredBy, eventsBy, Event.declaration?, declarationOf]
  | .trait head methods =>
    simp [declaredBy, eventsBy, hmethods, Event.declaration?, declarationOf]
  | .impl ofTrait selfType attributes methods =>
    cases ofTrait <;> cases selfType <;> simp [declaredBy, eventsBy, hmethods]
  | .module ident items =>
    rw [declaredBy, eventsBy, declaredByAll_eq source _ items]
    rfl
  | .inBlocks items =>
    rw [declaredBy, eventsBy]
    exact declaredByAll_eq source module items

/-- The names that items are known to declare are those of their events. -/
theorem declaredByAll_eq (source : String) (module : ModulePath) (items : List Item) :
    declaredByAll module items =
      ((eventsByAll source module items).filterMap Event.declaration?).map Declaration.name := by
  match items with
  | [] => simp [declaredByAll, eventsByAll]
  | item :: rest =>
    rw [declaredByAll, eventsByAll, List.filterMap_append, List.map_append, declaredBy_eq source module item,
      declaredByAll_eq source module rest]

end

/-- The names that a file declares are those of its events. -/
theorem declaredIn_eq (file : File) :
    declaredIn file = ((events file).filterMap Event.declaration?).map Declaration.name :=
  declaredByAll_eq file.path file.module file.content.items

end Extraction

end ApiScribe
