import ApiScribe.Generate
import ApiScribe.Proofs.Declaration.FileOrder

/-!
# Repeated declarations

Declarations are added one after another up to the first that repeats a name. That one is the failure of the
run, which names both files; whatever is declared after it is left out. Without a repeated name everything is
added, each declaration under its own name. Imports and candidates have no part in this.
-/

namespace ApiScribe

open Source

namespace Table

/-- A declaration is found once it is added, and the others stay. -/
theorem get?_including (table : Table) (declaration : Declaration) (name : QualifiedName) :
    (table.including declaration).get? name =
      if declaration.name = name then some declaration else table.get? name := by
  unfold get? including
  by_cases h : declaration.name = name
  · rw [if_pos h, ← h, Text.find?_insertSorted_self QualifiedName.compare_eq_iff]
    rfl
  · rw [if_neg h, Text.find?_insertSorted_of_ne (fun a b => (QualifiedName.compare_eq_iff a b).mp) declaration h]

/-- A new declaration is one more. -/
theorem size_including {table : Table} {declaration : Declaration} (h : table.get? declaration.name = none) :
    (table.including declaration).size = table.size + 1 := by
  have hlength := (names_including_perm h).length_eq
  rw [names, List.length_map, List.length_cons, names, List.length_map] at hlength
  exact hlength

/-- Declarations that can all be added to a table: their names are new and distinct. -/
structure Admits (table : Table) (declarations : List Declaration) : Prop where
  distinct : (declarations.map Declaration.name).Nodup
  new : ∀ declaration ∈ declarations, table.get? declaration.name = none

namespace Admits

variable {table : Table} {declaration : Declaration} {rest : List Declaration}

/-- Nothing more is always admitted. -/
theorem nil (table : Table) : table.Admits [] := ⟨List.nodup_nil, fun _ h => nomatch h⟩

/-- Declarations can be added together exactly if the first can be and then the others. -/
theorem cons_iff : table.Admits (declaration :: rest) ↔
    table.get? declaration.name = none ∧ (table.including declaration).Admits rest := by
  constructor
  · intro h
    obtain ⟨hnew, hrest⟩ := List.forall_mem_cons.mp h.new
    have hdistinct := List.nodup_cons.mp h.distinct
    refine ⟨hnew, hdistinct.2, fun other hother => ?_⟩
    have hne : declaration.name ≠ other.name := fun hname =>
      hdistinct.1 (hname ▸ List.mem_map_of_mem hother)
    rw [get?_including, if_neg hne]
    exact hrest other hother
  · rintro ⟨hnew, h⟩
    have hrest : ∀ other ∈ rest, declaration.name ≠ other.name ∧ table.get? other.name = none := by
      intro other hother
      have hother' := h.new other hother
      rw [get?_including] at hother'
      split at hother'
      · cases hother'
      · next hne => exact ⟨hne, hother'⟩
    refine ⟨List.nodup_cons.mpr ⟨fun hmem => ?_, h.distinct⟩,
      List.forall_mem_cons.mpr ⟨hnew, fun other hother => (hrest other hother).2⟩⟩
    obtain ⟨other, hother, hname⟩ := List.mem_map.mp hmem
    exact (hrest other hother).1 hname.symm

/-- Each of the declarations that can be added counts once. -/
theorem size_foldl {declarations : List Declaration} (h : table.Admits declarations) :
    (declarations.foldl including table).size = table.size + declarations.length := by
  induction declarations generalizing table with
  | nil => rfl
  | cons declaration rest ih =>
    obtain ⟨hnew, hrest⟩ := cons_iff.mp h
    rw [List.foldl_cons, ih hrest, size_including hnew, List.length_cons]
    omega

end Admits

end Table

namespace Extraction

/-- The types and traits that a file declares, in the order in which they are visited. -/
def declarationsIn (file : File) : List Declaration := (events file).filterMap Event.declaration?

/-- The types and traits that files declare, in the order in which they are visited. -/
def visited (files : List File) : List Declaration := files.flatMap declarationsIn

/-- What is visited are the declarations of the events. -/
theorem visited_eq (files : List File) : visited files = (eventsOf files).filterMap Event.declaration? := by
  rw [eventsOf, List.filterMap_flatMap]
  rfl

mutual

/-- What an item declares has the file of the item as its source. -/
theorem source_of_mem_eventsBy {source : String} {module : ModulePath} {item : Item} {declaration : Declaration}
    (h : .declare declaration ∈ eventsBy source module item) : declaration.source = source := by
  have hmethods (owner : Owner) (methods : List FunctionSyntax) :
      .declare declaration ∉ methodEvents source module owner methods := by
    intro hmem
    obtain ⟨method, -, hmethod⟩ := List.mem_map.mp hmem
    cases hmethod
  match item with
  | .struct _ _ | .enum _ _ | .typeAlias _ _ =>
    rw [eventsBy, List.mem_singleton] at h
    exact Event.declare.inj h ▸ rfl
  | .function _ | .use _ | .other => simp [eventsBy] at h
  | .trait head methods =>
    rw [eventsBy, List.mem_append, List.mem_singleton] at h
    exact Event.declare.inj (h.resolve_left (hmethods _ _)) ▸ rfl
  | .impl ofTrait selfType attributes methods =>
    cases ofTrait <;> cases selfType <;> simp [eventsBy, hmethods] at h
  | .module ident items =>
    rw [eventsBy, List.mem_cons] at h
    exact source_of_mem_eventsByAll (h.resolve_left fun hentered => nomatch hentered)
  | .inBlocks items =>
    rw [eventsBy] at h
    exact source_of_mem_eventsByAll h

/-- What items declare has the file of the items as its source. -/
theorem source_of_mem_eventsByAll {source : String} {module : ModulePath} {items : List Item}
    {declaration : Declaration} (h : .declare declaration ∈ eventsByAll source module items) :
    declaration.source = source := by
  match items with
  | [] => simp [eventsByAll] at h
  | item :: rest =>
    rw [eventsByAll, List.mem_append] at h
    exact h.elim source_of_mem_eventsBy source_of_mem_eventsByAll

end

/-- The source of what a file declares is the path of the file. -/
theorem source_of_mem_declarationsIn {file : File} {declaration : Declaration}
    (h : declaration ∈ declarationsIn file) : declaration.source = file.path := by
  obtain ⟨event, hevent, hdeclaration⟩ := List.mem_filterMap.mp h
  cases event with
  | enter module imports => cases hdeclaration
  | consider source module subject docs owner => cases hdeclaration
  | declare declared =>
    cases hdeclaration
    exact source_of_mem_eventsByAll ((List.mem_cons.mp hevent).resolve_left fun hentered => nomatch hentered)

section Declare

variable {state : Extraction} {declaration : Declaration}

/-- A declaration with a new name is added. -/
theorem declare_new (hok : state.failure = none) (h : state.table.get? declaration.name = none) :
    (state.declare declaration).failure = none ∧
      (state.declare declaration).table = state.table.including declaration := by
  rcases state.declare_cases declaration with ⟨-, -, hok', htable⟩ | ⟨hbad, -⟩
  · exact ⟨hok', htable⟩
  · exact absurd h (hbad.resolve_left (absurd hok))

/-- A declaration whose name is taken is the failure of the extraction. -/
theorem declare_repeated {first : Declaration} (hok : state.failure = none)
    (h : state.table.get? declaration.name = some first) :
    (state.declare declaration).failure =
        some (.redeclaration declaration.name.display first.source declaration.source) ∧
      (state.declare declaration).table = state.table := by
  by_cases hdocs : declaration.docs.isEmpty <;> simp [declare, hok, hdocs, report, Table.insert, h]

/-- After a failure nothing is declared. -/
theorem declare_of_failure {failure : Failure} (h : state.failure = some failure) :
    state.declare declaration = state := by
  simp [declare, h]

/-- After a failure nothing is declared. -/
theorem foldl_declare_of_failure {failure : Failure} (h : state.failure = some failure)
    (declarations : List Declaration) : declarations.foldl declare state = state := by
  induction declarations with
  | nil => rfl
  | cons declaration rest ih => rw [List.foldl_cons, declare_of_failure h, ih]

end Declare

/-- The first declaration that repeats a name decides how an extraction fails: what is in front of it is added,
and the failure names the file of the earlier declaration and its own. -/
theorem exists_repeated {state : Extraction} (hok : state.failure = none) {declarations : List Declaration}
    {failure : Failure} (h : (declarations.foldl declare state).failure = some failure) :
    ∃ before repeated after first,
      declarations = before ++ repeated :: after ∧ state.table.Admits before ∧
      (first ∈ before ∧ first.name = repeated.name ∨ state.table.get? repeated.name = some first) ∧
      failure = .redeclaration repeated.name.display first.source repeated.source ∧
      (declarations.foldl declare state).table = before.foldl Table.including state.table := by
  induction declarations generalizing state with
  | nil =>
    rw [List.foldl_nil, hok] at h
    cases h
  | cons declaration rest ih =>
    rw [List.foldl_cons] at h ⊢
    cases hget : state.table.get? declaration.name with
    | some first =>
      obtain ⟨hfailed, htable⟩ := declare_repeated hok hget
      rw [foldl_declare_of_failure hfailed] at h ⊢
      refine ⟨[], declaration, rest, first, rfl, .nil _, .inr hget, ?_, htable⟩
      rw [hfailed] at h
      exact (Option.some.inj h).symm
    | none =>
      obtain ⟨hok', htable⟩ := declare_new hok hget
      obtain ⟨before, repeated, after, first, rfl, hadmits, hfirst, hcause, hresult⟩ := ih hok' h
      rw [htable] at hadmits hfirst hresult
      refine ⟨declaration :: before, repeated, after, first, rfl,
        Table.Admits.cons_iff.mpr ⟨hget, hadmits⟩, ?_, hcause, hresult⟩
      rcases hfirst with ⟨hmem, hname⟩ | hfirst
      · exact .inl ⟨List.mem_cons_of_mem _ hmem, hname⟩
      · rw [Table.get?_including] at hfirst
        split at hfirst
        · next hname => exact .inl ⟨Option.some.inj hfirst ▸ List.mem_cons_self, Option.some.inj hfirst ▸ hname⟩
        · exact .inr hfirst

/-- Two extractions have declared the same and failed alike. -/
def DeclaredAlike (state other : Extraction) : Prop :=
  state.table.declarations = other.table.declarations ∧ state.failure = other.failure

/-- An extraction has declared the same as itself. -/
theorem DeclaredAlike.refl (state : Extraction) : state.DeclaredAlike state := ⟨rfl, rfl⟩

/-- Declaring the same keeps extractions alike. -/
theorem DeclaredAlike.declare {state other : Extraction} (h : state.DeclaredAlike other)
    (declaration : Declaration) : (state.declare declaration).DeclaredAlike (other.declare declaration) := by
  have hget : state.table.get? declaration.name = other.table.get? declaration.name := by
    rw [Table.get?, Table.get?, h.1]
  cases hother : other.failure with
  | some failure =>
    have hstate : state.failure = some failure := h.2.trans hother
    rw [declare_of_failure hstate, declare_of_failure hother]
    exact h
  | none =>
    have hstate : state.failure = none := h.2.trans hother
    cases htaken : other.table.get? declaration.name with
    | some first =>
      obtain ⟨hfailure, htable⟩ := declare_repeated hstate (hget.trans htaken)
      obtain ⟨hfailure', htable'⟩ := declare_repeated hother htaken
      exact ⟨by rw [htable, htable', h.1], hfailure.trans hfailure'.symm⟩
    | none =>
      obtain ⟨hok, htable⟩ := declare_new hstate (hget.trans htaken)
      obtain ⟨hok', htable'⟩ := declare_new hother htaken
      exact ⟨by rw [htable, htable', Table.including, Table.including, h.1], hok.trans hok'.symm⟩

/-- Events declare the same as the declarations among them. -/
theorem foldl_declaredAlike {state other : Extraction} (h : state.DeclaredAlike other) (events : List Event) :
    (events.foldl Event.apply state).DeclaredAlike ((events.filterMap Event.declaration?).foldl declare other) := by
  induction events generalizing state other with
  | nil => exact h
  | cons event rest ih =>
    rw [List.foldl_cons]
    cases event with
    | enter module imports =>
      have hentered : (Event.apply state (.enter module imports)).DeclaredAlike other := h
      exact ih hentered
    | declare declaration => exact ih (h.declare declaration)
    | consider source module subject docs owner =>
      obtain ⟨hfailure, htable⟩ := consider_eq state source module subject docs owner
      refine ih ⟨?_, hfailure.trans h.2⟩
      rw [Event.apply, htable]
      exact h.1

/-- Visiting files declares the same as their declarations one after another. -/
theorem ofFiles_declaredAlike (files : List File) :
    (ofFiles files).DeclaredAlike ((visited files).foldl declare {}) := by
  have hrun {state other : Extraction} (h : state.DeclaredAlike other) :
      (files.foldl (fun state file => if state.failure.isSome then state else state.addFile file)
        state).DeclaredAlike ((visited files).foldl declare other) := by
    induction files generalizing state other with
    | nil => exact h
    | cons file rest ih =>
      rw [List.foldl_cons, visited, List.flatMap_cons, List.foldl_append]
      refine ih ?_
      cases hfailure : state.failure with
      | some failure =>
        rw [foldl_declare_of_failure (h.2.symm.trans hfailure)]
        exact h
      | none =>
        rw [addFile_eq_foldl]
        exact foldl_declaredAlike h (events file)
  exact hrun (.refl {})

/-- An extraction fails exactly with the failure of its declarations. -/
theorem result_eq_error_iff (files : List File) (failure : Failure) :
    (ofFiles files).result = .error failure ↔ ((visited files).foldl declare {}).failure = some failure := by
  rw [← (ofFiles_declaredAlike files).2, result]
  cases (ofFiles files).failure <;> simp

/-- The result is a table and findings exactly if there is no failure. -/
theorem result_eq_ok_iff (state : Extraction) (table : Table) (findings : List Finding) :
    state.result = .ok (table, findings) ↔
      state.failure = none ∧ state.table = table ∧ state.findings = findings := by
  rw [result]
  cases state.failure <;> simp

/-- The names that are visited are those in the files. -/
theorem names_visited (files : List File) : (visited files).map Declaration.name = files.flatMap declaredIn := by
  rw [visited_eq, declaredNames_eventsOf]

/-- The table of a successful extraction holds the declarations under their names. -/
theorem declarations_perm_visited {files : List File} (h : (ofFiles files).failure = none) :
    (ofFiles files).table.declarations.Perm
      ((visited files).map fun declaration => (declaration.name, declaration)) := by
  have hnames : ((visited files).map Declaration.name).Nodup := by
    rw [names_visited]
    exact (ofFiles_failure_eq_none_iff files).mp h
  rw [ofFiles_eq_foldl h, declarations_foldl (ofFiles_eq_foldl h ▸ h), ← visited_eq]
  exact Text.foldl_insertSorted_perm (fun a b => (QualifiedName.compare_eq_iff a b).mp) Declaration.name id
    (visited files) [] hnames

end Extraction

open Extraction (ofFiles visited declarationsIn)

/-- Without a source of metadata a run fails with what extraction fails with. -/
theorem generate_crateRoot_eq_error_iff (files : List File) (loader : Loader) (failure : Failure) :
    (∃ findings, generate files loader .crateRoot = .error (failure, findings)) ↔
      (ofFiles files).result = .error failure := by
  unfold generate Generation.metadataFiles Extraction.result
  dsimp only
  cases (ofFiles files).failure <;> simp

/-- Redeclaration is detected exactly. Extraction fails if and only if two of the visited declarations share a
name. The failure then names the first declaration that repeats an earlier one, with the file of the earlier one
and its own; otherwise the table holds every visited declaration once under its own name. A run without a source
of metadata fails in this case and no other. -/
theorem redeclaration_detected_exactly (files : List File) (loader : Loader) :
    ((∃ failure, (ofFiles files).result = .error failure) ↔ ¬ ((visited files).map Declaration.name).Nodup) ∧
    (∀ failure, (ofFiles files).result = .error failure →
      ∃ before repeated after first, visited files = before ++ repeated :: after ∧
        (before.map Declaration.name).Nodup ∧ first ∈ before ∧ first.name = repeated.name ∧
        failure = .redeclaration repeated.name.display first.source repeated.source) ∧
    (∀ table findings, (ofFiles files).result = .ok (table, findings) →
      table.declarations.Perm ((visited files).map fun declaration => (declaration.name, declaration)) ∧
        table.names.Nodup) ∧
    (∀ failure, (∃ findings, generate files loader .crateRoot = .error (failure, findings)) ↔
      (ofFiles files).result = .error failure) ∧
    ∀ file ∈ files, ∀ declaration ∈ declarationsIn file, declaration.source = file.path := by
  have hnodup := Extraction.ofFiles_failure_eq_none_iff files
  rw [← Extraction.names_visited] at hnodup
  refine ⟨?_, fun failure h => ?_, fun table findings h => ?_, generate_crateRoot_eq_error_iff files loader,
    fun file _ declaration => Extraction.source_of_mem_declarationsIn⟩
  · rw [← hnodup, Extraction.result]
    cases (ofFiles files).failure <;> simp
  · obtain ⟨before, repeated, after, first, hsplit, hadmits, hfirst, hcause, -⟩ :=
      Extraction.exists_repeated rfl ((Extraction.result_eq_error_iff files failure).mp h)
    -- Nothing is declared at the start, so the earlier declaration is among those visited before.
    obtain ⟨hmem, hname⟩ := hfirst.resolve_right fun hstart => nomatch hstart
    exact ⟨before, repeated, after, first, hsplit, hadmits.distinct, hmem, hname, hcause⟩
  · obtain ⟨hok, rfl, -⟩ := (Extraction.result_eq_ok_iff _ table findings).mp h
    have hperm := Extraction.declarations_perm_visited hok
    refine ⟨hperm, (hperm.map Prod.fst).nodup_iff.mpr ?_⟩
    rw [List.map_map]
    exact hnodup.mp hok

/-- A crate root that declares a type and, in an inline module, another one. -/
def inlineOrdersFile : File where
  path := "src/lib.rs"
  module := .root
  content.attributes := []
  content.items := [.struct ⟨"Order", [], []⟩ .unit, .module "orders" [.struct ⟨"Order", [], []⟩ .unit]]

/-- The file of the module that the crate root also has inline; it declares the type in question as a trait. -/
def ordersFile : File where
  path := "src/orders.rs"
  module := ⟨["orders"]⟩
  content.attributes := []
  content.items := [.enum ⟨"Status", [], []⟩ [], .trait ⟨"r#Order", [], []⟩ [], .struct ⟨"Status", [], []⟩ .unit]

/-- A type in an inline module and a trait in the file of that module share a name. The second repetition in the
file is not the one that is reported. The crate root alone holds two types of that local name. -/
theorem redeclaration_detected_exactly_orders :
    (∃ failure, (ofFiles [inlineOrdersFile, ordersFile]).result = .error failure ∧
      failure = .redeclaration "crate::orders::Order" "src/lib.rs" "src/orders.rs" ∧
      ∃ before repeated after first, visited [inlineOrdersFile, ordersFile] = before ++ repeated :: after ∧
        (before.map Declaration.name).Nodup ∧ first ∈ before ∧ first.name = repeated.name ∧
        failure = .redeclaration repeated.name.display first.source repeated.source) ∧
    ∃ table findings, (ofFiles [inlineOrdersFile]).result = .ok (table, findings) ∧
      table.declarations.Perm
        ((visited [inlineOrdersFile]).map fun declaration => (declaration.name, declaration)) ∧
      table.names.Nodup := by
  have hfailure : (ofFiles [inlineOrdersFile, ordersFile]).failure =
      some (.redeclaration "crate::orders::Order" "src/lib.rs" "src/orders.rs") := by
    decide +kernel
  have herror : (ofFiles [inlineOrdersFile, ordersFile]).result =
      .error (.redeclaration "crate::orders::Order" "src/lib.rs" "src/orders.rs") := by
    rw [Extraction.result, hfailure]
  have hnone : (ofFiles [inlineOrdersFile]).failure = none := by decide +kernel
  have hok := (Extraction.result_eq_ok_iff (ofFiles [inlineOrdersFile]) _ _).mpr ⟨hnone, rfl, rfl⟩
  refine ⟨⟨_, herror, rfl, ?_⟩, _, _, hok, ?_⟩
  · exact (redeclaration_detected_exactly [inlineOrdersFile, ordersFile] .none).2.1 _ herror
  · exact (redeclaration_detected_exactly [inlineOrdersFile] .none).2.2.1 _ _ hok

end ApiScribe
