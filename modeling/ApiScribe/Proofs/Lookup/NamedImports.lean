import ApiScribe.Proofs.Lookup.Stability

/-!
# What an import by name decides

A bare name that its scope does not declare is looked for through the imports of the scope, first those by name
and then the globs. Each is followed at the moment when it comes up, with what was loaded until then. One that
leads nowhere is passed over, also an import by name, such as one of another crate's type. So the globs have
their say exactly if no import by name leads to a declaration.
-/

namespace ApiScribe

/-- What is found first in two lists, one behind the other, stands in the one in front exactly if something is
found there or nothing in the one behind. -/
theorem find?_append_mem_iff {α : Type} (test : α → Bool) (names more : List α) :
    (∀ found, (names ++ more).find? test = some found → found ∈ names) ↔
      (∃ name ∈ names, test name = true) ∨ ∀ name ∈ more, test name = false := by
  rw [List.find?_append]
  cases hnames : names.find? test with
  | some name =>
    have hmem := List.mem_of_find?_eq_some hnames
    have htest := List.find?_some hnames
    simp only [Option.some_or, Option.some.injEq, forall_eq']
    exact ⟨fun _ => .inl ⟨name, hmem, htest⟩, fun _ => hmem⟩
  | none =>
    rw [List.find?_eq_none] at hnames
    rw [Option.none_or]
    constructor
    · intro h
      refine .inr fun name hname => ?_
      by_contra htest
      obtain ⟨found, hfound⟩ := Option.isSome_iff_exists.mp
        (List.find?_isSome.mpr ⟨name, hname, by simpa using htest⟩)
      exact hnames found (h found hfound) (List.find?_some hfound)
    · rintro (⟨name, hname, htest⟩ | hmore) found hfound
      · exact absurd htest (hnames name hname)
      · have htest := List.find?_some hfound
        rw [hmore found (List.mem_of_find?_eq_some hfound)] at htest
        cases htest

namespace Resolver

/-- The resolver after a name was asked for, whose module is requested if the name is not declared. -/
def asked (resolver : Resolver) (name : QualifiedName) : Resolver :=
  if resolver.table.contains name then resolver else resolver.ensureModule name.module

/-- A declaration is found if the table has it once its module is asked for. -/
theorem declared_run (name : QualifiedName) (resolver : Resolver) :
    (declared name).run resolver =
      (if (resolver.asked name).table.contains name then some name else none, resolver.asked name) := by
  unfold asked
  cases h : resolver.table.contains name with
  | true => rw [declared_run_of_contains h, if_pos rfl, if_pos h]
  | false => rw [declared_run_of_not_contains h, if_neg Bool.false_ne_true]

section Following

variable {scope : ModulePath} {designates : Import → Option (List String × String)} {imports : List Import}
  {found : QualifiedName} {first last : Resolver}

/-- An import is passed over: it designates nothing, or a name that is not declared even when its module was
requested. -/
inductive Passed (scope : ModulePath) (designates : Import → Option (List String × String)) (binding : Import) :
    Resolver → Resolver → Prop where
  | blank {resolver : Resolver} (htarget : resolver.table.target? scope designates binding = none) :
      Passed scope designates binding resolver resolver
  | undeclared {resolver : Resolver} {name : QualifiedName}
      (htarget : resolver.table.target? scope designates binding = some name)
      (hname : (resolver.asked name).table.contains name = false) :
      Passed scope designates binding resolver (resolver.asked name)

/-- Imports followed in turn are all passed over. -/
inductive LeadNowhere (scope : ModulePath) (designates : Import → Option (List String × String)) :
    List Import → Resolver → Resolver → Prop where
  | nil (resolver : Resolver) : LeadNowhere scope designates [] resolver resolver
  | cons {binding : Import} {rest : List Import} {first middle last : Resolver}
      (hpassed : Passed scope designates binding first middle)
      (hrest : LeadNowhere scope designates rest middle last) :
      LeadNowhere scope designates (binding :: rest) first last

/-- Imports followed in turn lead to a declared name: one designates it, and those in front are passed over. -/
inductive LeadTo (scope : ModulePath) (designates : Import → Option (List String × String))
    (found : QualifiedName) : List Import → Resolver → Resolver → Prop where
  | here {binding : Import} {resolver : Resolver} (rest : List Import)
      (htarget : resolver.table.target? scope designates binding = some found)
      (hfound : (resolver.asked found).table.contains found = true) :
      LeadTo scope designates found (binding :: rest) resolver (resolver.asked found)
  | past {binding : Import} {rest : List Import} {first middle last : Resolver}
      (hpassed : Passed scope designates binding first middle)
      (hrest : LeadTo scope designates found rest middle last) :
      LeadTo scope designates found (binding :: rest) first last

/-- An import that is passed leaves the rest to be gone through. -/
theorem firstDeclared_run_passed {binding : Import} {middle : Resolver}
    (h : Passed scope designates binding first middle) (rest : List Import) :
    (firstDeclared scope designates (binding :: rest)).run first =
      (firstDeclared scope designates rest).run middle := by
  rw [firstDeclared_cons_run]
  cases h with
  | blank htarget => rw [htarget]
  | undeclared htarget hname =>
    rw [htarget]
    dsimp only
    rw [declared_run, hname]
    rfl

/-- An import that leads to a declaration ends the search. -/
theorem firstDeclared_run_here {binding : Import}
    (htarget : first.table.target? scope designates binding = some found)
    (hfound : (first.asked found).table.contains found = true) (rest : List Import) :
    (firstDeclared scope designates (binding :: rest)).run first = (some found, first.asked found) := by
  rw [firstDeclared_cons_run, htarget]
  dsimp only
  rw [declared_run, hfound]
  rfl

/-- An import leads to a declared name or is passed over. -/
theorem passed_or_declared (scope : ModulePath) (designates : Import → Option (List String × String))
    (binding : Import) (first : Resolver) :
    (∃ middle, Passed scope designates binding first middle) ∨
      ∃ name, first.table.target? scope designates binding = some name ∧
        (first.asked name).table.contains name = true := by
  cases htarget : first.table.target? scope designates binding with
  | none => exact .inl ⟨first, .blank htarget⟩
  | some name =>
    cases hname : (first.asked name).table.contains name with
    | true => exact .inr ⟨name, rfl, hname⟩
    | false => exact .inl ⟨first.asked name, .undeclared htarget hname⟩

/-- Following imports gives no name exactly if all are passed over. -/
theorem firstDeclared_run_none_iff :
    (firstDeclared scope designates imports).run first = (none, last) ↔
      LeadNowhere scope designates imports first last := by
  constructor
  · intro h
    induction imports generalizing first with
    | nil =>
      cases h
      exact .nil _
    | cons binding rest ih =>
      rcases passed_or_declared scope designates binding first with ⟨middle, hpassed⟩ | ⟨name, htarget, hname⟩
      · rw [firstDeclared_run_passed hpassed] at h
        exact .cons hpassed (ih h)
      · rw [firstDeclared_run_here htarget hname] at h
        cases h
  · intro h
    induction h with
    | nil resolver => rfl
    | cons hpassed _ ih => rw [firstDeclared_run_passed hpassed, ih]

/-- Following imports gives the name that they lead to. -/
theorem firstDeclared_run_some_iff :
    (firstDeclared scope designates imports).run first = (some found, last) ↔
      LeadTo scope designates found imports first last := by
  constructor
  · intro h
    induction imports generalizing first with
    | nil => cases h
    | cons binding rest ih =>
      rcases passed_or_declared scope designates binding first with ⟨middle, hpassed⟩ | ⟨name, htarget, hname⟩
      · rw [firstDeclared_run_passed hpassed] at h
        exact .past hpassed (ih h)
      · rw [firstDeclared_run_here htarget hname] at h
        cases h
        exact .here rest htarget hname
  · intro h
    induction h with
    | here rest htarget hfound => exact firstDeclared_run_here htarget hfound rest
    | past hpassed _ ih => rw [firstDeclared_run_passed hpassed, ih]

end Following

/-- A request for the module declares nothing. -/
def Quiet (resolver : Resolver) (module : ModulePath) : Prop :=
  resolver.Settled module ∨ ∀ file, resolver.loader.find? module ≠ some (.ok file)

/-- Asking for a quiet module leaves the table alone. -/
theorem Quiet.table_ensureModule {resolver : Resolver} {module : ModulePath} (h : resolver.Quiet module) :
    (resolver.ensureModule module).table = resolver.table := by
  rcases h with hsettled | hnone
  · rw [ensureModule_of_settled hsettled]
  · rcases (resolver.ensureModule_cases module).2 with htable | ⟨file, hfile, -⟩
    · exact htable
    · exact absurd hfile (hnone file)

/-- A quiet module stays quiet. -/
theorem Quiet.ensureModule {resolver : Resolver} {module : ModulePath} (h : resolver.Quiet module)
    (other : ModulePath) : (resolver.ensureModule other).Quiet module := by
  rcases h with hsettled | hnone
  · exact .inl (hsettled.extends (ensureModule_extends resolver other))
  · exact .inr (by rwa [ensureModule_loader])

/-- Where requests declare nothing, consulting only looks into the table. -/
theorem consult_run_of_quiet {names : List QualifiedName} {resolver : Resolver}
    (h : ∀ name ∈ names, resolver.Quiet name.module) :
    ∃ last, (consult names).run resolver = (names.find? resolver.table.contains, last) ∧
      last.table = resolver.table := by
  induction names generalizing resolver with
  | nil => exact ⟨resolver, rfl, rfl⟩
  | cons name rest ih =>
    rw [List.forall_mem_cons] at h
    rw [consult_cons_run, List.find?_cons]
    cases hname : resolver.table.contains name with
    | true => exact ⟨resolver, by rw [declared_run_of_contains hname], rfl⟩
    | false =>
      have htable := h.1.table_ensureModule
      obtain ⟨last, hrun, hlast⟩ := ih fun other hother => (h.2 other hother).ensureModule name.module
      rw [htable] at hrun hlast
      refine ⟨last, ?_, hlast⟩
      rw [declared_run_of_not_contains hname, htable, hname]
      exact hrun

section Bare

variable {name : String} {scope : ModulePath} {answer : Option QualifiedName} {first last : Resolver}

/-- Where requests declare nothing, the answer to a bare name is read off the table. -/
theorem lookup_run_of_quiet (hlocal : first.table.contains ⟨scope, name⟩ = false)
    (h : ∀ target ∈ first.table.designated [name] scope, first.Quiet target.module) :
    ((lookup [name] scope).run first).1 = (first.table.designated [name] scope).find? first.table.contains := by
  obtain ⟨last, hrun, htable⟩ := consult_run_of_quiet h
  have hscope : Table.SameScope scope first.table last.table := by
    rw [htable]
    exact ⟨rfl, fun _ => rfl⟩
  rw [lookup_run_of_consult hlocal (by rw [hrun]; exact hscope), hrun]

/-- A bare name that its scope does not declare is answered through the imports by name or, if these lead
nowhere, through the globs. -/
theorem lookup_bare_eq_some_iff (hlocal : first.table.contains ⟨scope, name⟩ = false) (found : QualifiedName) :
    (lookup [name] scope).run first = (some found, last) ↔
      LeadTo scope (namedTarget name) found (first.table.imports scope) first last ∨
        ∃ middle, LeadNowhere scope (namedTarget name) (first.table.imports scope) first middle ∧
          LeadTo scope (globTarget name) found (first.table.imports scope) middle last := by
  simp only [← firstDeclared_run_some_iff, ← firstDeclared_run_none_iff]
  rw [lookup_run_bare hlocal]
  rcases (firstDeclared scope (namedTarget name) (first.table.imports scope)).run first with ⟨_ | other, middle⟩
  · refine ⟨fun hglob => .inr ⟨middle, rfl, hglob⟩, ?_⟩
    rintro (hnamed | ⟨other, hnowhere, hglob⟩)
    · cases hnamed
    · cases hnowhere
      exact hglob
  · refine ⟨.inl, ?_⟩
    rintro (hnamed | ⟨other, hnowhere, -⟩)
    · exact hnamed
    · cases hnowhere

/-- Imports by name that lead to a declaration leave nothing to the globs. -/
theorem LeadTo.not_leadNowhere {designates : Import → Option (List String × String)} {imports : List Import}
    {found : QualifiedName} {middle : Resolver} (h : LeadTo scope designates found imports first last) :
    ¬ LeadNowhere scope designates imports first middle := by
  intro hnowhere
  rw [← firstDeclared_run_some_iff, firstDeclared_run_none_iff.mpr hnowhere] at h
  cases h

/-- What an import by name decides. A bare name that its scope does not declare is answered through the imports
by name or, if these lead nowhere, through the globs. So the answer never comes from a glob exactly if an import
by name leads to a declaration, or no glob does once all of them are passed over. Where requests declare nothing,
this can be read off the table. -/
theorem named_import_decides_iff (hlocal : first.table.contains ⟨scope, name⟩ = false)
    (hrun : (lookup [name] scope).run first = (answer, last)) :
    let imports := first.table.imports scope
    let named := first.table.targets scope (namedTarget name) imports
    let supplied := first.table.targets scope (globTarget name) imports
    (∀ found, answer = some found ↔
      LeadTo scope (namedTarget name) found imports first last ∨
        ∃ middle, LeadNowhere scope (namedTarget name) imports first middle ∧
          LeadTo scope (globTarget name) found imports middle last) ∧
    ((∀ found, answer = some found → LeadTo scope (namedTarget name) found imports first last) ↔
      (∃ found after, LeadTo scope (namedTarget name) found imports first after) ∨
        ∀ middle found after, LeadNowhere scope (namedTarget name) imports first middle →
          ¬ LeadTo scope (globTarget name) found imports middle after) ∧
    ((∀ target ∈ named ++ supplied, first.Quiet target.module) →
      ((∀ found, answer = some found → found ∈ named) ↔
        (∃ target ∈ named, first.table.contains target = true) ∨
          ∀ target ∈ supplied, first.table.contains target = false)) := by
  intro imports named supplied
  have hanswer (found : QualifiedName) :
      answer = some found ↔ (lookup [name] scope).run first = (some found, last) :=
    ⟨fun h => h ▸ hrun, fun h => congrArg Prod.fst (hrun.symm.trans h)⟩
  refine ⟨fun found => (hanswer found).trans (lookup_bare_eq_some_iff hlocal found), ⟨fun h => ?_, ?_⟩,
    fun hquiet => ?_⟩
  · by_cases hnamed : ∃ found after, LeadTo scope (namedTarget name) found imports first after
    · exact .inl hnamed
    · refine .inr fun middle found after hnowhere hglob => hnamed ?_
      have hfound := (lookup_bare_eq_some_iff hlocal found).mpr (.inr ⟨middle, hnowhere, hglob⟩)
      exact ⟨found, last, h found (congrArg Prod.fst (hrun.symm.trans hfound))⟩
  · intro h found hfound
    rcases (lookup_bare_eq_some_iff hlocal found).mp ((hanswer found).mp hfound) with
      hnamed | ⟨middle, hnowhere, hglob⟩
    · exact hnamed
    · rcases h with ⟨other, after, hother⟩ | hglobs
      · exact absurd hnowhere hother.not_leadNowhere
      · exact absurd hglob (hglobs middle found last hnowhere)
  · have hread := lookup_run_of_quiet hlocal hquiet
    rw [hrun, Table.designated_bare] at hread
    rw [show answer = _ from hread]
    exact find?_append_mem_iff _ _ _

/-- With `a` loaded on demand, the import of `Bar` by name leads there, although everything in `b` is imported too
and `Bar` is declared there from the start. -/
theorem named_import_decides_iff_loaded :
    let scope : ModulePath := ⟨["s"]⟩
    let first : Resolver :=
      { table := (Extraction.ofFiles [importingFile, barFile ⟨["b"]⟩]).table
        loader := ⟨[(⟨["a"]⟩, .ok (barFile ⟨["a"]⟩))]⟩ }
    let imports := first.table.imports scope
    let found : QualifiedName := ⟨⟨["a"]⟩, "Bar"⟩
    first.table.contains ⟨scope, "Bar"⟩ = false ∧ first.table.contains ⟨⟨["b"]⟩, "Bar"⟩ = true ∧
    ∃ last, (lookup ["Bar"] scope).run first = (some found, last) ∧
      LeadTo scope (namedTarget "Bar") found imports first last := by
  intro scope first imports found
  have hlocal : first.table.contains ⟨scope, "Bar"⟩ = false := by decide +kernel
  have hrun : (lookup ["Bar"] scope).run first = (some found, ((lookup ["Bar"] scope).run first).2) := by
    refine Prod.ext ?_ rfl
    decide +kernel
  have hnamed : LeadTo scope (namedTarget "Bar") found imports first (first.asked found) := by
    rw [← firstDeclared_run_some_iff]
    exact Prod.ext (by decide +kernel) rfl
  refine ⟨hlocal, by decide +kernel, _, hrun, ?_⟩
  exact (named_import_decides_iff hlocal hrun).2.1.mpr (.inl ⟨found, _, hnamed⟩) found rfl

/-- A module that imports `Value` by name from another crate, and everything from `ledger`. -/
def settingsFile : Source.File where
  path := "src/lib.rs"
  module := .root
  content.attributes := []
  content.items :=
    [.use (.path "serde_json" (.name "Value")), .use (.path "crate" (.path "ledger" .glob)),
     .module "ledger" [.struct ⟨"Value", [⟨some "doc", .text "An amount."⟩], []⟩ .unit]]

/-- A glob can answer for an import by name: `Value` is imported from another crate, yet it leads to the type of
this name in `ledger`, which the import does not designate. -/
theorem glob_answers_for_named_import :
    let first : Resolver := { table := (Extraction.ofFiles [settingsFile]).table }
    let imports := first.table.imports .root
    let value : QualifiedName := ⟨⟨["ledger"]⟩, "Value"⟩
    first.table.contains ⟨.root, "Value"⟩ = false ∧
    imports = [⟨"Value", ["serde_json", "Value"], false⟩, ⟨"*", ["crate", "ledger"], true⟩] ∧
    first.table.targets .root (namedTarget "Value") imports = [⟨⟨["serde_json"]⟩, "Value"⟩] ∧
    ((lookup ["Value"] .root).run first).1 = some value ∧
    ∀ last, ¬ LeadTo .root (namedTarget "Value") value imports first last := by
  intro first imports value
  have hnowhere : ((firstDeclared .root (namedTarget "Value") imports).run first).1 = none := by decide +kernel
  refine ⟨by decide +kernel, by decide +kernel, by decide +kernel, by decide +kernel, fun last hnamed => ?_⟩
  rw [← firstDeclared_run_some_iff] at hnamed
  rw [hnamed] at hnowhere
  cases hnowhere

end Bare

end Resolver

end ApiScribe
