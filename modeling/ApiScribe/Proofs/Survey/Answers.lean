import ApiScribe.Proofs.Lookup.Alike
import ApiScribe.Proofs.Survey.Basic

/-!
# Looking things up without a loader

When there is no loader, looking something up gives what the table says by itself, at every moment of
a run: the table stays as it is, comments say what they said before, and everything opted in is named
before anything is built. A table that says the same gives the same answers and the same names.
-/

namespace ApiScribe

variable {table : Table} {names : ComponentNames}

namespace Resolver

/-- The resolver looks things up in a table that says the same as the given one, and has no loader. -/
structure Rests (table : Table) (resolver : Resolver) : Prop where
  table : table.Alike resolver.table
  loader : resolver.loader = {}

/-- Without a loader a request changes nothing but the list of requests. -/
theorem Rests.ensureModule {resolver : Resolver} (h : Rests table resolver) (module : ModulePath) :
    Rests table (resolver.ensureModule module) := by
  refine ⟨?_, (ensureModule_loader resolver module).trans h.loader⟩
  unfold Resolver.ensureModule
  split
  · exact h.table
  · simpa [h.loader, Loader.find?] using h.table

/-- At rest, a declaration is found if the table has it. -/
theorem declared_gives (name : QualifiedName) :
    Gives (Rests table) (declared name) (table.declared? name) := by
  have hanswer : Gives (Rests table) (do
      return if (← get).table.contains name then some name else none) (table.declared? name) := by
    refine gives_get_bind fun resolver h => ?_
    rw [h.table.contains]
    exact gives_pure _
  unfold declared
  refine gives_get_bind fun resolver h => ?_
  split
  · exact gives_bind (gives_modify fun state hstate => hstate.ensureModule _) hanswer
  · exact hanswer

/-- At rest, the first import that leads to a declaration decides. -/
theorem firstDeclared_gives (scope : ModulePath) (designates : Import → Option (List String × String))
    (imports : List Import) :
    Gives (Rests table) (firstDeclared scope designates imports)
      (table.imported? scope designates imports) := by
  induction imports with
  | nil => exact gives_pure none
  | cons binding rest ih =>
    unfold firstDeclared Table.imported?
    rw [List.findSome?_cons]
    cases hdesignates : designates binding with
    | none => exact ih
    | some target =>
      refine gives_get_bind fun resolver h => ?_
      rw [(h.table.scopes scope).moduleOf?]
      cases hmodule : table.moduleOf? scope target.1 with
      | none =>
        simp only [Option.bind_some, hmodule, Option.bind_none]
        exact ih
      | some module =>
        refine gives_bind (declared_gives _) ?_
        cases hdeclared : table.declared? ⟨module, target.2⟩ with
        | none =>
          simp only [Option.bind_some, hmodule, hdeclared]
          exact ih
        | some found =>
          simp only [Option.bind_some, hmodule, hdeclared]
          exact gives_pure (some found)

/-- At rest, a bare name is found in the table. -/
theorem lookupBare_gives (name : String) (scope : ModulePath) :
    Gives (Rests table) (lookupBare name scope) (table.findBare? name scope) := by
  unfold lookupBare Table.findBare?
  refine gives_get_bind fun resolver h => ?_
  dsimp only
  rw [h.table.contains, (h.table.scopes scope).imports]
  unfold Table.declared?
  split
  · exact gives_pure _
  · refine gives_bind (firstDeclared_gives scope _ _) ?_
    rw [Option.none_or]
    cases table.imported? scope (namedTarget name) (table.imports scope) with
    | none => exact firstDeclared_gives scope _ _
    | some found => exact gives_pure _

/-- A path means in a scope what the table says. -/
theorem lookup_gives (segments : List String) (scope : ModulePath) :
    Gives (Rests table) (lookup segments scope) (table.findScoped? segments scope) := by
  unfold lookup Table.findScoped?
  cases segments.getLast? with
  | none => exact gives_pure none
  | some name =>
    cases segments.dropLast with
    | nil => exact lookupBare_gives name scope
    | cons first rest =>
      refine gives_get_bind fun resolver h => ?_
      dsimp only
      rw [(h.table.scopes scope).moduleOf?]
      cases table.moduleOf? scope (first :: rest) with
      | none => exact gives_pure none
      | some module => exact declared_gives _

end Resolver

namespace Registry

/-- The registry belongs to a run over the table without a loader: it has the names given, and the
comments it knows are those of the table. -/
structure Faithful (table : Table) (names : ComponentNames) (registry : Registry) : Prop where
  resolver : registry.resolver.Rests table
  containers : ∀ entry ∈ registry.containers, entry.2 = table.comment entry.1
  names : registry.names = names

/-- What the resolver gives at rest, the registry gives. -/
theorem resolving_gives {α : Type} {action : Resolving α} {value : α}
    (h : Gives (Resolver.Rests table) action value) :
    Gives (Faithful table names) (resolving action) value :=
  fun _ hregistry =>
    ⟨(h _ hregistry.resolver).1, { hregistry with resolver := (h _ hregistry.resolver).2 }⟩

/-- Findings do not matter to a faithful registry. -/
theorem Faithful.withFindings {registry : Registry} (h : registry.Faithful table names)
    (findings : List Finding) : (registry.withFindings findings).Faithful table names :=
  { h with resolver := ⟨h.resolver.table, h.resolver.loader⟩ }

/-- Reporting keeps a registry faithful. -/
theorem report_gives (subject : String) (cause : Cause) :
    Gives (Faithful table names) (report subject cause) () :=
  gives_modify fun _ h => h.withFindings _

/-- A faithful registry has the comments of the table. -/
theorem Faithful.commentOf {registry : Registry} (h : registry.Faithful table names) (name : QualifiedName) :
    registry.commentOf name = table.comment name := by
  rw [Registry.commentOf, Registry.table, h.resolver.table.get?, Table.comment]

/-- Reading a comment keeps a registry faithful. -/
theorem Faithful.withComment {registry : Registry} (h : registry.Faithful table names) (name : QualifiedName) :
    (registry.withComment name).Faithful table names := by
  refine ⟨h.resolver, fun entry hentry => ?_, h.names⟩
  rcases List.mem_cons.mp hentry with rfl | hentry
  · exact h.commentOf name
  · exact h.containers entry hentry

/-- A comment says what the table says. -/
theorem container_gives (name : QualifiedName) :
    Gives (Faithful table names) (container name) (table.comment name) := by
  intro registry h
  cases hcomment : registry.comment? name with
  | some comment =>
    rw [container_run_known hcomment]
    obtain ⟨entry, hfind, rfl⟩ := Option.map_eq_some_iff.mp hcomment
    have hname : entry.1 = name := by simpa using List.find?_some hfind
    refine ⟨?_, h⟩
    rw [h.containers entry (List.mem_of_find?_eq_some hfind), hname]
  | none =>
    obtain ⟨findings, hrun⟩ := container_run_new hcomment
    rw [hrun]
    exact ⟨h.commentOf name, (h.withComment name).withFindings findings⟩

/-- A faithful registry knows what is opted in. -/
theorem isSchema_gives (name : QualifiedName) :
    Gives (Faithful table names) (isSchema name) (table.isOptedIn name) :=
  isSchema_gives_of (fun _ h => h.resolver.table.declarations) container_gives name

/-- Looking something up keeps a registry faithful to its table. -/
theorem Reads.faithful {first last : Registry} (h : Reads first last) (hfirst : first.Faithful table names) :
    last.Faithful table names := by
  induction h with
  | refl => exact hfirst
  | trans _ _ ih ih' => exact ih' (ih hfirst)
  | note _ findings => exact hfirst.withFindings findings
  | load _ module => exact { hfirst with resolver := hfirst.resolver.ensureModule module }
  | comment _ name => exact hfirst.withComment name

/-- What names everything opted in, up to the naming itself. -/
def namingOrder : StateM Registry (List QualifiedName) := do
  let candidates ← schemaDeclarations
  let asked ← candidates.filterM fun name => do return (← container name).name.isSome
  let others ← candidates.filterM fun name => do return (← container name).name.isNone
  return asked ++ others

/-- As long as the table and the comments stay what they are, the naming order is that of the table. -/
theorem namingOrder_gives_of {holds : Registry → Prop}
    (htable : ∀ registry, holds registry → registry.table.declarations = table.declarations)
    (hcomment : ∀ name, Gives holds (container name) (table.comment name)) :
    Gives holds namingOrder table.namingOrder := by
  have hread (test : Comment.Container → Bool) (other : QualifiedName) :
      Gives holds (do return test (← container other)) (test (table.comment other)) :=
    gives_bind (hcomment other) (gives_pure _)
  refine gives_bind (schemaDeclarations_gives_of htable hcomment) ?_
  refine gives_bind (gives_filterM (hread fun comment => comment.name.isSome) _) ?_
  exact gives_bind (gives_filterM (hread fun comment => comment.name.isNone) _) (gives_pure _)

/-- A faithful registry names declarations in the order of the table. -/
theorem namingOrder_gives : Gives (Faithful table names) namingOrder table.namingOrder :=
  namingOrder_gives_of (fun _ h => h.resolver.table.declarations) container_gives

/-- Naming a declaration gives it the name that its comment asks for, or else its own. -/
theorem Faithful.named {registry : Registry} (h : registry.Faithful table names) (name : QualifiedName) :
    ((componentName name).run registry).2.Faithful table (table.entitle names name) := by
  unfold Table.entitle
  cases hknown : names.get? name with
  | some component =>
    rw [componentName_run_known (h.names ▸ hknown)]
    simpa only [ComponentNames.assign, hknown] using h
  | none =>
    obtain ⟨hcomment, hread⟩ := container_gives name registry h
    rw [componentName_run_new (h.names ▸ hknown), hcomment]
    exact ⟨⟨hread.resolver.table, hread.resolver.loader⟩, hread.containers, by rw [hread.names]⟩

/-- Naming declarations one after another. -/
theorem Faithful.named_forM {registry : Registry} (h : registry.Faithful table names)
    (order : List QualifiedName) :
    ((order.forM fun name => do let _ ← componentName name).run registry).2.Faithful table
      (order.foldl table.entitle names) := by
  induction order generalizing registry names with
  | nil => exact h
  | cons name rest ih => exact ih (h.named name)

/-- At the start of a run everything opted in is named in order. -/
theorem faithful_ofResolver {resolver : Resolver} (h : resolver.Rests table) :
    (ofResolver resolver).Faithful table (table.namingOrder.foldl table.entitle {}) := by
  have hstart : Faithful table {} { resolver } := ⟨h, fun _ hentry => absurd hentry List.not_mem_nil, rfl⟩
  obtain ⟨horder, hfaithful⟩ := namingOrder_gives _ hstart
  have hnamed := hfaithful.named_forM table.namingOrder
  rw [← horder] at hnamed ⊢
  exact hnamed

/-- A fresh registry has named everything opted in. -/
theorem names_fresh (table : Table) : (fresh table).names = table.namingOrder.foldl table.entitle {} := by
  have hrests : Resolver.Rests table { table } := ⟨.refl table, rfl⟩
  exact (faithful_ofResolver hrests).names

/-- Tables that say the same give the same names. -/
theorem faithful_fresh {other : Table} (h : table.Alike other) :
    (fresh other).Faithful table (fresh table).names := by
  rw [names_fresh]
  exact faithful_ofResolver ⟨h, rfl⟩

/-- Naming declarations one after another leaves each of them named. -/
theorem exists_get?_foldl_entitle {order : List QualifiedName} {name : QualifiedName}
    (h : name ∈ order ∨ ∃ component, names.get? name = some component) :
    ∃ component, (order.foldl table.entitle names).get? name = some component := by
  induction order generalizing names with
  | nil => exact h.resolve_left List.not_mem_nil
  | cons other rest ih =>
    refine ih ?_
    rcases h with h | ⟨component, h⟩
    · rcases List.mem_cons.mp h with rfl | h
      · exact .inr (ComponentNames.exists_get?_assign names name _)
      · exact .inl h
    · exact .inr ⟨component, ComponentNames.get?_assign_of_some h other _⟩

/-- Everything that is opted in is named before anything is built. -/
theorem exists_name_fresh {name : QualifiedName} (h : table.isOptedIn name) :
    ∃ component, (fresh table).names.get? name = some component := by
  rw [names_fresh]
  exact exists_get?_foldl_entitle (.inl (Table.mem_namingOrder.mpr h))

end Registry

namespace Synthesis

open Registry

/-- A path leads where the table says. -/
theorem lookup_gives (segments : List String) (scope : ModulePath) :
    Gives (Faithful table (fresh table).names) (lookup segments scope) (table.find? segments scope) := by
  unfold lookup Table.find?
  refine gives_bind (resolving_gives (Resolver.lookup_gives segments scope)) ?_
  cases table.findScoped? segments scope with
  | some found => exact gives_pure _
  | none =>
    rw [Option.none_or]
    rcases segments with _ | ⟨single, _ | ⟨second, rest⟩⟩
    · exact gives_pure none
    · refine gives_get_bind fun registry h => ?_
      rw [h.names, Registry.table, h.resolver.table.findUnique?]
      exact gives_pure _
    · exact gives_pure none

/-- A faithful registry knows which library names are undeclared. -/
theorem undeclaredWellKnown_gives (name : String) (scope : ModulePath) :
    Gives (Faithful table names) (undeclaredWellKnown name scope) (table.builtIn? name scope) := by
  unfold undeclaredWellKnown Table.builtIn?
  cases TypeExpr.wellKnown? name with
  | none => exact gives_pure none
  | some known =>
    refine gives_bind (resolving_gives (Resolver.lookup_gives [name] scope)) ?_
    cases table.findScoped? [name] scope with
    | some found => exact gives_pure none
    | none => exact gives_pure _

/-- A faithful registry gives the values of an enum. -/
theorem enumValues_gives (declaration : Declaration) (variants : List VariantDeclaration) :
    Gives (Faithful table names) (enumValues declaration variants)
      (variants.filterMap declaration.variantValue?) := by
  induction variants with
  | nil => exact gives_pure []
  | cons variant rest ih =>
    rw [List.filterMap_cons]
    unfold enumValues Declaration.variantValue?
    cases variant.options.skip with
    | true => exact ih
    | false =>
      cases variant.isUnit with
      | true => exact gives_bind ih (gives_pure _)
      | false => exact gives_bind (report_gives _ _) ih

end Synthesis

end ApiScribe
