import ApiScribe.Proofs.ComponentNames
import ApiScribe.Proofs.Loading
import ApiScribe.Proofs.Schema.References
import ApiScribe.Schema.Synthesis

/-!
# What happens to the registry

Everything a run does to the registry is a sequence of a few steps: something is reported, a module
is requested, a comment is read, a name is given, a declaration is given up, a component is built,
an alias is expanded. Building and expanding enclose further steps, which come between taking a place
and filling it. Every statement about registries is proved once for these steps.
-/

namespace ApiScribe

namespace Registry

/-- The names of the components. -/
def componentNames (registry : Registry) : List String := registry.nodes.map Node.name

/-- What the comment of a declaration says, read from the table. -/
def commentOf (registry : Registry) (name : QualifiedName) : Comment.Container :=
  (Comment.Container.read (((registry.table.get? name).map Declaration.docs).getD []) name.display).1

/-- What the comment of a declaration said when it was read. -/
def comment? (registry : Registry) (name : QualifiedName) : Option Comment.Container :=
  (registry.containers.find? fun entry => entry.1 = name).map Prod.snd

/-- What the registry takes the comment of a declaration to say. -/
def commentFor (registry : Registry) (name : QualifiedName) : Comment.Container :=
  (registry.comment? name).getD (registry.commentOf name)

/-- Whether the registry takes a declaration to be opted in. -/
def isOptedIn (registry : Registry) (name : QualifiedName) : Bool :=
  registry.table.contains name && (registry.commentFor name).schema

/-- The registry with a comment read. -/
def withComment (registry : Registry) (name : QualifiedName) : Registry :=
  { registry with containers := (name, registry.commentOf name) :: registry.containers }

/-- The registry with other findings. -/
def withFindings (registry : Registry) (findings : List Finding) : Registry :=
  { registry with resolver := { registry.resolver with findings } }

/-- The registry with a place taken for a component. -/
def opened (registry : Registry) (name : QualifiedName) (component : String) : Registry :=
  { registry with
    nodes := registry.nodes ++ [⟨name, component, {}⟩]
    index := (name, registry.nodes.length) :: registry.index
    visiting := name :: registry.visiting }

/-- The registry with a component's schema in its place. -/
def closed (registry : Registry) (name : QualifiedName) (id : Nat) (schema : Schema) : Registry :=
  { registry with
    nodes := registry.nodes.modify id fun node => { node with schema }
    visiting := registry.visiting.erase name }

/-- What looking something up can do to a registry. -/
inductive Reads : Registry → Registry → Prop where
  | refl (registry : Registry) : Reads registry registry
  | trans {first middle last : Registry} (h : Reads first middle) (h' : Reads middle last) : Reads first last
  | note (registry : Registry) (findings : List Finding) : Reads registry (registry.withFindings findings)
  | load (registry : Registry) (module : ModulePath) :
      Reads registry { registry with resolver := registry.resolver.ensureModule module }
  | comment (registry : Registry) (name : QualifiedName) (hdeclared : registry.table.contains name = true)
      (hnew : registry.comment? name = none) : Reads registry (registry.withComment name)

instance : IsPreorder Registry Reads where
  refl := Reads.refl
  trans _ _ _ := Reads.trans

/-- What can happen to a registry without a change of its components. -/
inductive Prepares : Registry → Registry → Prop where
  | read {first last : Registry} (h : Reads first last) : Prepares first last
  | trans {first middle last : Registry} (h : Prepares first middle) (h' : Prepares middle last) :
      Prepares first last
  | entitle (registry : Registry) (name : QualifiedName) (preferred : String)
      (hnew : registry.names.get? name = none) :
      Prepares registry { registry with names := (registry.names.assign name preferred).2.1 }

instance : IsPreorder Registry Prepares where
  refl registry := .read (.refl registry)
  trans _ _ _ := Prepares.trans

/-- What a run can do to the registry. -/
inductive Advances : Registry → Registry → Prop where
  | prepare {first last : Registry} (h : Prepares first last) : Advances first last
  | trans {first middle last : Registry} (h : Advances first middle) (h' : Advances middle last) :
      Advances first last
  | giveUp (registry : Registry) (name : QualifiedName) {declaration : Declaration}
      (hget : registry.table.get? name = some declaration) (hshape : declaration.shape.isInterface = true) :
      Advances registry { registry with failed := name :: registry.failed }
  | build {first last : Registry} (name : QualifiedName) (component : String) (schema : Schema)
      {declaration : Declaration} (hget : first.table.get? name = some declaration)
      (hshape : declaration.shape.isInterface = false) (hopted : first.isOptedIn name = true)
      (hnew : first.indexOf? name = none) (hnamed : first.names.get? name = some component)
      (hinner : Advances (first.opened name component) last)
      (hschema : schema.ResolvesIn last.componentNames) :
      Advances first (last.closed name first.nodes.length schema)
  | expand {first last : Registry} (name : QualifiedName)
      (hinner : Advances { first with expanding := name :: first.expanding } last) :
      Advances first { last with expanding := last.expanding.erase name }

/-- A registry advances to itself. -/
theorem Advances.refl (registry : Registry) : Advances registry registry := .prepare (.read (.refl registry))

/-- Reading advances a registry. -/
theorem Advances.read {first last : Registry} (h : Reads first last) : Advances first last :=
  .prepare (.read h)

instance : IsPreorder Registry Advances where
  refl := Advances.refl
  trans _ _ _ := Advances.trans

/-- What calls can do to the registry: they may also ask for the comment of a name before it is declared. -/
inductive Steps : Registry → Registry → Prop where
  | advance {first last : Registry} (h : Advances first last) : Steps first last
  | trans {first middle last : Registry} (h : Steps first middle) (h' : Steps middle last) :
      Steps first last
  | comment (registry : Registry) (name : QualifiedName) (hnew : registry.comment? name = none) :
      Steps registry (registry.withComment name)

/-- A registry steps to itself. -/
theorem Steps.refl (registry : Registry) : Steps registry registry := .advance (.refl registry)

/-- What the resolver loads is read. -/
theorem Reads.loads {registry : Registry} {resolver : Resolver}
    (h : Resolver.Loads registry.resolver resolver) : Reads registry { registry with resolver } := by
  generalize hstart : registry.resolver = start at h
  induction h with
  | refl => exact hstart ▸ .refl registry
  | request module _ ih => exact ih.trans (.load _ module)

/-- What is the same before and after something is looked up. -/
structure Unchanged (first last : Registry) : Prop where
  nodes : last.nodes = first.nodes
  index : last.index = first.index
  visiting : last.visiting = first.visiting
  failed : last.failed = first.failed
  expanding : last.expanding = first.expanding

/-- What is unchanged twice is unchanged. -/
theorem Unchanged.trans {first middle last : Registry} (h : Unchanged first middle)
    (h' : Unchanged middle last) :
    Unchanged first last :=
  ⟨h'.nodes.trans h.nodes, h'.index.trans h.index, h'.visiting.trans h.visiting, h'.failed.trans h.failed,
    h'.expanding.trans h.expanding⟩

/-- Looking something up changes no component and no name. -/
theorem Reads.unchanged {first last : Registry} (h : Reads first last) :
    Unchanged first last ∧ last.names = first.names := by
  induction h with
  | refl => exact ⟨⟨rfl, rfl, rfl, rfl, rfl⟩, rfl⟩
  | trans _ _ ih ih' => exact ⟨ih.1.trans ih'.1, ih'.2.trans ih.2⟩
  | note => exact ⟨⟨rfl, rfl, rfl, rfl, rfl⟩, rfl⟩
  | load => exact ⟨⟨rfl, rfl, rfl, rfl, rfl⟩, rfl⟩
  | comment => exact ⟨⟨rfl, rfl, rfl, rfl, rfl⟩, rfl⟩

/-- What is declared stays declared when something is looked up. -/
theorem Reads.get? {first last : Registry} (h : Reads first last) {name : QualifiedName}
    {declaration : Declaration} (hget : first.table.get? name = some declaration) :
    last.table.get? name = some declaration := by
  induction h with
  | refl => exact hget
  | trans _ _ ih ih' => exact ih' (ih hget)
  | note => exact hget
  | load registry module => exact Resolver.get?_ensureModule hget module
  | comment => exact hget

/-- Reporting only reads. -/
theorem report_reads (subject : String) (cause : Cause) : Moves Reads (report subject cause) :=
  moves_modify fun registry => .note registry _

/-- Resolving only reads if it only loads. -/
theorem resolving_reads {α : Type} {action : Resolving α} (h : Moves Resolver.Loads action) :
    Moves Reads (resolving action) := fun registry => .loads (h registry.resolver)

/-- A comment that was read is known. -/
theorem container_run_known {registry : Registry} {name : QualifiedName} {comment : Comment.Container}
    (h : registry.comment? name = some comment) : (container name).run registry = (comment, registry) := by
  obtain ⟨entry, hentry, rfl⟩ := Option.map_eq_some_iff.mp h
  simp only [container, StateT.run_bind, StateT.run_get, pure_bind, hentry]
  rfl

/-- A comment is read from the table. -/
theorem container_run_new {registry : Registry} {name : QualifiedName} (h : registry.comment? name = none) :
    ∃ findings, (container name).run registry =
      (registry.commentOf name, (registry.withComment name).withFindings findings) := by
  have hentry := Option.map_eq_none_iff.mp h
  simp only [container, StateT.run_bind, StateT.run_get, pure_bind, hentry]
  exact ⟨_, rfl⟩

/-- The comment of a declaration is the one that is known or can be read. -/
theorem container_run_fst (name : QualifiedName) (registry : Registry) :
    ((container name).run registry).1 = registry.commentFor name := by
  cases h : registry.comment? name with
  | some comment => rw [container_run_known h, commentFor, h, Option.getD_some]
  | none =>
    obtain ⟨findings, hrun⟩ := container_run_new h
    rw [hrun, commentFor, h, Option.getD_none]

/-- The comment of a declaration is read at most once. -/
theorem container_reads {registry : Registry} {name : QualifiedName}
    (hdeclared : registry.table.contains name = true) : Reads registry ((container name).run registry).2 := by
  cases h : registry.comment? name with
  | some comment =>
    rw [container_run_known h]
    exact .refl registry
  | none =>
    obtain ⟨findings, hrun⟩ := container_run_new h
    rw [hrun]
    exact (Reads.comment registry name hdeclared h).trans (.note _ findings)

/-- Asking for a comment takes a step, whether or not the name is declared. -/
theorem container_steps (name : QualifiedName) (registry : Registry) :
    Steps registry ((container name).run registry).2 := by
  cases h : registry.comment? name with
  | some comment =>
    rw [container_run_known h]
    exact .refl registry
  | none =>
    obtain ⟨findings, hrun⟩ := container_run_new h
    rw [hrun]
    exact (Steps.comment registry name h).trans (.advance (.read (.note _ findings)))

/-- Whether a declaration is opted in is in its comment. -/
theorem isSchema_run_of_contains {registry : Registry} {name : QualifiedName}
    (h : registry.table.contains name = true) :
    (isSchema name).run registry =
      (((container name).run registry).1.schema, ((container name).run registry).2) := by
  rw [isSchema, StateT.run_bind, StateT.run_get, pure_bind, if_pos h]
  rfl

/-- What is not declared is not opted in. -/
theorem isSchema_run_of_not_contains {registry : Registry} {name : QualifiedName}
    (h : registry.table.contains name = false) : (isSchema name).run registry = (false, registry) := by
  rw [isSchema, StateT.run_bind, StateT.run_get, pure_bind, h, if_neg Bool.false_ne_true]
  rfl

/-- The answer is whether the declaration is opted in. -/
theorem isSchema_run_fst (name : QualifiedName) (registry : Registry) :
    ((isSchema name).run registry).1 = registry.isOptedIn name := by
  cases h : registry.table.contains name with
  | true => rw [isSchema_run_of_contains h, container_run_fst, isOptedIn, h, Bool.true_and]
  | false => rw [isSchema_run_of_not_contains h, isOptedIn, h, Bool.false_and]

/-- Asking whether a declaration is opted in only reads. -/
theorem isSchema_reads (name : QualifiedName) : Moves Reads (isSchema name) := by
  intro registry
  cases h : registry.table.contains name with
  | true =>
    rw [isSchema_run_of_contains h]
    exact container_reads h
  | false =>
    rw [isSchema_run_of_not_contains h]
    exact .refl registry

/-- A name that was given stays. -/
theorem componentName_run_known {registry : Registry} {name : QualifiedName} {component : String}
    (h : registry.names.get? name = some component) :
    (componentName name).run registry = (component, registry) := by
  simp only [componentName, StateT.run_bind, StateT.run_get, pure_bind, h]
  rfl

/-- A new name is given according to the comment. -/
theorem componentName_run_new {registry : Registry} {name : QualifiedName}
    (h : registry.names.get? name = none) :
    let reading := (container name).run registry
    let given := reading.2.names.assign name (reading.1.name.getD name.name)
    (componentName name).run registry =
      (given.1, { reading.2.addFindings given.2.2 with names := given.2.1 }) := by
  simp only [componentName, StateT.run_bind, StateT.run_get, pure_bind, h]
  rfl

/-- Naming a component prepares the registry and leaves the component named. -/
theorem componentName_prepares {name : QualifiedName} {registry : Registry}
    (hdeclared : registry.table.contains name = true) :
    Prepares registry ((componentName name).run registry).2 ∧
      ((componentName name).run registry).2.names.get? name = some ((componentName name).run registry).1 := by
  cases h : registry.names.get? name with
  | some component =>
    rw [componentName_run_known h]
    exact ⟨.read (.refl registry), h⟩
  | none =>
    have hread := container_reads hdeclared
    have hrun := componentName_run_new h
    set reading := (container name).run registry with hreading
    have hnew : reading.2.names.get? name = none := by rw [hread.unchanged.2, h]
    obtain ⟨given, hgiven, hassigned, -⟩ :=
      ComponentNames.assign_eq_give (reading.1.name.getD name.name) hnew
    rw [hrun]
    refine ⟨((Prepares.read hread).trans (.entitle reading.2 name _ hnew)).trans (.read (.note _ _)), ?_⟩
    rw [hassigned, hgiven]
    exact ComponentNames.get?_give_self given hnew

/-- Asking which declarations are opted in only reads. -/
theorem optedIn_reads (names : List QualifiedName) : Moves Reads (optedIn names) := by
  induction names with
  | nil => exact moves_pure []
  | cons name rest ih =>
    exact moves_bind (isSchema_reads name) fun _ => moves_bind ih fun _ => moves_pure _

/-- Asking for all that is opted in only reads. -/
theorem schemaDeclarations_reads : Moves Reads schemaDeclarations :=
  moves_bind moves_get fun registry => optedIn_reads registry.table.names

/-- What is opted in is among the names asked about. -/
theorem optedIn_subset (names : List QualifiedName) (registry : Registry) :
    ((optedIn names).run registry).1 ⊆ names := by
  induction names generalizing registry with
  | nil => exact fun _ h => h
  | cons name rest ih =>
    intro other hother
    have hrun : ((optedIn (name :: rest)).run registry).1 =
        if ((isSchema name).run registry).1 then
          name :: ((optedIn rest).run ((isSchema name).run registry).2).1
        else ((optedIn rest).run ((isSchema name).run registry).2).1 := rfl
    rw [hrun] at hother
    split at hother
    · exact List.cons_subset_cons _ (ih _) hother
    · exact List.mem_cons_of_mem _ (ih _ hother)

/-- All names are declared. -/
def Declares (names : List QualifiedName) (registry : Registry) : Prop :=
  ∀ name ∈ names, registry.table.contains name = true

/-- What is declared stays declared. -/
theorem Prepares.declares {first last : Registry} (h : Prepares first last) {names : List QualifiedName}
    (hfirst : first.Declares names) : last.Declares names := by
  induction h with
  | read h =>
    intro name hname
    obtain ⟨declaration, hget⟩ := Option.isSome_iff_exists.mp (hfirst name hname)
    exact Option.isSome_iff_exists.mpr ⟨declaration, h.get? hget⟩
  | trans _ _ ih ih' => exact ih' (ih hfirst)
  | entitle => exact hfirst

/-- Naming declarations one after another prepares the registry. -/
theorem componentName_forM_prepares {candidates chosen : List QualifiedName} (h : chosen ⊆ candidates) :
    Moves (Keeping (Declares candidates) Prepares) (chosen.forM fun name => do let _ ← componentName name) := by
  refine moves_forM fun name hname => moves_bind (fun state hstate => ?_) fun _ => moves_pure _
  have hprepares := (componentName_prepares (hstate name (h hname))).1
  exact ⟨hprepares, hprepares.declares hstate⟩

/-- Naming everything that is opted in prepares the registry. -/
theorem assignNames_prepares : Moves Prepares assignNames := by
  intro registry
  have hcandidates := schemaDeclarations_reads registry
  have hsubset : (schemaDeclarations.run registry).1 ⊆ registry.table.names := optedIn_subset _ registry
  -- Only declared names are asked for their comment, so the candidates must stay declared.
  have hdeclared : (schemaDeclarations.run registry).2.Declares (schemaDeclarations.run registry).1 := by
    refine (Prepares.read hcandidates).declares fun name hname => ?_
    exact (Table.contains_iff_mem_names _ _).mpr (hsubset hname)
  set candidates := (schemaDeclarations.run registry).1
  have hfilter (test : Comment.Container → Bool) : Moves (Keeping (Declares candidates) Prepares)
      (candidates.filterM fun name => do return test (← container name)) := by
    refine moves_filterM fun name hname => moves_bind (fun state hstate => ?_) fun _ => moves_pure _
    have hread := Prepares.read (container_reads (hstate name hname))
    exact ⟨hread, hread.declares hstate⟩
  obtain ⟨hasked, hdeclared'⟩ := hfilter (fun comment => comment.name.isSome) _ hdeclared
  have haskedSubset := filterM_subset (fun name => do return (← container name).name.isSome) candidates
    (schemaDeclarations.run registry).2
  set asked := (candidates.filterM fun name => do return (← container name).name.isSome).run
    (schemaDeclarations.run registry).2
  obtain ⟨hothers, hdeclared''⟩ := hfilter (fun comment => comment.name.isNone) _ hdeclared'
  have hothersSubset := filterM_subset (fun name => do return (← container name).name.isNone) candidates asked.2
  obtain ⟨hnames, -⟩ :=
    componentName_forM_prepares (List.append_subset.mpr ⟨haskedSubset, hothersSubset⟩) _ hdeclared''
  exact (((Prepares.read hcandidates).trans hasked).trans hothers).trans hnames

section Answers

variable {holds : Registry → Prop} {table : Table} {comment : QualifiedName → Comment.Container}

/-- The same declarations are opted in as long as the table and the comments stay what they are. -/
theorem isSchema_gives_of
    (htable : ∀ registry, holds registry → registry.table.declarations = table.declarations)
    (hcomment : ∀ name, Gives holds (container name) (comment name)) (name : QualifiedName) :
    Gives holds (isSchema name) (table.contains name && (comment name).schema) := by
  unfold isSchema
  refine gives_get_bind fun registry h => ?_
  have hcontains : registry.table.contains name = table.contains name := by
    rw [Table.contains, Table.get?, htable registry h, Table.contains, Table.get?]
  rw [hcontains]
  cases table.contains name with
  | false => exact gives_pure false
  | true => exact gives_bind (hcomment name) (gives_pure _)

/-- The same holds for a list of declarations. -/
theorem optedIn_gives_of
    (htable : ∀ registry, holds registry → registry.table.declarations = table.declarations)
    (hcomment : ∀ name, Gives holds (container name) (comment name)) (names : List QualifiedName) :
    Gives holds (optedIn names) (names.filter fun name => table.contains name && (comment name).schema) := by
  induction names with
  | nil => exact gives_pure []
  | cons name rest ih =>
    refine gives_bind (isSchema_gives_of htable hcomment name) (gives_bind ih ?_)
    rw [List.filter_cons]
    exact gives_pure _

/-- The same holds for all declarations of the table. -/
theorem schemaDeclarations_gives_of
    (htable : ∀ registry, holds registry → registry.table.declarations = table.declarations)
    (hcomment : ∀ name, Gives holds (container name) (comment name)) :
    Gives holds schemaDeclarations
      (table.names.filter fun name => table.contains name && (comment name).schema) := by
  refine gives_get_bind fun registry h => ?_
  have hnames : registry.table.names = table.names := by
    rw [Table.names, htable registry h, Table.names]
  rw [hnames]
  exact optedIn_gives_of htable hcomment table.names

end Answers

/-- Asking what is pending only reads. -/
theorem pending_reads : Moves Reads pending :=
  moves_bind schemaDeclarations_reads fun _ => moves_bind moves_get fun _ => moves_pure _

end Registry

namespace Synthesis

open Registry

/-- Looking up a path only reads. -/
theorem lookup_reads (segments : List String) (scope : ModulePath) :
    Moves Reads (lookup segments scope) := by
  unfold lookup
  refine moves_bind (resolving_reads (Resolver.lookup_moves segments scope)) fun found => ?_
  split
  · exact moves_pure _
  · split
    · exact moves_bind moves_get fun _ => moves_pure _
    · exact moves_pure none

/-- Looking up a library name only reads. -/
theorem undeclaredWellKnown_reads (name : String) (scope : ModulePath) :
    Moves Reads (undeclaredWellKnown name scope) := by
  unfold undeclaredWellKnown
  split
  · exact moves_pure none
  · refine moves_bind (resolving_reads (Resolver.lookup_moves [name] scope)) fun found => ?_
    split
    · exact moves_pure none
    · exact moves_pure _

/-- Giving the values of an enum only reads. -/
theorem enumValues_reads (declaration : Declaration) (variants : List VariantDeclaration) :
    Moves Reads (enumValues declaration variants) := by
  induction variants with
  | nil => exact moves_pure []
  | cons variant rest ih =>
    unfold enumValues
    split
    · exact ih
    · split
      · exact moves_bind (report_reads _ _) fun _ => ih
      · exact moves_bind ih fun _ => moves_pure _

end Synthesis

end ApiScribe
