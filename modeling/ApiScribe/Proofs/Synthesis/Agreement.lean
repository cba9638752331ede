import ApiScribe.Proofs.Registry.Calls
import ApiScribe.Proofs.Synthesis.Findings

/-!
# Comments and fields agree

A type is looked up in two ways. In a comment every declared name must be a component, which is cited by
reference. In a field any declared name will do, and one that is no component is shown by its shape. The first
way asks whether the name is opted in before it asks for the component, and it does not mind the keys of maps.
Neither makes a difference: whatever a comment may cite, a field shows in the same way, and the registry is
left with the same components, names and declarations.
-/

namespace ApiScribe

namespace Registry

/-- A registry that a run can be in: between two calls, or in the middle of one, while components are being
built and aliases are being expanded. -/
inductive Reachable : Registry → Prop where
  | start (resolver : Resolver) : Reachable (ofResolver resolver)
  | steps {first last : Registry} (h : Reachable first) (hsteps : Steps first last) : Reachable last
  /-- A component is being built. -/
  | opened {registry : Registry} (h : Reachable registry) {name : QualifiedName} {component : String}
      (hnew : registry.indexOf? name = none) (hnamed : registry.names.get? name = some component) :
      Reachable (registry.opened name component)
  /-- An alias is being expanded. -/
  | expanding {registry : Registry} (h : Reachable registry) (name : QualifiedName) :
      Reachable { registry with expanding := name :: registry.expanding }

/-- A run keeps the registry sound at every moment. -/
theorem Reachable.sound {registry : Registry} (h : registry.Reachable) : registry.Sound := by
  induction h with
  | start resolver => exact (ofResolver_prepares resolver).sound (sound_ofEmpty resolver)
  | steps _ hsteps ih => exact hsteps.sound ih
  | opened _ hnew hnamed ih => exact ih.opened hnew hnamed
  | expanding _ name ih => exact { ih with }

/-- Two registries with the same components, component names and declarations. -/
structure Matches (registry other : Registry) : Prop where
  nodes : other.nodes = registry.nodes
  index : other.index = registry.index
  names : other.names = registry.names
  table : other.table = registry.table

/-- A comment that was asked for is known. -/
theorem comment?_container_run (name : QualifiedName) (registry : Registry) :
    ((container name).run registry).2.comment? name = some ((container name).run registry).1 := by
  cases h : registry.comment? name with
  | some comment => rw [container_run_known h, h]
  | none =>
    obtain ⟨findings, hrun⟩ := container_run_new h
    rw [hrun]
    simp [comment?, withComment, withFindings]

variable {name : QualifiedName} {first asked : Registry}

/-- Asking whether a declaration is opted in leaves the declarations as they are. -/
theorem matches_of_isSchema (h : (isSchema name).run first = (true, asked)) : Matches asked first := by
  have hreads := (isSchema_reads name).of_run h
  have htable : asked.table = first.table := by
    cases hcontains : first.table.contains name with
    | false =>
      rw [isSchema_run_of_not_contains hcontains] at h
      cases h
    | true =>
      rw [isSchema_run_of_contains hcontains] at h
      have hasked : asked = ((container name).run first).2 := (congrArg Prod.snd h).symm
      rw [hasked]
      cases hcomment : first.comment? name with
      | some comment => rw [container_run_known hcomment]
      | none =>
        obtain ⟨findings, hrun⟩ := container_run_new hcomment
        rw [hrun]
        rfl
  exact ⟨hreads.unchanged.1.nodes.symm, hreads.unchanged.1.index.symm, hreads.unchanged.2.symm, htable.symm⟩

/-- Asking again whether a declaration is opted in does nothing. -/
theorem isSchema_run_again (h : (isSchema name).run first = (true, asked)) :
    (isSchema name).run asked = (true, asked) := by
  have htable := (matches_of_isSchema h).table
  cases hcontains : first.table.contains name with
  | false =>
    rw [isSchema_run_of_not_contains hcontains] at h
    cases h
  | true =>
    rw [isSchema_run_of_contains hcontains] at h
    have hcomment := comment?_container_run name first
    obtain ⟨hschema, hasked⟩ := Prod.mk.inj h
    rw [hasked] at hcomment
    rw [isSchema_run_of_contains (htable ▸ hcontains), container_run_known hcomment]
    exact congrArg (·, asked) hschema

end Registry

namespace Synthesis

open Registry

variable {rules : Recursion} {name : QualifiedName} {first asked last : Registry}

/-- It makes no difference to a component that is given whether its declaration was asked for being opted in
before. -/
theorem component_run_asked {id : Nat} (hasked : (isSchema name).run first = (true, asked))
    (hrun : (component rules name).run asked = some (some id, last)) :
    ∃ other, (component rules name).run first = some (some id, other) ∧ Matches last other := by
  have hmatches := matches_of_isSchema hasked
  have hsame := ((isSchema_reads name).of_run hasked).unchanged.1
  have hindex : asked.indexOf? name = first.indexOf? name := indexOf?_congr hsame.index name
  unfold component at hrun ⊢
  rw [StateT.run_bind, StateT.run_get, pure_bind] at hrun ⊢
  rw [hindex] at hrun
  cases hfirst : first.indexOf? name with
  | some known =>
    rw [hfirst] at hrun
    cases hrun
    exact ⟨first, rfl, hmatches⟩
  | none =>
    rw [hfirst] at hrun
    dsimp only at hrun ⊢
    rw [StateT.run_bind, StateT.run_get, pure_bind] at hrun ⊢
    rw [hsame.failed] at hrun
    split at hrun
    · cases hrun
    · next hfailed =>
      -- The comment has been read, so the second question changes nothing and both runs go on alike.
      rw [if_neg hfailed, run_liftM_bind, hasked]
      rw [run_liftM_bind, isSchema_run_again hasked] at hrun
      exact ⟨last, hrun, rfl, rfl, rfl, rfl⟩

/-- What a path in a comment stands for: the component of the declaration that it leads to. -/
theorem strictPath_eq_ok {segments : List String} {scope : ModulePath} {schema : Schema}
    (hrun : (strictPath rules segments scope).run first = some (.ok schema, last)) :
    ∃ name id found asked, (lookup segments scope).run first = (some name, found) ∧
      (isSchema name).run found = (true, asked) ∧
      (rules.component name).run asked = some (some id, last) ∧
      (referenceTo id).run last = (schema, last) := by
  unfold strictPath at hrun
  dsimp only at hrun
  rw [run_liftM_bind] at hrun
  rcases hlookup : (lookup segments scope).run first with ⟨target, found⟩
  rw [hlookup] at hrun
  cases target with
  | none => cases hrun
  | some name =>
    dsimp only at hrun
    rw [run_liftM_bind] at hrun
    rcases hchosen : (isSchema name).run found with ⟨chosen, asked⟩
    rw [hchosen] at hrun
    cases chosen with
    | false => cases hrun
    | true =>
      dsimp only at hrun
      rw [if_pos rfl] at hrun
      obtain ⟨⟨result, built⟩, hcomponent, hrest⟩ := Option.bind_eq_some_iff.mp hrun
      cases result with
      | none => cases hrest
      | some id =>
        cases hrest
        exact ⟨name, id, found, asked, rfl, hchosen, hcomponent, rfl⟩

/-- What a path in a comment may cite is shown alike in a field. -/
theorem resolvePath_of_strictPath {segments : List String} {scope : ModulePath} {schema : Schema}
    (subject : String) (hrun : (strictPath .unbounded segments scope).run first = some (.ok schema, last)) :
    ∃ other, (resolvePath .unbounded segments scope subject).run first = some (some schema, other) ∧
      Matches last other := by
  obtain ⟨name, id, found, asked, hlookup, hasked, hcomponent, hreference⟩ := strictPath_eq_ok hrun
  rw [← component_unbounded] at hcomponent
  obtain ⟨other, hother, hmatches⟩ := component_run_asked hasked hcomponent
  rw [component_unbounded] at hother
  refine ⟨other, ?_, hmatches⟩
  have hreference' : (referenceTo id).run other = (schema, other) := by
    have hschema : ((last.nodes[id]?).map fun node => Schema.referenceTo node.name).getD {} = schema :=
      congrArg Prod.fst hreference
    rw [← hschema, ← hmatches.nodes]
    rfl
  unfold resolvePath
  rw [run_liftM_bind, hlookup]
  dsimp only
  rw [StateT.run_bind, hother, Option.bind_eq_bind, Option.bind_some, run_liftM_bind, hreference']
  rfl

/-- A wrapped schema comes from one that was given. -/
theorem run_map_eq_ok {action : Build (Except ReferenceFault Schema)} {wrap : Schema → Schema} {schema : Schema}
    (hrun : (do return (← action).map wrap : Build _).run first = some (.ok schema, last)) :
    ∃ inner, action.run first = some (.ok inner, last) ∧ schema = wrap inner := by
  obtain ⟨⟨result, middle⟩, hresult, hpure⟩ := Option.bind_eq_some_iff.mp hrun
  cases result with
  | error fault => cases hpure
  | ok inner =>
    cases hpure
    exact ⟨inner, hresult, rfl⟩

/-- What a comment may cite is shown alike in a field. -/
theorem resolve_of_strict {scope : ModulePath} {type : TypeExpr} {schema : Schema} (subject : String)
    (hrun : (strict .unbounded scope type).run first = some (.ok schema, last)) :
    ∃ other, (resolve .unbounded scope subject type).run first = some (some schema, other) ∧
      Matches last other := by
  induction type generalizing schema with
  | primitive primitive | any =>
    cases hrun
    exact ⟨first, rfl, rfl, rfl, rfl, rfl⟩
  | unsupported what => cases hrun
  | pointer inner ih => exact ih hrun
  | array inner ih =>
    obtain ⟨inner', hinner, rfl⟩ := run_map_eq_ok hrun
    obtain ⟨other, hother, hmatches⟩ := ih hinner
    exact ⟨other, run_map hother _, hmatches⟩
  | map key value _ ih =>
    obtain ⟨inner, hinner, rfl⟩ := run_map_eq_ok hrun
    obtain ⟨other, hother, hmatches⟩ := ih hinner
    have hvalue : (do return (← resolve .unbounded scope subject value).map Schema.mapOf : Build _).run first =
        some (some (Schema.mapOf inner), other) := run_map hother _
    by_cases hkey : key.isTextLike = true
    · refine ⟨other, ?_, hmatches⟩
      simpa [resolve, hkey] using hvalue
    · -- The report in front changes the findings only.
      have hlogs : Logs (do return (← resolve .unbounded scope subject value).map Schema.mapOf : Build _) :=
        (resolve_logs Recursion.unbounded_logs scope subject value).bind fun _ => .pure _
      obtain ⟨findings, hreported⟩ := hlogs.run_withFindings hvalue (first.findings ++ [⟨subject, .mapKeyNotText⟩])
      refine ⟨other.withFindings findings, ?_, { hmatches with }⟩
      rw [← hreported]
      simp only [resolve, hkey, Bool.not_false, if_true]
      rfl
  | named name =>
    unfold strict at hrun
    rw [run_liftM_bind] at hrun
    rcases hknown : (undeclaredWellKnown name scope).run first with ⟨known, before⟩
    rw [hknown] at hrun
    cases known with
    | some known =>
      cases hrun
      refine ⟨before, ?_, rfl, rfl, rfl, rfl⟩
      unfold resolve
      rw [run_liftM_bind, hknown]
      rfl
    | none =>
      obtain ⟨other, hother, hmatches⟩ := resolvePath_of_strictPath subject hrun
      refine ⟨other, ?_, hmatches⟩
      unfold resolve
      rw [run_liftM_bind, hknown]
      exact hother
  | selector qualifier name => exact resolvePath_of_strictPath subject hrun

/-- A path leads to an opted-in declaration, and the schema is a reference to its component. -/
def CitesComponent (segments : List String) (scope : ModulePath) (first last : Registry) (schema : Schema) :
    Prop :=
  ∃ name node, ((lookup segments scope).run first).1 = some name ∧ last.nodeFor? name = some node ∧
    node.canonical = name ∧ ((isSchema name).run last).1 = true ∧ schema = Schema.referenceTo node.name

/-- A schema that cites the type: the name at its core is a library name that nothing declares, or a component
is referred to. Nothing is shown by its shape. -/
inductive Cites (scope : ModulePath) (first last : Registry) : TypeExpr → Schema → Prop where
  | primitive (primitive : Primitive) :
      Cites scope first last (.primitive primitive) (Schema.ofPrimitive primitive)
  | any : Cites scope first last .any {}
  | pointer {inner : TypeExpr} {schema : Schema} (h : Cites scope first last inner schema) :
      Cites scope first last (.pointer inner) schema
  | array {inner : TypeExpr} {schema : Schema} (h : Cites scope first last inner schema) :
      Cites scope first last (.array inner) (Schema.arrayOf schema)
  | map (key : TypeExpr) {value : TypeExpr} {schema : Schema} (h : Cites scope first last value schema) :
      Cites scope first last (.map key value) (Schema.mapOf schema)
  | builtIn {name : String} {known : TypeExpr} (hknown : TypeExpr.wellKnown? name = some known)
      (hfree : ((Resolver.lookup [name] scope).run first.resolver).1 = none) :
      Cites scope first last (.named name) (wellKnownSchema known)
  | named {name : String} {before : Registry} {schema : Schema}
      (hbefore : (undeclaredWellKnown name scope).run first = (none, before))
      (h : CitesComponent [name] scope before last schema) : Cites scope first last (.named name) schema
  | selector (qualifier : List String) (name : String) {schema : Schema}
      (h : CitesComponent (qualifier ++ [name]) scope first last schema) :
      Cites scope first last (.selector qualifier name) schema

/-- The schema of a well-known type has no properties. -/
theorem properties_wellKnownSchema (known : TypeExpr) : (wellKnownSchema known).properties = [] := by
  unfold wellKnownSchema
  split
  · next primitive => cases primitive <;> rfl
  · rfl

/-- A schema that cites a type has no properties. -/
theorem Cites.properties_eq_nil {scope : ModulePath} {type : TypeExpr} {schema : Schema}
    (h : Cites scope first last type schema) : schema.properties = [] := by
  induction h with
  | primitive primitive => cases primitive <;> rfl
  | any | array | map => rfl
  | pointer _ ih => exact ih
  | builtIn => exact properties_wellKnownSchema _
  | named _ h | selector _ _ h =>
    obtain ⟨_, _, -, -, -, -, rfl⟩ := h
    rfl

/-- A path in a comment cites a component. -/
theorem citesComponent_of_strictPath {segments : List String} {scope : ModulePath} {schema : Schema}
    (hfirst : first.Sound) (hrun : (strictPath .unbounded segments scope).run first = some (.ok schema, last)) :
    CitesComponent segments scope first last schema := by
  obtain ⟨name, id, found, asked, hlookup, hasked, hcomponent, hreference⟩ := strictPath_eq_ok hrun
  have hreads : Reads first asked :=
    ((lookup_reads segments scope).of_run hlookup).trans ((isSchema_reads name).of_run hasked)
  obtain ⟨result, built, hsynthesize, hadvances, hindex⟩ := synthesize_run name asked
  have hend : (result, built) = (some id, last) := hsynthesize.symm.trans (Option.some.inj hcomponent)
  obtain ⟨rfl, rfl⟩ := Prod.mk.inj hend
  have hnumber : built.indexOf? name = some id := hindex id rfl
  have hsound : built.Sound := hadvances.sound (hreads.sound hfirst)
  obtain ⟨node, hnode, hcanonical⟩ := hsound.index.indexOf?_eq_some_iff.mp hnumber
  have hopted : asked.isOptedIn name = true := by
    rw [← isSchema_run_fst, isSchema_run_again hasked]
  refine ⟨name, node, by rw [hlookup], ?_, hcanonical, ?_, ?_⟩
  · rw [nodeFor?, hnumber]
    exact hnode
  · rw [isSchema_run_fst]
    exact hadvances.grows.isOptedIn hopted
  · have hschema : ((built.nodes[id]?).map fun node => Schema.referenceTo node.name).getD {} = schema :=
      congrArg Prod.fst hreference
    rw [← hschema, hnode]
    rfl

/-- A built-in reading is that of a library name that nothing in scope declares. -/
theorem undeclaredWellKnown_eq_some {name : String} {scope : ModulePath} {known : TypeExpr} {before : Registry}
    (h : (undeclaredWellKnown name scope).run first = (some known, before)) :
    TypeExpr.wellKnown? name = some known ∧ ((Resolver.lookup [name] scope).run first.resolver).1 = none := by
  unfold undeclaredWellKnown at h
  cases hknown : TypeExpr.wellKnown? name with
  | none =>
    rw [hknown] at h
    cases h
  | some other =>
    rw [hknown] at h
    dsimp only at h
    have hlookup : ((resolving (Resolver.lookup [name] scope)).run first).1 =
        ((Resolver.lookup [name] scope).run first.resolver).1 := rfl
    rw [← hlookup]
    rw [StateT.run_bind] at h
    rcases hfound : (resolving (Resolver.lookup [name] scope)).run first with ⟨found, after⟩
    rw [hfound] at h
    cases found with
    | some found => cases h
    | none =>
      cases h
      exact ⟨rfl, rfl⟩

/-- What a comment stands for cites its type. -/
theorem cites_of_strict {scope : ModulePath} {type : TypeExpr} {schema : Schema} (hfirst : first.Sound)
    (hrun : (strict .unbounded scope type).run first = some (.ok schema, last)) :
    Cites scope first last type schema := by
  induction type generalizing schema with
  | primitive primitive =>
    cases hrun
    exact .primitive primitive
  | any =>
    cases hrun
    exact .any
  | unsupported what => cases hrun
  | pointer inner ih => exact .pointer (ih hrun)
  | array inner ih =>
    obtain ⟨inner', hinner, rfl⟩ := run_map_eq_ok hrun
    exact .array (ih hinner)
  | map key value _ ih =>
    obtain ⟨inner, hinner, rfl⟩ := run_map_eq_ok hrun
    exact .map key (ih hinner)
  | named name =>
    unfold strict at hrun
    rw [run_liftM_bind] at hrun
    rcases hknown : (undeclaredWellKnown name scope).run first with ⟨known, before⟩
    rw [hknown] at hrun
    cases known with
    | some known =>
      cases hrun
      obtain ⟨hbuiltIn, hfree⟩ := undeclaredWellKnown_eq_some hknown
      exact .builtIn hbuiltIn hfree
    | none =>
      have hbefore := ((undeclaredWellKnown_reads name scope).of_run hknown).sound hfirst
      exact .named hknown (citesComponent_of_strictPath hbefore hrun)
  | selector qualifier name => exact .selector qualifier name (citesComponent_of_strictPath hfirst hrun)

/-- The two ways to look up a type agree. If a comment may cite a type at some moment of a run, a field of that
type shows the same schema at that moment and leaves the same components, component names and declarations.
The schema has no properties, and it cites the type: the declared name at its core is a reference to a
component. -/
theorem resolve_agrees_with_strict (hfirst : first.Reachable) (scope : ModulePath) (subject : String)
    (type : TypeExpr) {schema : Schema}
    (hrun : (strict .unbounded scope type).run first = some (.ok schema, last)) :
    (∃ other, (resolve .unbounded scope subject type).run first = some (some schema, other) ∧
      other.nodes = last.nodes ∧ other.index = last.index ∧ other.names = last.names ∧
      other.table = last.table) ∧
    schema.properties = [] ∧ Cites scope first last type schema := by
  have hcites := cites_of_strict hfirst.sound hrun
  obtain ⟨other, hother, hmatches⟩ := resolve_of_strict subject hrun
  exact ⟨⟨other, hother, hmatches.nodes, hmatches.index, hmatches.names, hmatches.table⟩,
    hcites.properties_eq_nil, hcites⟩

/-- A map to lists of a type that refers to itself, by keys that are not text, is shown in a field as it is
cited in a comment. -/
theorem resolve_agrees_with_strict_pets :
    let first := ofResolver petResolver
    let type : TypeExpr := .map (.primitive .u8) (.array (.named "Pet"))
    let schema := Schema.mapOf (Schema.arrayOf (Schema.referenceTo "Pet"))
    (∃ last, (strict .unbounded .root type).run first = some (.ok schema, last)) ∧
    ∃ other, (resolve .unbounded .root "crate::Owner.pets" type).run first = some (some schema, other) := by
  intro first type schema
  have hrun : (strict .unbounded .root type).run first =
    some (.ok schema, ((synthesize ⟨.root, "Pet"⟩).run first).2) := rfl
  obtain ⟨⟨other, hother, -⟩, -⟩ :=
    resolve_agrees_with_strict (.start petResolver) .root "crate::Owner.pets" type hrun
  exact ⟨⟨_, hrun⟩, other, hother⟩

end Synthesis

end ApiScribe
