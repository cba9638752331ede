import ApiScribe.Proofs.Registry.Room

/-!
# Building completes

The rules of a depth are enough for a registry with less room than the depth. Every rule then ends, by
steps of the registry, and a schema that it gives refers to components only.
-/

namespace ApiScribe

namespace Registry

/-- The answer to a request for a component: its number, or none if the name is not opted in or was given
up. -/
def Answers (registry : Registry) (name : QualifiedName) : Option Nat → Prop
  | some id => registry.indexOf? name = some id
  | none => registry.isOptedIn name = true → name ∈ registry.failed

/-- Every reference in the schema leads to a component of the registry. -/
def Covers (registry : Registry) (schema : Schema) : Prop := schema.ResolvesIn registry.componentNames

/-- A schema that is covered stays covered. -/
theorem Covers.grows {first last : Registry} {schema : Schema} (h : first.Covers schema)
    (hgrows : Grows first last) : last.Covers schema :=
  h.mono hgrows.componentNames_subset

/-- The node of a component covers references to it. -/
theorem covers_referenceTo {registry : Registry} {id : Nat} {node : Node}
    (h : registry.nodes[id]? = some node) :
    registry.Covers (Schema.referenceTo node.name) :=
  Schema.resolvesIn_referenceTo (List.mem_map_of_mem (List.mem_of_getElem? h))

end Registry

open Registry

variable {α β : Type} {names : List QualifiedName} {depth : Nat}

/-- An action that cannot fail runs before the next one. -/
theorem run_liftM_bind (action : StateM Registry α) (next : α → Build β) (registry : Registry) :
    (liftM action >>= next : Build β).run registry =
      (next (action.run registry).1).run (action.run registry).2 := rfl

/-- What is done with the result of an action, if there is one, changes nothing else. -/
theorem run_map {action : Build (Option α)} {first last : Registry} {value : Option α}
    (hrun : action.run first = some (value, last)) (wrap : α → β) :
    (do return (← action).map wrap : Build _).run first = some (value.map wrap, last) := by
  rw [StateT.run_bind, hrun]
  rfl

/-- From every registry that fits, the action ends, by steps of the registry, as described. -/
def Completes (names : List QualifiedName) (depth : Nat) (before : Registry → Prop) (action : Build α)
    (after : α → Registry → Prop) : Prop :=
  ∀ first, first.Fits names depth → before first →
    ∃ value last, action.run first = some (value, last) ∧ Advances first last ∧ after value last

/-- What an action needs to complete, if it needs nothing but a registry that fits. -/
abbrev CompletesAlways (names : List QualifiedName) (depth : Nat) (action : Build α)
    (after : α → Registry → Prop) : Prop :=
  Completes names depth (fun _ => True) action after

namespace Completes

variable {before : Registry → Prop} {action : Build α} {after : α → Registry → Prop}

/-- An action that does nothing completes. -/
theorem pure {value : α} (h : ∀ registry, before registry → after value registry) :
    Completes names depth before (pure value) after :=
  fun first _ hbefore => ⟨value, first, rfl, .refl first, h first hbefore⟩

/-- Actions complete one after another. -/
theorem bind {middle : α → Registry → Prop} {next : α → Build β} {after : β → Registry → Prop}
    (h : Completes names depth before action middle)
    (hnext : ∀ value, Completes names depth (middle value) (next value) after) :
    Completes names depth before (action >>= next) after := by
  intro first hfits hbefore
  obtain ⟨value, state, hrun, hsteps, hmiddle⟩ := h first hfits hbefore
  obtain ⟨result, last, hrun', hsteps', hafter⟩ := hnext value state (hfits.grows hsteps.grows) hmiddle
  refine ⟨result, last, ?_, hsteps.trans hsteps', hafter⟩
  rw [StateT.run_bind, hrun]
  exact hrun'

/-- An action that looks something up completes. -/
theorem reading {action : StateM Registry α} (h : Moves Reads action)
    (hafter : ∀ registry, before registry → after (action.run registry).1 (action.run registry).2) :
    Completes names depth before (liftM action) after :=
  fun first _ hbefore => ⟨_, _, rfl, .read (h first), hafter first hbefore⟩

/-- An action that looks something up completes whatever it gives. -/
theorem reads {action : StateM Registry α} (h : Moves Reads action) :
    Completes names depth before (liftM action) fun _ _ => True :=
  reading h fun _ _ => trivial

/-- An action that starts by reading the registry completes if the rest does from every registry. -/
theorem withState {next : Registry → Build α}
    (h : ∀ registry, before registry →
      Completes names depth (fun first => first = registry) (next registry) after) :
    Completes names depth before (get >>= next) after :=
  fun first hfits hbefore => h first hbefore first hfits rfl

/-- What is covered before an action is covered after it. -/
theorem keeping (h : CompletesAlways names depth action after) (schema : Schema) :
    Completes names depth (fun registry => registry.Covers schema) action
      (fun value registry => after value registry ∧ registry.Covers schema) := by
  intro first hfits hcovers
  obtain ⟨value, last, hrun, hsteps, hafter⟩ := h first hfits trivial
  exact ⟨value, last, hrun, hsteps, hafter, hcovers.grows hsteps.grows⟩

/-- What is asked before may be strengthened, and what holds after may be weakened. -/
theorem mono {before' : Registry → Prop} {after' : α → Registry → Prop}
    (h : Completes names depth before action after) (hbefore : ∀ registry, before' registry → before registry)
    (hafter : ∀ value registry, after value registry → after' value registry) :
    Completes names depth before' action after' := by
  intro first hfits hfirst
  obtain ⟨value, last, hrun, hsteps, hlast⟩ := h first hfits (hbefore first hfirst)
  exact ⟨value, last, hrun, hsteps, hafter value last hlast⟩

end Completes

/-- Rules that complete and give schemas that the registry covers. -/
structure Recursion.Complete (names : List QualifiedName) (depth : Nat) (rules : Recursion) : Prop where
  component : ∀ name, CompletesAlways names depth (rules.component name) fun result registry =>
    registry.Answers name result
  inline : ∀ name subject, CompletesAlways names depth (rules.inline name subject) fun schema registry =>
    registry.Covers schema

namespace Synthesis

variable {rules : Recursion}

/-- A reference to a component is covered. -/
theorem referenceTo_completes {before : Registry → Prop} (id : Nat) :
    Completes names depth before (liftM (referenceTo id)) fun schema registry => registry.Covers schema := by
  refine .reading (fun registry => .refl registry) fun registry _ => ?_
  change registry.Covers (((registry.nodes[id]?).map fun node => Schema.referenceTo node.name).getD {})
  cases h : registry.nodes[id]? with
  | none => exact Schema.resolvesIn_of_not_refers _ Schema.not_refers_empty
  | some node => exact covers_referenceTo h

/-- The schema of a path is found or missed, and it is covered. -/
theorem resolvePath_completes (h : rules.Complete names depth) (segments : List String) (scope : ModulePath)
    (subject : String) :
    CompletesAlways names depth (resolvePath rules segments scope subject) fun result registry =>
      ∀ schema ∈ result, registry.Covers schema := by
  unfold resolvePath
  refine (Completes.reads (lookup_reads segments scope)).bind fun found => ?_
  cases found with
  | none =>
    refine (Completes.reads (report_reads subject _)).bind fun _ => ?_
    exact .pure fun _ _ _ hnone => by cases hnone
  | some name =>
    refine (h.component name).bind fun result => ?_
    cases result with
    | some id =>
      refine (referenceTo_completes id).bind fun schema => .pure fun registry hcovers other hother => ?_
      exact Option.some.inj hother ▸ hcovers
    | none =>
      refine ((h.inline name subject).mono (fun _ _ => trivial) fun _ _ hcovers => hcovers).bind fun schema => ?_
      exact .pure fun registry hcovers other hother => Option.some.inj hother ▸ hcovers

/-- A schema that wraps another is covered where that one is. -/
theorem covers_map {registry : Registry} {result : Option Schema} {wrap : Schema → Schema}
    (hwrap : ∀ schema ref, (wrap schema).Refers ref → schema.Refers ref)
    (h : ∀ schema ∈ result, registry.Covers schema) : ∀ schema ∈ result.map wrap, registry.Covers schema := by
  intro schema hschema
  obtain ⟨inner, hinner, rfl⟩ := Option.map_eq_some_iff.mp hschema
  exact fun ref href => h inner hinner ref (hwrap inner ref href)

/-- A schema without references is covered everywhere. -/
theorem pure_some_completes {schema : Schema} (h : ∀ ref, ¬ schema.Refers ref) {before : Registry → Prop} :
    Completes names depth before (pure (some schema)) fun result registry =>
      ∀ schema ∈ result, registry.Covers schema := by
  refine .pure fun registry _ other hother => ?_
  rw [← Option.some.inj hother]
  exact Schema.resolvesIn_of_not_refers _ h

/-- The schema of a library name refers to nothing. -/
theorem not_refers_wellKnownSchema (type : TypeExpr) (ref : String) : ¬ (wellKnownSchema type).Refers ref := by
  unfold wellKnownSchema
  split
  · exact Schema.not_refers_ofPrimitive _ ref
  · exact Schema.not_refers_empty ref

/-- The schema of a type is found or missed, and it is covered. -/
theorem resolve_completes (h : rules.Complete names depth) (scope : ModulePath) (subject : String)
    (type : TypeExpr) :
    CompletesAlways names depth (resolve rules scope subject type) fun result registry =>
      ∀ schema ∈ result, registry.Covers schema := by
  induction type with
  | primitive primitive => exact pure_some_completes (Schema.not_refers_ofPrimitive primitive)
  | pointer inner ih => exact ih
  | array inner ih =>
    refine Completes.bind ih fun result => .pure fun registry hresult => ?_
    exact covers_map (fun schema ref => (Schema.refers_arrayOf schema ref).mp) hresult
  | map key value _ ih =>
    have hvalue : CompletesAlways names depth
        (do return (← resolve rules scope subject value).map Schema.mapOf) fun result registry =>
          ∀ schema ∈ result, registry.Covers schema := by
      refine Completes.bind ih fun result => .pure fun registry hresult => ?_
      exact covers_map (fun schema ref => (Schema.refers_mapOf schema ref).mp) hresult
    unfold resolve
    dsimp only
    split
    · exact (Completes.reads (report_reads subject _)).bind fun _ => hvalue
    · exact hvalue
  | named name =>
    unfold resolve
    refine (Completes.reads (undeclaredWellKnown_reads name scope)).bind fun known => ?_
    cases known with
    | some known => exact pure_some_completes (not_refers_wellKnownSchema known)
    | none => exact resolvePath_completes h [name] scope subject
  | selector qualifier name => exact resolvePath_completes h (qualifier ++ [name]) scope subject
  | any => exact pure_some_completes Schema.not_refers_empty
  | unsupported what =>
    refine (Completes.reads (report_reads subject _)).bind fun _ => ?_
    exact .pure fun _ _ _ hnone => by cases hnone

/-- The reference for a path in a comment is found or missed, and it is covered. -/
theorem strictPath_completes (h : rules.Complete names depth) (segments : List String) (scope : ModulePath) :
    CompletesAlways names depth (strictPath rules segments scope) fun result registry =>
      ∀ schema ∈ result.toOption, registry.Covers schema := by
  unfold strictPath
  refine (Completes.reads (lookup_reads segments scope)).bind fun found => ?_
  cases found with
  | none => exact .pure fun _ _ _ hnone => by cases hnone
  | some name =>
    refine (Completes.reads (isSchema_reads name)).bind fun chosen => ?_
    split
    · refine (h.component name).bind fun result => ?_
      cases result with
      | some id =>
        refine (referenceTo_completes id).bind fun schema => .pure fun registry hcovers other hother => ?_
        exact Option.some.inj hother ▸ hcovers
      | none => exact .pure fun _ _ _ hnone => by cases hnone
    · exact .pure fun _ _ _ hnone => by cases hnone

/-- What is covered of an outcome is covered of one that wraps its schema. -/
theorem covers_toOption_map {registry : Registry} {result : Except ReferenceFault Schema}
    {wrap : Schema → Schema} (hwrap : ∀ schema ref, (wrap schema).Refers ref → schema.Refers ref)
    (h : ∀ schema ∈ result.toOption, registry.Covers schema) :
    ∀ schema ∈ (result.map wrap).toOption, registry.Covers schema := by
  cases result with
  | error fault => exact fun _ hnone => by cases hnone
  | ok schema => exact covers_map hwrap h

/-- A schema that refers to nothing is covered. -/
theorem pure_ok_completes {schema : Schema} (h : ∀ ref, ¬ schema.Refers ref) {before : Registry → Prop} :
    Completes names depth before (pure (.ok schema) : Build (Except ReferenceFault Schema))
      fun result registry => ∀ schema ∈ result.toOption, registry.Covers schema := by
  refine .pure fun registry _ other hother => ?_
  rw [← Option.some.inj hother]
  exact Schema.resolvesIn_of_not_refers _ h

/-- The reference for a type in a comment is found or missed, and it is covered. -/
theorem strict_completes (h : rules.Complete names depth) (scope : ModulePath) (type : TypeExpr) :
    CompletesAlways names depth (strict rules scope type) fun result registry =>
      ∀ schema ∈ result.toOption, registry.Covers schema := by
  induction type with
  | primitive primitive => exact pure_ok_completes (Schema.not_refers_ofPrimitive primitive)
  | pointer inner ih => exact ih
  | array inner ih =>
    refine Completes.bind ih fun result => .pure fun registry hresult => ?_
    exact covers_toOption_map (fun schema ref => (Schema.refers_arrayOf schema ref).mp) hresult
  | map key value _ ih =>
    refine Completes.bind ih fun result => .pure fun registry hresult => ?_
    exact covers_toOption_map (fun schema ref => (Schema.refers_mapOf schema ref).mp) hresult
  | named name =>
    unfold strict
    refine (Completes.reads (undeclaredWellKnown_reads name scope)).bind fun known => ?_
    cases known with
    | some known => exact pure_ok_completes (not_refers_wellKnownSchema known)
    | none => exact strictPath_completes h [name] scope
  | selector qualifier name => exact strictPath_completes h (qualifier ++ [name]) scope
  | any => exact pure_ok_completes Schema.not_refers_empty
  | unsupported what => exact .pure fun _ _ _ hnone => by cases hnone

/-- The reference for a written type is found or missed, and it is covered. -/
theorem referenceFor_completes (h : rules.Complete names depth) (written : String) (scope : ModulePath) :
    CompletesAlways names depth (Synthesis.referenceFor rules written scope) fun result registry =>
      ∀ schema ∈ result.toOption, registry.Covers schema := by
  unfold Synthesis.referenceFor
  split
  · exact .pure fun _ _ _ hnone => by cases hnone
  · exact strict_completes h scope _

/-- The members of a composition that are found are covered. -/
theorem members_completes (h : rules.Complete names depth) (scope : ModulePath) (subject : String)
    (written : List String) :
    CompletesAlways names depth (members rules scope subject written) fun found registry =>
      ∀ schema ∈ found, registry.Covers schema := by
  induction written with
  | nil => exact .pure fun _ _ _ hnone => by cases hnone
  | cons first rest ih =>
    unfold members
    refine (referenceFor_completes h first scope).bind fun result => ?_
    cases result with
    | ok schema =>
      -- The first member stays covered while the others are looked up.
      refine ((ih.keeping schema).mono (fun registry hfirst => hfirst schema rfl) fun _ _ hlast => hlast).bind
        fun found => ?_
      refine .pure fun registry hfound other hother => ?_
      rcases List.mem_cons.mp hother with rfl | hother
      · exact hfound.2
      · exact hfound.1 other hother
    | error fault => exact (Completes.reads (report_reads subject _)).bind fun _ => ih

/-- The schema of a field whose type is looked up in a home of its own, away from its comment. -/
def fieldSchemaIn (rules : Recursion) (home : ModulePath) (type : TypeExpr) (remarks : Comment.Field)
    (scope : ModulePath) (subject : String) : Build (Option Schema) := do
  let found ← members rules scope subject remarks.oneOf
  if found.isEmpty then
    if !remarks.oneOf.isEmpty then report subject .noOneOfMember
    return (← resolve rules home subject type).map fun schema => schema.withDetails remarks
  else return some (Schema.withRemarks { oneOf := found } remarks)

/-- The type of a field is looked up where its comment is. -/
theorem fieldSchema_eq_fieldSchemaIn (type : TypeExpr) (remarks : Comment.Field) (scope : ModulePath)
    (subject : String) :
    fieldSchema rules type remarks scope subject = fieldSchemaIn rules scope type remarks scope subject := rfl

/-- The schema of a field is found or missed, wherever its type is looked up, and it is covered. -/
theorem fieldSchemaIn_completes (h : rules.Complete names depth) (home : ModulePath) (type : TypeExpr)
    (remarks : Comment.Field) (scope : ModulePath) (subject : String) :
    CompletesAlways names depth (fieldSchemaIn rules home type remarks scope subject) fun result registry =>
      ∀ schema ∈ result, registry.Covers schema := by
  have htype : CompletesAlways names depth
      (do return (← resolve rules home subject type).map fun schema => schema.withDetails remarks)
        fun result registry => ∀ schema ∈ result, registry.Covers schema := by
    refine (resolve_completes h home subject type).bind fun result => .pure fun registry hresult => ?_
    exact covers_map (fun schema ref => (Schema.refers_withDetails schema remarks ref).mp) hresult
  unfold fieldSchemaIn
  refine (members_completes h scope subject remarks.oneOf).bind fun found => ?_
  split
  · dsimp only
    split
    · exact (Completes.reads (report_reads subject _)).bind fun _ => htype
    · exact htype.mono (fun _ _ => trivial) fun _ _ hlast => hlast
  · refine .pure fun registry hfound other hother => ?_
    rw [← Option.some.inj hother]
    exact fun ref href => Schema.resolvesIn_oneOf hfound ref
      ((Schema.refers_withRemarks _ remarks ref).mp href)

/-- The schema of a field is found or missed, and it is covered. -/
theorem fieldSchema_completes (h : rules.Complete names depth) (type : TypeExpr) (remarks : Comment.Field)
    (scope : ModulePath) (subject : String) :
    CompletesAlways names depth (fieldSchema rules type remarks scope subject) fun result registry =>
      ∀ schema ∈ result, registry.Covers schema := by
  rw [fieldSchema_eq_fieldSchemaIn]
  exact fieldSchemaIn_completes h scope type remarks scope subject

/-- Reporting keeps what is covered. -/
theorem report_completes {schema : Schema} (subject : String) (cause : Cause) :
    Completes names depth (fun registry => registry.Covers schema) (liftM (report subject cause))
      fun _ registry => registry.Covers schema :=
  .reading (report_reads subject cause) fun _ hcovers => hcovers

/-- Adding findings keeps a schema covered. -/
theorem addFindings_completes {schema : Schema} (findings : List Finding) :
    Completes names depth (fun registry => registry.Covers schema)
      (modify fun registry => registry.addFindings findings) fun _ registry => registry.Covers schema :=
  fun first _ hcovers => ⟨(), first.addFindings findings, rfl, .read (.note first _), hcovers⟩

/-- Giving a schema, perhaps after a report. -/
theorem report_pure_completes {schema : Schema} (condition : Bool) (subject : String) (cause : Cause) :
    Completes names depth (fun registry => registry.Covers schema)
      (if condition then do liftM (report subject cause); pure schema else pure schema)
        fun result registry => registry.Covers result := by
  split
  · exact (report_completes subject cause).bind fun _ => .pure fun _ hcovers => hcovers
  · exact .pure fun _ hcovers => hcovers

/-- Adding a field keeps an object covered. -/
theorem addField_completes (h : rules.Complete names depth) (declaration : Declaration) (schema : Schema)
    (field : FieldDeclaration) (position : Nat) :
    Completes names depth (fun registry => registry.Covers schema)
      (addField rules declaration schema field position) fun result registry => registry.Covers result := by
  unfold addField
  split
  · exact (report_completes _ _).bind fun _ => .pure fun _ hcovers => hcovers
  · split
    · exact .pure fun _ hcovers => hcovers
    · dsimp only
      refine (addFindings_completes _).bind fun _ => ?_
      split
      · exact (report_completes _ _).bind fun _ => .pure fun _ hcovers => hcovers
      · refine ((fieldSchema_completes h _ _ _ _).keeping schema).bind fun result => ?_
        cases result with
        | none => exact .pure fun _ hlast => hlast.2
        | some property =>
          refine (report_pure_completes _ _ _).mono (fun registry hlast => ?_) fun _ _ hlast => hlast
          exact hlast.2.insert_property (hlast.1 property rfl) _ _

/-- Adding fields keeps an object covered. -/
theorem addFields_completes (h : rules.Complete names depth) (declaration : Declaration) (schema : Schema)
    (position : Nat) (fields : List FieldDeclaration) :
    Completes names depth (fun registry => registry.Covers schema)
      (addFields rules declaration schema position fields) fun result registry => registry.Covers result := by
  induction fields generalizing schema position with
  | nil => exact .pure fun _ hcovers => hcovers
  | cons field rest ih =>
    exact (addField_completes h declaration schema field position).bind fun next => ih next _

/-- The schema of a declaration is covered. -/
theorem shapeSchema_completes (h : rules.Complete names depth) (declaration : Declaration) :
    CompletesAlways names depth (shapeSchema rules declaration) fun schema registry =>
      registry.Covers schema := by
  unfold shapeSchema
  split
  · refine (addFields_completes h declaration _ 0 _).mono (fun registry _ => ?_) fun _ _ hlast => hlast
    exact Schema.resolvesIn_of_not_refers _ (Schema.not_refers_ofKind .object)
  · refine (Completes.reads (enumValues_reads declaration _)).bind fun values => .pure fun registry _ => ?_
    exact Schema.resolvesIn_of_not_refers _ fun ref href =>
      Schema.not_refers_ofKind .string ref (href.congr rfl rfl rfl rfl rfl)
  · dsimp only
    refine (resolve_completes h _ _ _).bind fun result => .pure fun registry hresult => ?_
    cases result with
    | none => exact Schema.resolvesIn_of_not_refers _ Schema.not_refers_empty
    | some schema => exact hresult schema rfl
  · exact .pure fun registry _ => Schema.resolvesIn_of_not_refers _ Schema.not_refers_empty

/-- Taking a place for a component. -/
theorem reserve_run {name : QualifiedName} {registry : Registry}
    (hdeclared : registry.table.contains name = true) :
    ∃ component prepared, (reserve name).run registry =
        (prepared.nodes.length, prepared.opened name component) ∧
      Prepares registry prepared ∧ prepared.names.get? name = some component := by
  obtain ⟨hprepares, hnamed⟩ := componentName_prepares hdeclared
  exact ⟨_, _, rfl, hprepares, hnamed⟩

/-- Building a component completes one level above rules that do. -/
theorem build_completes (h : rules.Complete names depth) {name : QualifiedName} {declaration : Declaration}
    {first : Registry} (hfits : first.Fits names (depth + 1)) (hnew : first.indexOf? name = none)
    (hget : first.table.get? name = some declaration) (hshape : declaration.shape.isInterface = false)
    (hopted : first.isOptedIn name = true) :
    ∃ id last, (do
        let id ← reserve name
        let schema ← shapeSchema rules declaration
        finish name id (schema.withContainer (← container name))
        return some id : Build (Option Nat)).run first = some (some id, last) ∧
      Advances first last ∧ last.indexOf? name = some id := by
  have hdeclared : first.table.contains name = true := Option.isSome_iff_exists.mpr ⟨declaration, hget⟩
  obtain ⟨component, prepared, hreserve, hprepares, hnamed⟩ := reserve_run hdeclared
  have hnew' : prepared.indexOf? name = none := by
    rw [indexOf?_congr hprepares.unchanged.index, hnew]
  have hopened := (hfits.grows hprepares.grows).opened component (hfits.mem_of_get? hget) hnew'
  obtain ⟨schema, built, hshaped, hinner, hcovers⟩ := shapeSchema_completes h declaration _ hopened trivial
  have hbuilt : (prepared.opened name component).table.contains name = true := hprepares.grows.contains hdeclared
  have hread := container_reads (hinner.grows.contains hbuilt)
  set reading := (container name).run built with hreading
  have hinner' : Advances (prepared.opened name component) reading.2 := hinner.trans (.read hread)
  have hcovers' : reading.2.Covers (schema.withContainer reading.1) := fun ref href =>
    hcovers.grows hread.grows ref ((Schema.refers_withContainer schema reading.1 ref).mp href)
  refine ⟨prepared.nodes.length,
    reading.2.closed name prepared.nodes.length (schema.withContainer reading.1), ?_, ?_, ?_⟩
  · have hreserve' : (liftM (reserve name) : Build Nat).run first =
        some (prepared.nodes.length, prepared.opened name component) := congrArg some hreserve
    rw [StateT.run_bind, hreserve', Option.bind_eq_bind, Option.bind_some, StateT.run_bind, hshaped]
    rfl
  · exact (Advances.prepare hprepares).trans (.build name component _
      (hprepares.grows.declarations name declaration hget) hshape (hprepares.grows.isOptedIn hopted) hnew' hnamed
      hinner' hcovers')
  · refine hinner'.grows.indexed name _ ?_
    rw [indexOf?_opened, if_pos rfl]

/-- A declaration that cannot be a component is given up. -/
theorem giveUp_completes {before : Registry → Prop} {name : QualifiedName} {declaration : Declaration}
    (hbefore : ∀ registry, before registry → registry.table.get? name = some declaration)
    (hshape : declaration.shape.isInterface = true) :
    Completes names depth before (do
      report name.display .traitSchema
      modify fun registry => { registry with failed := name :: registry.failed }
      return none) fun result registry => registry.Answers name result := by
  have hreport : Completes names depth before (liftM (report name.display .traitSchema))
      fun _ registry => registry.table.get? name = some declaration :=
    .reading (report_reads _ _) fun registry hregistry => hbefore registry hregistry
  refine hreport.bind fun _ => ?_
  intro first _ hget
  exact ⟨none, _, rfl, .giveUp first name hget hshape, fun _ => List.mem_cons_self⟩

/-- The rule for components completes one level above rules that do. -/
theorem component_completes (h : rules.Complete names depth) (name : QualifiedName) :
    CompletesAlways names (depth + 1) (component rules name) fun result registry =>
      registry.Answers name result := by
  unfold component
  refine .withState fun registry _ => ?_
  cases hindex : registry.indexOf? name with
  | some id =>
    refine .pure fun first hfirst => ?_
    rw [hfirst]
    exact hindex
  | none =>
    refine .withState fun registry' hregistry => ?_
    split
    · next hfailed =>
      refine .pure fun first hfirst _ => ?_
      rw [hfirst]
      exact List.contains_iff_mem.mp hfailed
    · have hchosen : Completes names (depth + 1) (fun first => first = registry') (liftM (isSchema name))
          fun chosen first => first.indexOf? name = none ∧ first.isOptedIn name = chosen := by
        refine .reading (isSchema_reads name) fun first hfirst => ⟨?_, ?_⟩
        · rw [indexOf?_congr (isSchema_reads name first).unchanged.1.index, hfirst, hregistry, hindex]
        · rw [isOptedIn_isSchema_run, isSchema_run_fst]
      refine hchosen.bind fun chosen => ?_
      split
      · next hchosen =>
        refine .pure fun first hfirst hopted => ?_
        rw [hfirst.2] at hopted
        simp [hopted] at hchosen
      · next hchosen =>
        refine .withState fun state hstate => ?_
        have hopted : state.isOptedIn name = true := by simpa [hstate.2] using hchosen
        cases hget : state.table.get? name with
        | none =>
          refine .pure fun first hfirst _ => ?_
          rw [isOptedIn, Table.contains, hget] at hopted
          cases hopted
        | some declaration =>
          dsimp only
          split
          · next hshape => exact giveUp_completes (fun first hfirst => hfirst ▸ hget) hshape
          · next hshape =>
            intro first hfits hfirst
            subst hfirst
            obtain ⟨id, last, hrun, hsteps, hid⟩ :=
              build_completes h hfits hstate.1 hget (by simpa using hshape) hopted
            exact ⟨some id, last, hrun, hsteps, hid⟩

/-- The rule for other declarations completes one level above rules that do. -/
theorem inline_completes (h : rules.Complete names depth) (name : QualifiedName) (subject : String) :
    CompletesAlways names (depth + 1) (inline rules name subject) fun schema registry =>
      registry.Covers schema := by
  have hplain {before : Registry → Prop} {schema : Schema} (hschema : ∀ ref, ¬ schema.Refers ref) :
      Completes names (depth + 1) before (pure schema) fun schema registry => registry.Covers schema :=
    .pure fun _ _ => Schema.resolvesIn_of_not_refers _ hschema
  unfold inline
  refine .withState fun registry _ => ?_
  cases hget : registry.table.get? name with
  | none => exact hplain Schema.not_refers_empty
  | some declaration =>
    dsimp only
    split
    · exact hplain (Schema.not_refers_ofKind .object)
    · exact hplain (Schema.not_refers_ofKind .string)
    · exact hplain Schema.not_refers_empty
    · next target _ =>
      refine .withState fun registry' hregistry => ?_
      split
      · exact hplain Schema.not_refers_empty
      · next hexpanding =>
        intro first hfits hfirst
        subst hfirst
        subst hregistry
        have hinner := hfits.expanded (hfits.mem_of_get? hget) (by simpa using hexpanding)
        obtain ⟨result, last, hrun, hsteps, hresult⟩ := resolve_completes h name.module subject
          (TypeExpr.classify declaration.generics target) _ hinner trivial
        refine ⟨result.getD {}, { last with expanding := last.expanding.erase name }, ?_,
          .expand name hsteps, ?_⟩
        · rw [StateT.run_bind, StateT.run_modify, pure_bind, StateT.run_bind, hrun]
          rfl
        · cases result with
          | none => exact Schema.resolvesIn_of_not_refers _ Schema.not_refers_empty
          | some schema => exact hresult schema rfl

end Synthesis

/-- The rules of every depth are complete for registries that fit it. -/
theorem Recursion.ofDepth_complete (names : List QualifiedName) (depth : Nat) :
    (Recursion.ofDepth depth).Complete names depth := by
  induction depth with
  | zero =>
    exact ⟨fun _ _ hfits => absurd hfits.room (Nat.not_lt_zero _),
      fun _ _ _ hfits => absurd hfits.room (Nat.not_lt_zero _)⟩
  | succ depth ih =>
    exact ⟨fun name => Synthesis.component_completes ih name,
      fun name subject => Synthesis.inline_completes ih name subject⟩

namespace Registry

/-- The rules of a registry are complete for it. -/
theorem rules_complete (registry : Registry) :
    registry.rules.Complete registry.declarable (2 * registry.nameBound + 2) :=
  Recursion.ofDepth_complete registry.declarable _

/-- An action that ends is performed. -/
theorem perform_run_of_some {fallback : α} {action : Recursion → Build α} {first last : Registry} {value : α}
    (h : (action first.rules).run first = some (value, last)) :
    (perform fallback action).run first = (value, last) := by
  unfold perform
  rw [StateT.run_bind, StateT.run_get, pure_bind, h]
  rfl

/-- An action on the registry that completes is performed to its end. -/
theorem perform_run (fallback : α) {action : Recursion → Build α} {after : α → Registry → Prop}
    (h : ∀ names depth rules, Recursion.Complete names depth rules →
      CompletesAlways names depth (action rules) after) (first : Registry) :
    ∃ value last, (perform fallback action).run first = (value, last) ∧ Advances first last ∧
      after value last := by
  obtain ⟨value, last, hrun, hsteps, hafter⟩ :=
    h _ _ _ first.rules_complete first first.fits_declarable trivial
  exact ⟨value, last, perform_run_of_some hrun, hsteps, hafter⟩

end Registry

end ApiScribe
