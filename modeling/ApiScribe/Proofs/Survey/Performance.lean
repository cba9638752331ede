import ApiScribe.Proofs.Registry.Calls
import ApiScribe.Proofs.Survey.Answers

/-!
# Runs do what the table says

Without a loader, every rule of the synthesis gives the schema that the table prescribes for the aliases
being expanded, and builds exactly the components of the walk over what it asks for. The statements are
about runs that end; that they end is known.
-/

namespace ApiScribe

namespace Registry

/-- Where a run over the table stands while aliases are being expanded. -/
structure Stands (table : Table) (aliases : List QualifiedName) (registry : Registry) : Prop where
  faithful : registry.Faithful table (fresh table).names
  index : registry.Indexed
  nodes : ∀ node ∈ registry.nodes,
    table.isComponent node.canonical ∧ node.name = table.componentName node.canonical
  failed : ∀ name ∈ registry.failed, table.isComponent name = false
  expanding : registry.expanding = aliases

/-- The registry has grown by the components of a walk over the requests. -/
def GrownBy (table : Table) (requests : List Request) (first last : Registry) : Prop :=
  ∃ log, table.Walks (first.nodes.map Node.canonical) requests log ∧
    last.nodes = first.nodes ++ log.map table.node

variable {table : Table} {aliases : List QualifiedName} {requests requests' : List Request}
  {registry : Registry} {name : QualifiedName}

/-- Where no component is added nothing has grown. -/
theorem GrownBy.refl {first last : Registry} (h : last.nodes = first.nodes) : GrownBy table [] first last :=
  ⟨[], .done _, by simpa using h⟩

/-- Growth by requests adds up. -/
theorem GrownBy.trans {first middle last : Registry} (h : GrownBy table requests first middle)
    (h' : GrownBy table requests' middle last) : GrownBy table (requests ++ requests') first last := by
  obtain ⟨log, hwalks, hnodes⟩ := h
  obtain ⟨log', hwalks', hnodes'⟩ := h'
  have hbuilt : middle.nodes.map Node.canonical =
      first.nodes.map Node.canonical ++ log.map Request.name := by
    rw [hnodes, List.map_append, List.map_map]
    rfl
  refine ⟨log ++ log', hwalks.append (hbuilt ▸ hwalks'), ?_⟩
  rw [hnodes', hnodes, List.map_append, List.append_assoc]

/-- Looking something up leaves a run where it stands. -/
theorem Stands.reads {first last : Registry} (h : first.Stands table aliases)
    (hreads : Reads first last) : last.Stands table aliases := by
  have hsame := hreads.unchanged.1
  exact {
    faithful := hreads.faithful h.faithful
    index := fun name id => by rw [hsame.nodes, indexOf?_congr hsame.index]; exact h.index name id
    nodes := hsame.nodes ▸ h.nodes
    failed := hsame.failed ▸ h.failed
    expanding := hsame.expanding.trans h.expanding }

/-- A run stands after it has taken a place for a component. -/
theorem Stands.opened (h : registry.Stands table aliases) (hname : table.isComponent name)
    (hnew : registry.indexOf? name = none) :
    (registry.opened name (table.componentName name)).Stands table aliases where
  faithful := ⟨h.faithful.resolver, h.faithful.containers, h.faithful.names⟩
  index := h.index.opened hnew _
  nodes node hnode := by
    rcases List.mem_append.mp hnode with hnode | hnode
    · exact h.nodes node hnode
    · rw [List.mem_singleton.mp hnode]
      exact ⟨hname, rfl⟩
  failed := h.failed
  expanding := h.expanding

/-- A run stands after it has filled a place. -/
theorem Stands.closed (h : registry.Stands table aliases) (name : QualifiedName) (id : Nat)
    (schema : Schema) :
    (registry.closed name id schema).Stands table aliases where
  faithful := ⟨h.faithful.resolver, h.faithful.containers, h.faithful.names⟩
  index := h.index.closed name id schema
  nodes node hnode := by
    rcases mem_or_exists_of_mem_modify hnode with hnode | ⟨old, hold, rfl⟩
    · exact h.nodes node hnode
    · exact h.nodes old hold
  failed := h.failed
  expanding := h.expanding

/-- A run stands after it has given up a declaration without a component. -/
theorem Stands.givenUp (h : registry.Stands table aliases) (hname : table.isComponent name = false) :
    Stands table aliases { registry with failed := name :: registry.failed } where
  faithful := ⟨h.faithful.resolver, h.faithful.containers, h.faithful.names⟩
  index := h.index
  nodes := h.nodes
  failed other hother := by
    rcases List.mem_cons.mp hother with rfl | hother
    · exact hname
    · exact h.failed other hother
  expanding := h.expanding

/-- A run stands one alias further when it starts to expand it. -/
theorem Stands.expanding_cons (h : registry.Stands table aliases) (name : QualifiedName) :
    Stands table (name :: aliases) { registry with expanding := name :: registry.expanding } where
  faithful := ⟨h.faithful.resolver, h.faithful.containers, h.faithful.names⟩
  index := h.index
  nodes := h.nodes
  failed := h.failed
  expanding := congrArg (name :: ·) h.expanding

/-- A run stands where it stood when it has expanded an alias. -/
theorem Stands.expanding_erase (h : registry.Stands table (name :: aliases)) :
    Stands table aliases { registry with expanding := registry.expanding.erase name } where
  faithful := ⟨h.faithful.resolver, h.faithful.containers, h.faithful.names⟩
  index := h.index
  nodes := h.nodes
  failed := h.failed
  expanding := by rw [h.expanding, List.erase_cons_head]

/-- The name of a component was given before anything is built. -/
theorem Stands.name_of_component (h : registry.Stands table aliases) (hname : table.isComponent name) :
    registry.names.get? name = some (table.componentName name) := by
  obtain ⟨component, hcomponent⟩ := exists_name_fresh (Bool.and_eq_true_iff.mp hname).1
  rw [h.faithful.names, Table.componentName, hcomponent]
  rfl

end Registry

open Registry

variable {α β : Type} {table : Table} {aliases : List QualifiedName} {requests requests' : List Request}

/-- Whenever the action ends where a run stands, the run stands there again, the registry has grown by a
walk over the requests, and the value is as described. -/
def Performs (table : Table) (aliases : List QualifiedName) (requests : List Request) (action : Build α)
    (after : α → Prop) : Prop :=
  ∀ first value last, first.Stands table aliases → action.run first = some (value, last) →
    last.Stands table aliases ∧ GrownBy table requests first last ∧ after value

namespace Performs

variable {action : Build α} {after : α → Prop}

/-- An action that does nothing performs no request. -/
theorem pure {value : α} (h : after value) : Performs table aliases [] (pure value) after := by
  intro first result last hfirst hrun
  cases hrun
  exact ⟨hfirst, .refl rfl, h⟩

/-- Actions perform their requests one after another. -/
theorem bind {next : α → Build β} {after' : β → Prop} (h : Performs table aliases requests action after)
    (hnext : ∀ value, after value → Performs table aliases requests' (next value) after') :
    Performs table aliases (requests ++ requests') (action >>= next) after' := by
  intro first result last hfirst hrun
  obtain ⟨⟨value, middle⟩, haction, hrest⟩ := Option.bind_eq_some_iff.mp hrun
  obtain ⟨hmiddle, hgrown, hvalue⟩ := h first value middle hfirst haction
  obtain ⟨hlast, hgrown', hresult⟩ := hnext value hvalue middle result last hmiddle hrest
  exact ⟨hlast, hgrown.trans hgrown', hresult⟩

/-- An action that asks for nothing, followed by one that may. -/
theorem silent_bind {next : α → Build β} {after' : β → Prop} (h : Performs table aliases [] action after)
    (hnext : ∀ value, after value → Performs table aliases requests (next value) after') :
    Performs table aliases requests (action >>= next) after' := h.bind hnext

/-- What is done with a value that was looked up. -/
theorem reading {action : StateM Registry α} {value : α} {next : α → Build β} {after : β → Prop}
    (hreads : Moves Reads action) (hgives : Gives (Faithful table (fresh table).names) action value)
    (hnext : Performs table aliases requests (next value) after) :
    Performs table aliases requests (liftM action >>= next) after := by
  intro first result last hfirst hrun
  have hvalue := (hgives first hfirst.faithful).1
  have hmiddle := hfirst.reads (hreads first)
  rw [run_liftM_bind, hvalue] at hrun
  obtain ⟨hlast, hgrown, hresult⟩ := hnext _ result last hmiddle hrun
  exact ⟨hlast, (GrownBy.refl (hreads first).unchanged.1.nodes).trans hgrown, hresult⟩

/-- A report is of no account. -/
theorem reporting {subject : String} {cause : Cause} {next : Build β} {after : β → Prop}
    (hnext : Performs table aliases requests next after) :
    Performs table aliases requests (liftM (report subject cause) >>= fun _ => next) after :=
  .reading (report_reads subject cause) (report_gives subject cause) hnext

/-- An action that starts by reading the registry. -/
theorem get_bind {next : Registry → Build α}
    (h : ∀ registry, registry.Stands table aliases → Performs table aliases requests (next registry) after) :
    Performs table aliases requests (get >>= next) after :=
  fun first value last hfirst hrun => h first hfirst first value last hfirst hrun

/-- An action during which an alias is being expanded. -/
theorem expanding {name : QualifiedName} {wrap : α → β} {after' : β → Prop}
    (h : Performs table (name :: aliases) requests action after)
    (hafter : ∀ value, after value → after' (wrap value)) :
    Performs table aliases requests (do
      modify fun registry => { registry with expanding := name :: registry.expanding }
      let value ← action
      modify fun registry => { registry with expanding := registry.expanding.erase name }
      return wrap value) after' := by
  intro first result last hfirst hrun
  rw [StateT.run_bind, StateT.run_modify, pure_bind] at hrun
  obtain ⟨⟨value, inner⟩, haction, hrest⟩ := Option.bind_eq_some_iff.mp hrun
  obtain ⟨hinner, hgrown, hvalue⟩ := h _ _ _ (hfirst.expanding_cons name) haction
  cases hrest
  exact ⟨hinner.expanding_erase, hgrown, hafter value hvalue⟩

/-- What is made of the value of an action. -/
theorem map {wrap : α → β} {after' : β → Prop} (h : Performs table aliases requests action after)
    (hafter : ∀ value, after value → after' (wrap value)) :
    Performs table aliases requests (do return wrap (← action)) after' := by
  intro first result last hfirst hrun
  obtain ⟨⟨value, middle⟩, haction, hpure⟩ := Option.bind_eq_some_iff.mp hrun
  cases hpure
  obtain ⟨hlast, hgrown, hvalue⟩ := h first value _ hfirst haction
  exact ⟨hlast, hgrown, hafter value hvalue⟩

end Performs

/-- What has happened when a declaration was asked for its component. -/
structure Asked (table : Table) (aliases : List QualifiedName) (name : QualifiedName) (first : Registry)
    (value : Option Nat) (last : Registry) : Prop where
  stands : last.Stands table aliases
  grown : GrownBy table (if table.isComponent name then [⟨name, aliases⟩] else []) first last
  found : value.isSome = table.isComponent name
  index : ∀ id ∈ value, last.indexOf? name = some id

/-- What only reads may come before a request. -/
theorem Asked.of_reads {name : QualifiedName} {first middle last : Registry} {value : Option Nat}
    (h : Asked table aliases name middle value last) (hreads : Reads first middle) :
    Asked table aliases name first value last :=
  { h with grown := (GrownBy.refl hreads.unchanged.1.nodes).trans h.grown }

/-- Nothing happens for a declaration without a component. -/
theorem asked_none {name : QualifiedName} {first last : Registry} (hname : table.isComponent name = false)
    (hlast : last.Stands table aliases) (hnodes : last.nodes = first.nodes) :
    Asked table aliases name first none last where
  stands := hlast
  grown := by
    rw [hname]
    exact .refl hnodes
  found := hname.symm
  index _ hid := by cases hid

/-- Nothing happens for a component that is built already. -/
theorem asked_known {name : QualifiedName} {id : Nat} {registry : Registry}
    (h : registry.Stands table aliases) (hindex : registry.indexOf? name = some id) :
    Asked table aliases name registry (some id) registry := by
  obtain ⟨node, hnode, rfl⟩ := h.index.indexOf?_eq_some_iff.mp hindex
  have hname := (h.nodes node (List.mem_of_getElem? hnode)).1
  refine ⟨h, ?_, hname.symm, fun other hother => Option.some.inj hother ▸ hindex⟩
  rw [if_pos hname]
  exact ⟨[], .skip (List.mem_map_of_mem (List.mem_of_getElem? hnode)) (.done _), by simp⟩

/-- Rules that do what the table says. -/
structure Recursion.Exact (table : Table) (rules : Recursion) : Prop where
  component : ∀ aliases name first value last, first.Stands table aliases →
    (rules.component name).run first = some (value, last) → Asked table aliases name first value last
  inline : ∀ aliases name subject, table.isComponent name = false →
    Performs table aliases (table.render aliases name).requests (rules.inline name subject)
      (· = table.shown aliases name)

namespace Synthesis

variable {rules : Recursion}

/-- A component is shown by a reference; something else is done for other declarations. -/
theorem component_bind (h : rules.Exact table) (name : QualifiedName) {wrap : Schema → β} {otherwise : Build β}
    {after : β → Prop}
    (hcomponent : table.isComponent name →
      requests = [⟨name, aliases⟩] ∧ after (wrap (Schema.referenceTo (table.componentName name))))
    (hother : table.isComponent name = false → Performs table aliases requests otherwise after) :
    Performs table aliases requests (do
      match ← rules.component name with
      | some id => return wrap (← referenceTo id)
      | none => otherwise) after := by
  intro first result last hfirst hrun
  obtain ⟨⟨value, middle⟩, hvalue, hnext⟩ := Option.bind_eq_some_iff.mp hrun
  obtain ⟨hmiddle, hgrown, hsome, hindex⟩ := h.component aliases name first value middle hfirst hvalue
  cases value with
  | some id =>
    have hname : table.isComponent name := hsome.symm
    obtain ⟨hrequests, hafter⟩ := hcomponent hname
    rw [if_pos hname, ← hrequests] at hgrown
    obtain ⟨node, hnode, rfl⟩ := hmiddle.index.indexOf?_eq_some_iff.mp (hindex id rfl)
    have hreference :
        ((referenceTo id).run middle).1 = Schema.referenceTo (table.componentName node.canonical) := by
      change ((middle.nodes[id]?.map fun node => Schema.referenceTo node.name).getD {}) = _
      rw [hnode, ← (hmiddle.nodes node (List.mem_of_getElem? hnode)).2]
      rfl
    cases hnext
    refine ⟨hmiddle, hgrown, ?_⟩
    rw [← hreference] at hafter
    exact hafter
  | none =>
    have hname : table.isComponent name = false := hsome.symm
    rw [hname] at hgrown
    obtain ⟨hlast, hgrown', hafter⟩ := hother hname middle result last hmiddle hnext
    exact ⟨hlast, hgrown.trans hgrown', hafter⟩

/-- The schema of a path is that of its leaf, by the requests of the leaf. -/
theorem resolvePath_performs (h : rules.Exact table) (segments : List String) (scope : ModulePath)
    (subject : String) :
    Performs table aliases (table.requestsOfLeaf aliases (table.leafOfPath segments scope))
      (resolvePath rules segments scope subject)
      (· = (table.leafOfPath segments scope).schema? (table.shown aliases)) := by
  refine .reading (lookup_reads segments scope) (lookup_gives segments scope) ?_
  unfold Table.leafOfPath
  cases table.find? segments scope with
  | none => exact .reporting (.pure rfl)
  | some name =>
    refine component_bind h name (fun hname => ?_) fun hname => ?_
    · simp [Table.requestsOfLeaf, Leaf.shownName?, Leaf.schema?, Table.shown, Table.render_component hname]
    · exact (h.inline aliases name subject hname).map fun _ hschema => congrArg some hschema

/-- The schema of a field's type is what the table says. -/
theorem resolve_performs (h : rules.Exact table) (scope : ModulePath) (subject : String) (type : TypeExpr) :
    Performs table aliases (table.requestsOfLeaf aliases (table.leaf scope type))
      (resolve rules scope subject type)
      (· = ((table.leaf scope type).schema? (table.shown aliases)).map type.enclose) := by
  induction type with
  | primitive primitive => exact .pure rfl
  | pointer inner ih => exact ih
  | array inner ih =>
    refine ih.map fun result hresult => ?_
    rw [hresult, Option.map_map]
    rfl
  | map key value _ ih =>
    have hvalue : Performs table aliases (table.requestsOfLeaf aliases (table.leaf scope value))
        (do return (← resolve rules scope subject value).map Schema.mapOf)
        (· = ((table.leaf scope value).schema? (table.shown aliases)).map
          (TypeExpr.map key value).enclose) := by
      refine ih.map fun result hresult => ?_
      rw [hresult, Option.map_map]
      rfl
    unfold resolve
    split
    · exact .reporting hvalue
    · exact hvalue
  | named name =>
    refine .reading (undeclaredWellKnown_reads name scope) (undeclaredWellKnown_gives name scope) ?_
    unfold Table.leaf
    cases table.builtIn? name scope with
    | some known => exact .pure rfl
    | none => simpa [TypeExpr.enclose] using resolvePath_performs h [name] scope subject
  | selector qualifier name =>
    simpa [Table.leaf, resolve, TypeExpr.enclose] using
      resolvePath_performs h (qualifier ++ [name]) scope subject
  | any => exact .pure rfl
  | unsupported what => exact .reporting (.pure rfl)

/-- The reference for a path in a comment is found by asking for its component. -/
theorem strictPath_performs (h : rules.Exact table) (segments : List String) (scope : ModulePath) :
    Performs table aliases
      (Request.each aliases (((table.referred? (table.leafOfPath segments scope)).map Prod.snd).getD []))
      (strictPath rules segments scope)
      (fun result => result.toOption = (table.referred? (table.leafOfPath segments scope)).map Prod.fst) := by
  refine .reading (lookup_reads segments scope) (lookup_gives segments scope) ?_
  unfold Table.leafOfPath
  cases table.find? segments scope with
  | none => exact .pure rfl
  | some name =>
    refine .reading (isSchema_reads name) (isSchema_gives name) ?_
    dsimp only [Table.referred?]
    cases hchosen : table.isOptedIn name with
    | false =>
      have hname : table.isComponent name = false := by simp [Table.isComponent, hchosen]
      rw [hname]
      exact .pure rfl
    | true =>
      refine component_bind h name (fun hname => ?_) fun hname => ?_
      · rw [hname]
        exact ⟨rfl, rfl⟩
      · rw [hname]
        exact .pure rfl

/-- A result that is changed is one or none as before. -/
theorem toOption_map {ε : Type} (result : Except ε α) (wrap : α → β) :
    (result.map wrap).toOption = result.toOption.map wrap := by
  cases result <;> rfl

/-- The schema of a type in a comment is what the table says. -/
theorem strict_performs (h : rules.Exact table) (scope : ModulePath) (type : TypeExpr) :
    Performs table aliases
      (Request.each aliases (((table.referred? (table.leaf scope type)).map Prod.snd).getD []))
      (strict rules scope type)
      (fun result => result.toOption =
        (table.referred? (table.leaf scope type)).map fun found => type.enclose found.1) := by
  induction type with
  | primitive primitive => exact .pure rfl
  | pointer inner ih => exact ih
  | array inner ih =>
    refine ih.map fun result hresult => ?_
    rw [toOption_map, hresult, Option.map_map]
    rfl
  | map key value _ ih =>
    refine ih.map fun result hresult => ?_
    rw [toOption_map, hresult, Option.map_map]
    rfl
  | named name =>
    refine .reading (undeclaredWellKnown_reads name scope) (undeclaredWellKnown_gives name scope) ?_
    unfold Table.leaf
    cases table.builtIn? name scope with
    | some known => exact .pure rfl
    | none => exact strictPath_performs h [name] scope
  | selector qualifier name => exact strictPath_performs h (qualifier ++ [name]) scope
  | any => exact .pure rfl
  | unsupported what => exact .pure rfl

/-- The reference for a written type is found by asking for its component. -/
theorem referenceFor_performs (h : rules.Exact table) (written : String) (scope : ModulePath) :
    Performs table aliases
      (Request.each aliases (((table.member? scope written).map Prod.snd).getD []))
      (referenceFor rules written scope)
      (fun result => result.toOption = (table.member? scope written).map Prod.fst) := by
  unfold referenceFor Table.member?
  cases Source.TypeSyntax.ofText? written with
  | none => exact .pure rfl
  | some parsed =>
    simpa [Option.map_map, Function.comp_def] using strict_performs h scope (TypeExpr.classify [] parsed)

/-- The members of a composition are those that the table has. -/
theorem members_performs (h : rules.Exact table) (scope : ModulePath) (subject : String)
    (written : List String) :
    Performs table aliases
      (Request.each aliases ((written.filterMap (table.member? scope)).flatMap Prod.snd))
      (members rules scope subject written)
      (· = (written.filterMap (table.member? scope)).map Prod.fst) := by
  induction written with
  | nil => exact .pure rfl
  | cons first rest ih =>
    have hfirst : Performs table aliases _ (referenceFor rules first scope) _ :=
      referenceFor_performs h first scope
    unfold members
    rw [List.filterMap_cons]
    cases hmember : table.member? scope first with
    | none =>
      rw [hmember] at hfirst
      refine Performs.silent_bind hfirst fun result hresult => ?_
      cases result with
      | ok schema => cases hresult
      | error fault => exact .reporting ih
    | some found =>
      rw [hmember] at hfirst
      dsimp only
      rw [List.flatMap_cons, Request.each_append]
      refine hfirst.bind fun result hresult => ?_
      cases result with
      | error fault => cases hresult
      | ok schema =>
        refine ih.map fun others hothers => ?_
        rw [hothers, Option.some.inj hresult]
        rfl

/-- A field shows the content that the table gives it. -/
theorem fieldSchemaIn_performs (h : rules.Exact table) (home : ModulePath) (type : TypeExpr)
    (remarks : Comment.Field) (scope : ModulePath) (subject : String) :
    Performs table aliases
      (((table.contentIn? home scope type remarks).map (table.requestsOfContent aliases)).getD [])
      (fieldSchemaIn rules home type remarks scope subject)
      (· = (table.contentIn? home scope type remarks).map (Content.schema (table.shown aliases))) := by
  have hmembers : Performs table aliases _ (members rules scope subject remarks.oneOf) _ :=
    members_performs h scope subject remarks.oneOf
  unfold fieldSchemaIn Table.contentIn?
  dsimp only
  generalize remarks.oneOf.filterMap (table.member? scope) = found at hmembers ⊢
  cases found with
  | nil =>
    have htype : Performs table aliases (table.requestsOfLeaf aliases (table.leaf home type))
        (do return (← resolve rules home subject type).map fun schema => schema.withDetails remarks)
        (· = ((table.leaf home type).content? type remarks).map (Content.schema (table.shown aliases))) := by
      rw [Leaf.content?_schema]
      exact (resolve_performs h home subject type).map fun _ hresult => by rw [hresult]
    rw [List.isEmpty_nil, if_pos rfl, Table.requestsOfContent_leaf]
    refine Performs.silent_bind hmembers fun schemas hschemas => ?_
    rw [hschemas, List.map_nil, List.isEmpty_nil, if_pos rfl]
    split
    · exact .reporting htype
    · exact htype
  | cons first rest =>
    rw [List.isEmpty_cons, if_neg Bool.false_ne_true]
    rw [← List.append_nil (Option.getD _ _)]
    refine hmembers.bind fun schemas hschemas => ?_
    rw [hschemas]
    exact .pure rfl

/-- The schema of a field is that of its content, by the requests of the content. -/
theorem fieldSchema_performs (h : rules.Exact table) (type : TypeExpr) (remarks : Comment.Field)
    (scope : ModulePath) (subject : String) :
    Performs table aliases
      (((table.content? scope type remarks).map (table.requestsOfContent aliases)).getD [])
      (fieldSchema rules type remarks scope subject)
      (· = (table.content? scope type remarks).map (Content.schema (table.shown aliases))) := by
  rw [fieldSchema_eq_fieldSchemaIn, Table.content?]
  exact fieldSchemaIn_performs h scope type remarks scope subject

/-- Adding findings performs no request. -/
theorem addFindings_performs (findings : List Finding) :
    Performs table aliases [] (modify fun registry => registry.addFindings findings) fun _ => True := by
  intro first value last hfirst hrun
  cases hrun
  exact ⟨hfirst.reads (.note first _), .refl rfl, trivial⟩

/-- A field adds the property that the table gives it. -/
theorem addField_performs (h : rules.Exact table) (declaration : Declaration) (schema : Schema)
    (field : FieldDeclaration) (position : Nat) :
    Performs table aliases
      (((table.property? declaration field).map fun property =>
        table.requestsOfContent aliases property.content).getD [])
      (addField rules declaration schema field position)
      (· = ((table.property? declaration field).map
        (Property.addTo (table.shown aliases) schema)).getD schema) := by
  unfold addField Table.property?
  cases field.ident with
  | none => exact .reporting (.pure rfl)
  | some ident =>
    dsimp only [Option.bind_some]
    generalize Comment.Field.read field.docs (declaration.name.display ++ "." ++ ident) = reading
    obtain ⟨remarks, findings⟩ := reading
    cases field.options.skip with
    | true => exact .pure rfl
    | false =>
      refine (addFindings_performs findings).silent_bind fun _ _ => ?_
      cases field.options.flatten with
      | true => exact .reporting (.pure rfl)
      | false =>
        dsimp only [Bool.or_self, Bool.false_eq_true, ↓reduceIte]
        have hfield : Performs table aliases _ (fieldSchema rules
            (TypeExpr.classify declaration.generics field.type) remarks declaration.name.module
            (declaration.name.display ++ "." ++ ident)) _ := fieldSchema_performs h _ _ _ _
        cases hcontent : table.content? declaration.name.module
            (TypeExpr.classify declaration.generics field.type) remarks with
        | none =>
          rw [hcontent] at hfield
          refine Performs.silent_bind hfield fun result hresult => ?_
          rw [hresult]
          exact .pure rfl
        | some content =>
          rw [hcontent] at hfield
          rw [← List.append_nil (Option.getD _ _)]
          refine hfield.bind fun result hresult => ?_
          rw [hresult]
          dsimp only [Option.map_some]
          split
          · exact .reporting (.pure rfl)
          · exact .pure rfl

/-- Fields are added by the requests of their properties. -/
theorem addFields_performs (h : rules.Exact table) (declaration : Declaration) (schema : Schema)
    (position : Nat) (fields : List FieldDeclaration) :
    Performs table aliases
      ((fields.filterMap (table.property? declaration)).flatMap fun property =>
        table.requestsOfContent aliases property.content)
      (addFields rules declaration schema position fields)
      (· = (fields.filterMap (table.property? declaration)).foldl
        (Property.addTo (table.shown aliases)) schema) := by
  induction fields generalizing schema position with
  | nil => exact .pure rfl
  | cons field rest ih =>
    have hfield : Performs table aliases _ (addField rules declaration schema field position) _ :=
      addField_performs h declaration schema field position
    unfold addFields
    rw [List.filterMap_cons]
    cases hproperty : table.property? declaration field with
    | none =>
      rw [hproperty] at hfield
      refine Performs.silent_bind hfield fun added hadded => ?_
      rw [hadded]
      exact ih schema (position + 1)
    | some property =>
      rw [hproperty] at hfield
      dsimp only
      rw [List.flatMap_cons]
      refine hfield.bind fun added hadded => ?_
      rw [hadded]
      exact ih (property.addTo (table.shown aliases) schema) (position + 1)

/-- The schema of a declaration is the sketch of the table. -/
theorem shapeSchema_performs (h : rules.Exact table) (declaration : Declaration) :
    Performs table aliases (table.requestsOfDeclaration aliases declaration) (shapeSchema rules declaration)
      (· = table.sketch (table.shown aliases) declaration) := by
  unfold shapeSchema Table.requestsOfDeclaration Table.sketch
  cases declaration.shape with
  | struct fields => exact addFields_performs h declaration _ 0 fields
  | typeAlias target =>
    exact (resolve_performs h declaration.name.module declaration.name.display _).map fun _ hresult => by
      rw [hresult]
  | enum variants =>
    exact .reading (enumValues_reads declaration variants) (enumValues_gives declaration variants) (.pure rfl)
  | interface methods => exact .pure rfl

/-- Building a component gives the node that the table prescribes and those that it asks for. -/
theorem build_exact (h : rules.Exact table) {name : QualifiedName} {declaration : Declaration}
    {first last : Registry} {value : Option Nat} (hfirst : first.Stands table aliases)
    (hget : table.get? name = some declaration) (hname : table.isComponent name)
    (hnew : first.indexOf? name = none)
    (hrun : (do
        let id ← reserve name
        let schema ← shapeSchema rules declaration
        finish name id (schema.withContainer (← container name))
        return some id : Build (Option Nat)).run first = some (value, last)) :
    Asked table aliases name first value last := by
  have hreserve : (liftM (reserve name) : Build Nat).run first =
      some (first.nodes.length, first.opened name (table.componentName name)) := by
    have hrun := componentName_run_known (hfirst.name_of_component hname)
    change some ((reserve name).run first) = _
    simp only [reserve, StateT.run_bind, hrun]
    rfl
  rw [StateT.run_bind, hreserve, Option.bind_eq_bind, Option.bind_some] at hrun
  obtain ⟨⟨schema, built⟩, hshape, hrest⟩ := Option.bind_eq_some_iff.mp hrun
  obtain ⟨hbuilt, ⟨log, hwalks, hnodes⟩, hschema⟩ :=
    shapeSchema_performs h declaration _ _ _ (hfirst.opened hname hnew) hshape
  have hcomment := (container_gives name built hbuilt.faithful).1
  have hdeclared : built.table.contains name = true := by
    rw [Registry.table, hbuilt.faithful.resolver.table.contains, Table.contains, hget]
    rfl
  have hreads := container_reads hdeclared
  have hread := hbuilt.reads hreads
  have hend : (some first.nodes.length, ((container name).run built).2.closed name first.nodes.length
      (schema.withContainer ((container name).run built).1)) = (value, last) := Option.some.inj hrest
  obtain ⟨rfl, rfl⟩ := Prod.mk.inj hend
  refine ⟨hread.closed name _ _, ?_, hname.symm, fun id hid => ?_⟩
  · rw [if_pos hname]
    rw [canonical_opened] at hwalks
    have hinner : table.Walks (first.nodes.map Node.canonical ++ [name])
        (table.requests ⟨name, aliases⟩) log := by
      simpa [Table.requests, hget] using hwalks
    refine ⟨⟨name, aliases⟩ :: log ++ [], .build (hfirst.index.not_mem hnew) hinner (.done _), ?_⟩
    have hplace : ((container name).run built).2.nodes =
        first.nodes ++ ⟨name, table.componentName name, {}⟩ :: log.map table.node := by
      rw [hreads.unchanged.1.nodes, hnodes]
      exact List.append_assoc _ _ _
    have hnode : table.node ⟨name, aliases⟩ =
        ⟨name, table.componentName name, schema.withContainer ((container name).run built).1⟩ := by
      simp only [Table.node, Table.schemaOf, hget, hschema, hcomment, Option.map_some, Option.getD_some]
    unfold Registry.closed
    rw [hplace, modify_append_cons, List.append_nil, List.map_cons, hnode]
  · cases Option.some.inj hid
    change ((container name).run built).2.indexOf? name = _
    rw [hread.index, hreads.unchanged.1.nodes, hnodes, List.map_append, canonical_opened]
    simp

/-- Asking for a declaration that is opted in and not built yet does what the table says. -/
theorem optedIn_exact (h : rules.Exact table) {name : QualifiedName} {first last : Registry}
    {value : Option Nat} (hfirst : first.Stands table aliases) (hoptedIn : table.isOptedIn name)
    (hnew : first.indexOf? name = none)
    (hrun : (do
        match (← get).table.get? name with
        | none => return none
        | some declaration =>
          if declaration.shape.isInterface then
            report name.display .traitSchema
            modify fun registry => { registry with failed := name :: registry.failed }
            return none
          else
            let id ← reserve name
            let schema ← shapeSchema rules declaration
            finish name id (schema.withContainer (← container name))
            return some id : Build (Option Nat)).run first = some (value, last)) :
    Asked table aliases name first value last := by
  have htable : first.table.get? name = table.get? name := hfirst.faithful.resolver.table.get? name
  rw [StateT.run_bind, StateT.run_get, pure_bind] at hrun
  dsimp only at hrun
  rw [htable] at hrun
  cases hget : table.get? name with
  | none =>
    rw [hget] at hrun
    cases hrun
    exact asked_none (by simp [Table.isComponent, hget]) hfirst rfl
  | some declaration =>
    have hcomponent : table.isComponent name = !declaration.shape.isInterface := by
      simp [Table.isComponent, hoptedIn, hget]
    rw [hget] at hrun
    dsimp only at hrun
    split at hrun
    · next hinterface =>
      have hname : table.isComponent name = false := by rw [hcomponent, hinterface]; rfl
      have hnoted := hfirst.reads (report_reads name.display .traitSchema first)
      cases hrun
      exact asked_none hname (hnoted.givenUp hname) rfl
    · next hinterface =>
      have hname : table.isComponent name := by rw [hcomponent, Bool.eq_false_iff.mpr hinterface]; rfl
      exact build_exact h hfirst hget hname hnew hrun

/-- The rule for components is exact one level above rules that are. -/
theorem component_exact (h : rules.Exact table) (aliases : List QualifiedName) (name : QualifiedName)
    (first : Registry) (value : Option Nat) (last : Registry) (hfirst : first.Stands table aliases)
    (hrun : (component rules name).run first = some (value, last)) :
    Asked table aliases name first value last := by
  unfold component at hrun
  rw [StateT.run_bind, StateT.run_get, pure_bind] at hrun
  cases hindex : first.indexOf? name with
  | some id =>
    rw [hindex] at hrun
    cases hrun
    exact asked_known hfirst hindex
  | none =>
    rw [hindex] at hrun
    dsimp only at hrun
    rw [StateT.run_bind, StateT.run_get, pure_bind] at hrun
    split at hrun
    · next hfailed =>
      cases hrun
      exact asked_none (hfirst.failed name (by simpa using hfailed)) hfirst rfl
    · have hchosen := (isSchema_gives name first hfirst.faithful).1
      have hreads := isSchema_reads name first
      have hmiddle := hfirst.reads hreads
      have hnew : ((isSchema name).run first).2.indexOf? name = none := by
        rw [indexOf?_congr hreads.unchanged.1.index, hindex]
      rw [run_liftM_bind, hchosen] at hrun
      dsimp only at hrun
      generalize ((isSchema name).run first).2 = middle at hrun hmiddle hnew hreads
      refine Asked.of_reads ?_ hreads
      cases hoptedIn : table.isOptedIn name with
      | false =>
        rw [hoptedIn] at hrun
        cases hrun
        exact asked_none (by simp [Table.isComponent, hoptedIn]) hmiddle rfl
      | true =>
        rw [hoptedIn] at hrun
        exact optedIn_exact h hmiddle hoptedIn hnew hrun

/-- The rule for other declarations is exact one level above rules that are. -/
theorem inline_exact (h : rules.Exact table) (aliases : List QualifiedName) (name : QualifiedName)
    (subject : String) (hname : table.isComponent name = false) :
    Performs table aliases (table.render aliases name).requests (inline rules name subject)
      (· = table.shown aliases name) := by
  have hkind (halias : table.aliasOf? name = none) {schema : Schema}
      (hschema : schema = table.kindSchema name) :
      Performs table aliases (table.render aliases name).requests (pure schema)
        (· = table.shown aliases name) := by
    rw [Table.shown, Table.render_kind halias hname]
    exact .pure hschema
  unfold inline
  refine .get_bind fun registry hregistry => ?_
  rw [Registry.table, hregistry.faithful.resolver.table.get?]
  cases hget : table.get? name with
  | none => exact hkind (by simp [Table.aliasOf?, hget]) (by simp [Table.kindSchema, hget])
  | some declaration =>
    have halias : table.aliasOf? name = declaration.target? := by simp [Table.aliasOf?, hname, hget]
    have hschema : table.kindSchema name = declaration.shape.kindSchema := by simp [Table.kindSchema, hget]
    unfold Declaration.target? at halias
    dsimp only
    cases hshape : declaration.shape with
    | struct fields => exact hkind (by rw [halias, hshape]) (by rw [hschema, hshape]; rfl)
    | enum variants => exact hkind (by rw [halias, hshape]) (by rw [hschema, hshape]; rfl)
    | interface methods => exact hkind (by rw [halias, hshape]) (by rw [hschema, hshape]; rfl)
    | typeAlias target =>
      rw [hshape] at halias
      refine .get_bind fun registry hregistry => ?_
      rw [hregistry.expanding, Table.shown]
      split
      · next hmem =>
        rw [Table.render_cut halias (by simpa using hmem)]
        exact .pure rfl
      · next hmem =>
        rw [Table.render_expand halias (by simpa using hmem)]
        exact .expanding (resolve_performs h name.module subject _) fun result hresult => by rw [hresult]

end Synthesis

/-- The rules of every depth are exact. -/
theorem Recursion.ofDepth_exact (table : Table) (depth : Nat) : (Recursion.ofDepth depth).Exact table := by
  induction depth with
  | zero =>
    constructor
    · intro aliases name first value last _ hrun
      cases hrun
    · intro aliases name subject _ first value last _ hrun
      cases hrun
  | succ depth ih => exact ⟨Synthesis.component_exact ih, Synthesis.inline_exact ih⟩

namespace Registry

/-- A fresh registry is where runs start. -/
theorem stands_fresh {other : Table} (h : table.Alike other) : (fresh other).Stands table [] := by
  have hsame : Unchanged { resolver := { table := other } } (fresh other) := (ofResolver_prepares _).unchanged
  exact {
    faithful := faithful_fresh h
    index := fun name id => by rw [indexOf?_congr hsame.index, hsame.nodes]; simp [indexOf?]
    nodes := by rw [hsame.nodes]; exact fun _ h => absurd h List.not_mem_nil
    failed := by rw [hsame.failed]; exact fun _ h => absurd h List.not_mem_nil
    expanding := hsame.expanding }

/-- The rules of a run are exact. -/
theorem rules_exact (table : Table) (registry : Registry) : registry.rules.Exact table :=
  Recursion.ofDepth_exact table _

/-- Asking for a component does what the table says. -/
theorem synthesize_asked {first : Registry} (hfirst : first.Stands table []) (name : QualifiedName) :
    Asked table [] name first ((synthesize name).run first).1 ((synthesize name).run first).2 := by
  obtain ⟨value, last, hrun, -⟩ := first.rules_complete.component name first first.fits_declarable trivial
  have hsynthesize : (synthesize name).run first = (value, last) := perform_run_of_some hrun
  rw [hsynthesize]
  exact (rules_exact table first).component [] name first value last hfirst hrun

/-- Asking for the schema of a written type does what the table says. -/
theorem referenceFor_asked {first : Registry} (hfirst : first.Stands table []) (written : String)
    (scope : ModulePath) :
    let asked := (referenceFor written scope).run first
    asked.2.Stands table [] ∧
      GrownBy table (Request.each [] (((table.member? scope written).map Prod.snd).getD [])) first asked.2 ∧
      asked.1.toOption = (table.member? scope written).map Prod.fst := by
  obtain ⟨value, last, hrun, -⟩ :=
    Synthesis.referenceFor_completes first.rules_complete written scope first first.fits_declarable trivial
  have hreferenceFor : (referenceFor written scope).run first = (value, last) := perform_run_of_some hrun
  rw [hreferenceFor]
  exact Synthesis.referenceFor_performs (rules_exact table first) written scope first value last hfirst hrun

/-- Asking for components one after another builds those of a walk over the requests. -/
theorem after_synthesize {first : Registry} (hfirst : first.Stands table []) (names : List QualifiedName) :
    (first.after (names.map Call.synthesize)).Stands table [] ∧
      GrownBy table (Request.each [] (names.filter table.isComponent)) first
        (first.after (names.map Call.synthesize)) := by
  induction names generalizing first with
  | nil => exact ⟨hfirst, .refl rfl⟩
  | cons name rest ih =>
    have hasked := synthesize_asked hfirst name
    obtain ⟨hlast, hgrown⟩ := ih hasked.stands
    refine ⟨hlast, ?_⟩
    have hrequests : Request.each [] ((name :: rest).filter table.isComponent) =
        (if table.isComponent name then [⟨name, []⟩] else []) ++
          Request.each [] (rest.filter table.isComponent) := by
      rw [List.filter_cons]
      split <;> rfl
    rw [hrequests]
    exact hasked.grown.trans hgrown

end Registry

end ApiScribe
