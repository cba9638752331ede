import ApiScribe.Proofs.Registry.Steps

/-!
# Registries grow and stay sound

Steps only ever add to a registry. Declarations stay, with what their comments say; components that are there keep
their number, their name and their schema, and what is being built or expanded is the same before and after.
Soundness is the invariant of all steps: canonical names and component names are distinct, the index is exact, and
every reference in a component leads to a component.
-/

namespace ApiScribe

/-- Changing an entry in the middle of a list leaves what is in front of it. -/
theorem modify_append_cons {α : Type} (front rest : List α) (entry : α) (change : α → α) :
    (front ++ entry :: rest).modify front.length change = front ++ change entry :: rest := by
  induction front with
  | nil => rfl
  | cons first front ih => simp [ih]

/-- A view that a change does not show is unaffected by it. -/
theorem map_modify_of_eq {α β : Type} (entries : List α) (place : Nat) (change : α → α) (view : α → β)
    (h : ∀ entry, view (change entry) = view entry) :
    (entries.modify place change).map view = entries.map view := by
  induction entries generalizing place with
  | nil => cases place <;> rfl
  | cons entry rest ih =>
    cases place with
    | zero => simp [h]
    | succ place => simp [ih]

/-- An entry of a changed list was there before or comes from one that was. -/
theorem mem_or_exists_of_mem_modify {α : Type} {entries : List α} {place : Nat} {change : α → α}
    {entry : α} (h : entry ∈ entries.modify place change) :
    entry ∈ entries ∨ ∃ old ∈ entries, entry = change old := by
  induction entries generalizing place with
  | nil => cases place <;> exact .inl h
  | cons first rest ih =>
    cases place with
    | zero =>
      rcases List.mem_cons.mp h with rfl | h
      · exact .inr ⟨first, List.mem_cons_self, rfl⟩
      · exact .inl (List.mem_cons_of_mem _ h)
    | succ place =>
      rw [List.modify_succ_cons] at h
      rcases List.mem_cons.mp h with rfl | h
      · exact .inl List.mem_cons_self
      · rcases ih h with h | ⟨old, hold, rfl⟩
        · exact .inl (List.mem_cons_of_mem _ h)
        · exact .inr ⟨old, List.mem_cons_of_mem _ hold, rfl⟩

/-- The entries of a list with one more at its end. -/
theorem getElem?_concat_eq_some_iff {α : Type} (entries : List α) (entry other : α) (place : Nat) :
    (entries ++ [entry])[place]? = some other ↔
      entries[place]? = some other ∨ (place = entries.length ∧ entry = other) := by
  grind

namespace Registry

/-- Preparing a registry changes no component. -/
theorem Prepares.unchanged {first last : Registry} (h : Prepares first last) : Unchanged first last := by
  induction h with
  | read h => exact h.unchanged.1
  | trans _ _ ih ih' => exact ih.trans ih'
  | entitle => exact ⟨rfl, rfl, rfl, rfl, rfl⟩

/-- The number of a component depends on the index only. -/
theorem indexOf?_congr {first last : Registry} (h : last.index = first.index) (name : QualifiedName) :
    last.indexOf? name = first.indexOf? name := by
  unfold indexOf?
  rw [h]

/-- A component that is opened gets the next number. -/
theorem indexOf?_opened (registry : Registry) (name other : QualifiedName) (component : String) :
    (registry.opened name component).indexOf? other =
      if name = other then some registry.nodes.length else registry.indexOf? other := by
  unfold indexOf? opened
  by_cases h : name = other <;> simp [h]

/-- The comment of a declaration is read from its documentation. -/
theorem commentOf_eq {registry : Registry} {name : QualifiedName} {declaration : Declaration}
    (h : registry.table.get? name = some declaration) :
    registry.commentOf name = (Comment.Container.read declaration.docs name.display).1 := by
  rw [commentOf, h]
  rfl

/-- What only ever grows in a registry, and what comes back to what it was. -/
structure Grows (first last : Registry) : Prop where
  nodes : first.nodes <+: last.nodes
  indexed : ∀ name id, first.indexOf? name = some id → last.indexOf? name = some id
  visiting : last.visiting = first.visiting
  expanding : last.expanding = first.expanding
  loader : last.resolver.loader = first.resolver.loader
  declared : ∀ name ∈ last.table.names, name ∈ first.table.names ∨ name ∈ first.resolver.loader.names
  named : ∀ name component, first.names.get? name = some component →
    last.names.get? name = some component
  declarations : ∀ name declaration, first.table.get? name = some declaration →
    last.table.get? name = some declaration
  comments : ∀ name, first.table.contains name = true → last.commentFor name = first.commentFor name
  failed : first.failed ⊆ last.failed

/-- A registry grows to itself. -/
theorem Grows.refl (registry : Registry) : Grows registry registry where
  nodes := List.prefix_refl _
  indexed _ _ h := h
  visiting := rfl
  expanding := rfl
  loader := rfl
  declared _ h := .inl h
  named _ _ h := h
  declarations _ _ h := h
  comments _ _ := rfl
  failed _ h := h

/-- What is declared stays declared. -/
theorem Grows.contains {first last : Registry} (h : Grows first last) {name : QualifiedName}
    (hname : first.table.contains name = true) : last.table.contains name = true := by
  obtain ⟨declaration, hget⟩ := Option.isSome_iff_exists.mp hname
  exact Option.isSome_iff_exists.mpr ⟨declaration, h.declarations name declaration hget⟩

/-- What the comment of a declaration says stays the same. -/
theorem Grows.commentOf_eq {first last : Registry} (h : Grows first last) {name : QualifiedName}
    (hname : first.table.contains name = true) : last.commentOf name = first.commentOf name := by
  obtain ⟨declaration, hget⟩ := Option.isSome_iff_exists.mp hname
  rw [Registry.commentOf_eq hget, Registry.commentOf_eq (h.declarations _ _ hget)]

/-- What is opted in stays so. -/
theorem Grows.isOptedIn {first last : Registry} (h : Grows first last) {name : QualifiedName}
    (hname : first.isOptedIn name = true) : last.isOptedIn name = true := by
  obtain ⟨hcontains, hschema⟩ := Bool.and_eq_true_iff.mp hname
  rw [Registry.isOptedIn, h.contains hcontains, h.comments name hcontains, hschema]
  rfl

/-- Growth is transitive. -/
theorem Grows.trans {first middle last : Registry} (h : Grows first middle) (h' : Grows middle last) :
    Grows first last where
  nodes := h.nodes.trans h'.nodes
  indexed name id hname := h'.indexed name id (h.indexed name id hname)
  visiting := h'.visiting.trans h.visiting
  expanding := h'.expanding.trans h.expanding
  loader := h'.loader.trans h.loader
  declared name hname := by
    rcases h'.declared name hname with hname | hname
    · exact h.declared name hname
    · exact .inr (h.loader ▸ hname)
  named name component hname := h'.named name component (h.named name component hname)
  declarations name declaration hname :=
    h'.declarations name declaration (h.declarations name declaration hname)
  comments name hname := (h'.comments name (h.contains hname)).trans (h.comments name hname)
  failed _ hname := h'.failed (h.failed hname)

/-- A comment that was read is known, and the others are as before. -/
theorem comment?_withComment (registry : Registry) (name other : QualifiedName) :
    (registry.withComment name).comment? other =
      if name = other then some (registry.commentOf name) else registry.comment? other := by
  by_cases h : name = other <;> simp [comment?, withComment, h]

/-- Reading a comment does not change what any comment is taken to say. -/
theorem commentFor_withComment {registry : Registry} {name : QualifiedName}
    (hnew : registry.comment? name = none) (other : QualifiedName) :
    (registry.withComment name).commentFor other = registry.commentFor other := by
  rw [commentFor, comment?_withComment]
  by_cases h : name = other
  · rw [if_pos h, ← h, commentFor, hnew]
    rfl
  · rw [if_neg h]
    rfl

/-- Reading a new comment is growth. -/
theorem withComment_grows {registry : Registry} {name : QualifiedName} (hnew : registry.comment? name = none) :
    Grows registry (registry.withComment name) :=
  { Grows.refl registry with comments := fun other _ => commentFor_withComment hnew other }

/-- Reading is growth. -/
theorem Reads.grows {first last : Registry} (h : Reads first last) : Grows first last := by
  induction h with
  | refl registry => exact .refl registry
  | trans _ _ ih ih' => exact ih.trans ih'
  | note registry findings => exact { Grows.refl registry with }
  | load registry module =>
    exact { Grows.refl registry with
      loader := Resolver.ensureModule_loader registry.resolver module
      declared := fun name hname => Resolver.mem_names_of_ensureModule hname
      declarations := fun name declaration hname => Resolver.get?_ensureModule hname module
      comments := fun name hname => by
        obtain ⟨declaration, hget⟩ := Option.isSome_iff_exists.mp hname
        have hlast : (table { registry with resolver := registry.resolver.ensureModule module }).get? name =
            some declaration := Resolver.get?_ensureModule hget module
        rw [commentFor, commentOf_eq hlast, ← commentOf_eq hget]
        rfl }
  | comment registry name _ hnew => exact withComment_grows hnew

/-- Asking whether a declaration is opted in does not change the answer. -/
theorem isOptedIn_isSchema_run (name : QualifiedName) (registry : Registry) :
    ((isSchema name).run registry).2.isOptedIn name = registry.isOptedIn name := by
  cases h : registry.table.contains name with
  | true =>
    have hgrows := (isSchema_reads name registry).grows
    rw [isOptedIn, isOptedIn, hgrows.contains h, hgrows.comments name h, h]
  | false => rw [isSchema_run_of_not_contains h]

/-- Preparing is growth. -/
theorem Prepares.grows {first last : Registry} (h : Prepares first last) : Grows first last := by
  induction h with
  | read h => exact h.grows
  | trans _ _ ih ih' => exact ih.trans ih'
  | entitle registry name preferred hnew =>
    obtain ⟨given, -, hassigned, -⟩ := ComponentNames.assign_eq_give preferred hnew
    refine { Grows.refl registry with named := fun other component hother => ?_ }
    dsimp only
    rw [hassigned]
    exact ComponentNames.get?_give_of_some hother

/-- A run only adds to a registry. -/
theorem Advances.grows {first last : Registry} (h : Advances first last) : Grows first last := by
  induction h with
  | prepare h => exact h.grows
  | trans _ _ ih ih' => exact ih.trans ih'
  | giveUp registry name =>
    exact { Grows.refl registry with failed := List.subset_cons_self _ _ }
  | @build first last name component schema declaration hget hshape hopted hnew hnamed _ _ ih =>
    -- The place taken stands right behind the old nodes, so filling it leaves them alone.
    obtain ⟨rest, hrest⟩ := ih.nodes
    have hnodes : last.nodes = first.nodes ++ ⟨name, component, {}⟩ :: rest := by
      rw [← hrest]
      exact List.append_assoc _ _ _
    exact {
      nodes := by
        unfold closed
        rw [hnodes, modify_append_cons]
        exact List.prefix_append _ _
      indexed := fun other id hother => by
        have hne : name ≠ other := by
          rintro rfl
          rw [hnew] at hother
          cases hother
        exact ih.indexed other id (by rw [indexOf?_opened, if_neg hne, hother])
      visiting := by
        have hvisiting : last.visiting = name :: first.visiting := ih.visiting
        simp [closed, hvisiting]
      expanding := ih.expanding
      loader := ih.loader
      declared := ih.declared
      named := ih.named
      declarations := ih.declarations
      comments := ih.comments
      failed := ih.failed }
  | @expand first last name _ ih =>
    have hexpanding : last.expanding = name :: first.expanding := ih.expanding
    exact { ih with expanding := by simp [hexpanding] }

/-- Steps only add to a registry. -/
theorem Steps.grows {first last : Registry} (h : Steps first last) : Grows first last := by
  induction h with
  | advance h => exact h.grows
  | trans _ _ ih ih' => exact ih.trans ih'
  | comment registry name hnew => exact withComment_grows hnew

/-- Components keep their names when a registry grows. -/
theorem Grows.componentNames_subset {first last : Registry} (h : Grows first last) :
    first.componentNames ⊆ last.componentNames :=
  List.map_subset _ h.nodes.subset

/-- The index gives exactly the places of the nodes. -/
def Indexed (registry : Registry) : Prop :=
  ∀ name id, registry.indexOf? name = some id ↔ (registry.nodes.map Node.canonical)[id]? = some name

/-- A name has the number of the node that bears it. -/
theorem Indexed.indexOf?_eq_some_iff {registry : Registry} (h : registry.Indexed) {name : QualifiedName}
    {id : Nat} : registry.indexOf? name = some id ↔
      ∃ node, registry.nodes[id]? = some node ∧ node.canonical = name := by
  rw [h name id, List.getElem?_map, Option.map_eq_some_iff]

/-- A name without a number has no node. -/
theorem Indexed.not_mem {registry : Registry} (h : registry.Indexed) {name : QualifiedName}
    (hnew : registry.indexOf? name = none) : name ∉ registry.nodes.map Node.canonical := by
  intro hmem
  obtain ⟨id, hid⟩ := List.mem_iff_getElem?.mp hmem
  rw [(h name id).mpr hid] at hnew
  cases hnew

/-- A component that is opened comes behind the others. -/
theorem canonical_opened (registry : Registry) (name : QualifiedName) (component : String) :
    (registry.opened name component).nodes.map Node.canonical =
      registry.nodes.map Node.canonical ++ [name] := by
  simp [opened]

/-- Finishing a component changes no names. -/
theorem canonical_closed (registry : Registry) (name : QualifiedName) (id : Nat) (schema : Schema) :
    (registry.closed name id schema).nodes.map Node.canonical = registry.nodes.map Node.canonical :=
  map_modify_of_eq _ _ _ _ fun _ => rfl

/-- Taking a place for a new component keeps the index exact. -/
theorem Indexed.opened {registry : Registry} (h : registry.Indexed) {name : QualifiedName}
    (hnew : registry.indexOf? name = none) (component : String) :
    (registry.opened name component).Indexed := by
  intro other id
  rw [indexOf?_opened, canonical_opened, getElem?_concat_eq_some_iff, List.length_map]
  by_cases hother : name = other
  · subst hother
    have hnone : (registry.nodes.map Node.canonical)[id]? ≠ some name :=
      fun hmem => h.not_mem hnew (List.mem_of_getElem? hmem)
    rw [if_pos rfl, or_iff_right hnone]
    simp [eq_comm]
  · simp [hother, h other id]

/-- Filling a place keeps the index exact. -/
theorem Indexed.closed {registry : Registry} (h : registry.Indexed) (name : QualifiedName) (id : Nat)
    (schema : Schema) : (registry.closed name id schema).Indexed := by
  intro other place
  rw [canonical_closed]
  exact h other place

/-- Distinct names, an exact index, and no reference that leads nowhere. -/
structure Sound (registry : Registry) : Prop where
  names : registry.names.Distinct
  named : ∀ node ∈ registry.nodes, registry.names.get? node.canonical = some node.name
  canonical : (registry.nodes.map Node.canonical).Nodup
  index : registry.Indexed
  references : ∀ node ∈ registry.nodes, node.schema.ResolvesIn registry.componentNames

/-- A registry without components is sound. -/
theorem sound_ofEmpty (resolver : Resolver) : Sound { resolver } where
  names := ⟨List.nodup_nil, List.nodup_nil⟩
  named _ h := by cases h
  canonical := List.nodup_nil
  index name id := by simp [indexOf?]
  references _ h := by cases h

/-- Looking something up keeps a registry sound. -/
theorem Reads.sound {first last : Registry} (h : Reads first last) (hfirst : first.Sound) : last.Sound := by
  induction h with
  | refl => exact hfirst
  | trans _ _ ih ih' => exact ih' (ih hfirst)
  | note => exact { hfirst with }
  | load => exact { hfirst with }
  | comment => exact { hfirst with }

/-- Preparing a registry keeps it sound. -/
theorem Prepares.sound {first last : Registry} (h : Prepares first last) (hfirst : first.Sound) :
    last.Sound := by
  induction h with
  | read h => exact h.sound hfirst
  | trans _ _ ih ih' => exact ih' (ih hfirst)
  | entitle registry name preferred hnew =>
    obtain ⟨given, -, hassigned, hfree⟩ := ComponentNames.assign_eq_give preferred hnew
    refine { hfirst with names := ?_, named := fun node hnode => ?_ }
    · dsimp only
      rw [hassigned]
      exact hfirst.names.give hnew hfree
    · dsimp only
      rw [hassigned]
      exact ComponentNames.get?_give_of_some (hfirst.named node hnode)

/-- Taking a place for a new component keeps a registry sound. -/
theorem Sound.opened {registry : Registry} (h : registry.Sound) {name : QualifiedName} {component : String}
    (hnew : registry.indexOf? name = none) (hnamed : registry.names.get? name = some component) :
    (registry.opened name component).Sound := by
  constructor
  · exact h.names
  · intro node hnode
    rcases List.mem_append.mp hnode with hnode | hnode
    · exact h.named node hnode
    · rw [List.mem_singleton.mp hnode]
      exact hnamed
  · rw [canonical_opened]
    simpa using h.canonical.concat (h.index.not_mem hnew)
  · exact h.index.opened hnew component
  · intro node hnode
    rcases List.mem_append.mp hnode with hnode | hnode
    · exact (h.references node hnode).mono (by simp [Registry.componentNames, Registry.opened])
    · rw [List.mem_singleton.mp hnode]
      exact Schema.resolvesIn_of_not_refers _ Schema.not_refers_empty

/-- Filling a place with a schema that resolves keeps a registry sound. -/
theorem Sound.closed {registry : Registry} (h : registry.Sound) (name : QualifiedName) (id : Nat)
    {schema : Schema} (hschema : schema.ResolvesIn registry.componentNames) :
    (registry.closed name id schema).Sound := by
  have hnames : (registry.closed name id schema).componentNames = registry.componentNames :=
    map_modify_of_eq _ _ _ _ fun _ => rfl
  constructor
  · exact h.names
  · intro node hnode
    rcases mem_or_exists_of_mem_modify hnode with hnode | ⟨old, hold, rfl⟩
    · exact h.named node hnode
    · exact h.named old hold
  · rw [canonical_closed]
    exact h.canonical
  · exact h.index.closed name id schema
  · intro node hnode
    rw [hnames]
    rcases mem_or_exists_of_mem_modify hnode with hnode | ⟨old, hold, rfl⟩
    · exact h.references node hnode
    · exact hschema

/-- A run keeps a registry sound. -/
theorem Advances.sound {first last : Registry} (h : Advances first last) (hfirst : first.Sound) :
    last.Sound := by
  induction h with
  | prepare h => exact h.sound hfirst
  | trans _ _ ih ih' => exact ih' (ih hfirst)
  | giveUp => exact { hfirst with }
  | build name component schema hget hshape hopted hnew hnamed _ hschema ih =>
    exact (ih (hfirst.opened hnew hnamed)).closed name _ hschema
  | expand name _ ih => exact { ih { hfirst with } with }

/-- Steps keep a registry sound. -/
theorem Steps.sound {first last : Registry} (h : Steps first last) (hfirst : first.Sound) : last.Sound := by
  induction h with
  | advance h => exact h.sound hfirst
  | trans _ _ ih ih' => exact ih' (ih hfirst)
  | comment => exact { hfirst with }

/-- The component names of a sound registry are distinct. -/
theorem Sound.componentNames_nodup {registry : Registry} (h : registry.Sound) :
    registry.componentNames.Nodup := by
  refine List.Nodup.map_on (fun a ha b hb hab => ?_) (List.Nodup.of_map _ h.canonical)
  have hcanonical := h.names.holder_unique (h.named a ha) (hab ▸ h.named b hb)
  exact List.inj_on_of_nodup_map h.canonical ha hb hcanonical

end Registry

end ApiScribe
