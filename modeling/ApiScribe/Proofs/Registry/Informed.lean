import ApiScribe.Proofs.Registry.Pending

/-!
# Registries that know what their table says

A run reads a comment only when its declaration is in the table, and the declaration stays as it is. So the
comments that the registry knows are those of the table, also when the table has grown in the meantime. With
it, components are opted-in declarations, and what was given up are traits; and when nothing is pending, no
opted-in declaration is missing.
-/

namespace ApiScribe

/-- A declaration is opted in as a component: it is not a trait, and its comment says so. -/
def Declaration.IsComponent (declaration : Declaration) (name : QualifiedName) : Prop :=
  declaration.shape.isInterface = false ∧
    (Comment.Container.read declaration.docs name.display).1.schema = true

namespace Registry

/-- The registry knows what its table says, has components of opted-in declarations only, and gave up
traits only. -/
structure Informed (registry : Registry) : Prop where
  comments : ∀ entry ∈ registry.containers,
    registry.table.contains entry.1 = true ∧ entry.2 = registry.commentOf entry.1
  nodes : ∀ node ∈ registry.nodes, ∃ declaration,
    registry.table.get? node.canonical = some declaration ∧ declaration.IsComponent node.canonical
  failed : ∀ name ∈ registry.failed, ∃ declaration,
    registry.table.get? name = some declaration ∧ declaration.shape.isInterface = true

/-- An empty registry is informed. -/
theorem informed_ofEmpty (resolver : Resolver) : Informed { resolver } where
  comments _ h := by cases h
  nodes _ h := by cases h
  failed _ h := by cases h

/-- What the registry takes a comment to say is what the table says. -/
theorem Informed.commentFor_eq {registry : Registry} (h : registry.Informed) (name : QualifiedName) :
    registry.commentFor name = registry.commentOf name := by
  rw [commentFor]
  cases hcomment : registry.comment? name with
  | none => rfl
  | some comment =>
    obtain ⟨entry, hfind, rfl⟩ := Option.map_eq_some_iff.mp hcomment
    have hname : entry.1 = name := by simpa using List.find?_some hfind
    rw [Option.getD_some, (h.comments entry (List.mem_of_find?_eq_some hfind)).2, hname]

/-- A declaration that is not a trait is opted in exactly if it is a component. -/
theorem Informed.isOptedIn_iff {registry : Registry} (h : registry.Informed) {name : QualifiedName}
    {declaration : Declaration} (hget : registry.table.get? name = some declaration) :
    registry.isOptedIn name = (Comment.Container.read declaration.docs name.display).1.schema := by
  rw [isOptedIn, h.commentFor_eq, commentOf_eq hget, Table.contains, hget, Option.isSome_some, Bool.true_and]

/-- A registry that grows without new comments, components and failures stays informed. -/
theorem Informed.grows {first last : Registry} (h : first.Informed) (hgrows : Grows first last)
    (hcontainers : last.containers = first.containers)
    (hnodes : last.nodes.map Node.canonical = first.nodes.map Node.canonical)
    (hfailed : last.failed = first.failed) : last.Informed where
  comments entry hentry := by
    rw [hcontainers] at hentry
    obtain ⟨hdeclared, hcomment⟩ := h.comments entry hentry
    exact ⟨hgrows.contains hdeclared, by rw [hcomment, hgrows.commentOf_eq hdeclared]⟩
  nodes node hnode := by
    have hcanonical : node.canonical ∈ first.nodes.map Node.canonical := hnodes ▸ List.mem_map_of_mem hnode
    obtain ⟨old, hold, heq⟩ := List.mem_map.mp hcanonical
    obtain ⟨declaration, hget, hcomponent⟩ := h.nodes old hold
    rw [heq] at hget hcomponent
    exact ⟨declaration, hgrows.declarations _ _ hget, hcomponent⟩
  failed name hname := by
    rw [hfailed] at hname
    obtain ⟨declaration, hget, hshape⟩ := h.failed name hname
    exact ⟨declaration, hgrows.declarations _ _ hget, hshape⟩

/-- Looking something up keeps a registry informed. -/
theorem Reads.informed {first last : Registry} (h : Reads first last) (hfirst : first.Informed) :
    last.Informed := by
  induction h with
  | refl => exact hfirst
  | trans _ _ ih ih' => exact ih' (ih hfirst)
  | note registry findings => exact hfirst.grows (Reads.note registry findings).grows rfl rfl rfl
  | load registry module => exact hfirst.grows (Reads.load registry module).grows rfl rfl rfl
  | comment registry name hdeclared _ =>
    refine { hfirst with comments := fun entry hentry => ?_ }
    rcases List.mem_cons.mp hentry with rfl | hentry
    · exact ⟨hdeclared, rfl⟩
    · exact hfirst.comments entry hentry

/-- Preparing keeps a registry informed. -/
theorem Prepares.informed {first last : Registry} (h : Prepares first last) (hfirst : first.Informed) :
    last.Informed := by
  induction h with
  | read h => exact h.informed hfirst
  | trans _ _ ih ih' => exact ih' (ih hfirst)
  | entitle => exact { hfirst with }

/-- Taking a place for an opted-in declaration keeps a registry informed. -/
theorem Informed.opened {registry : Registry} (h : registry.Informed) {name : QualifiedName}
    {declaration : Declaration} (hget : registry.table.get? name = some declaration)
    (hshape : declaration.shape.isInterface = false) (hopted : registry.isOptedIn name = true)
    (component : String) : (registry.opened name component).Informed where
  comments := h.comments
  nodes node hnode := by
    rcases List.mem_append.mp hnode with hnode | hnode
    · exact h.nodes node hnode
    · rw [List.mem_singleton.mp hnode]
      exact ⟨declaration, hget, hshape, (h.isOptedIn_iff hget) ▸ hopted⟩
  failed := h.failed

/-- A run keeps a registry informed. -/
theorem Advances.informed {first last : Registry} (h : Advances first last) (hfirst : first.Informed) :
    last.Informed := by
  induction h with
  | prepare h => exact h.informed hfirst
  | trans _ _ ih ih' => exact ih' (ih hfirst)
  | giveUp registry name hget hshape =>
    refine { hfirst with failed := fun other hother => ?_ }
    rcases List.mem_cons.mp hother with rfl | hother
    · exact ⟨_, hget, hshape⟩
    · exact hfirst.failed other hother
  | build name component schema hget hshape hopted _ _ _ _ ih =>
    have hlast := ih (hfirst.opened hget hshape hopted component)
    refine { hlast with nodes := fun node hnode => ?_ }
    rcases mem_or_exists_of_mem_modify hnode with hnode | ⟨old, hold, rfl⟩
    · exact hlast.nodes node hnode
    · exact hlast.nodes old hold
  | expand name _ ih => exact { ih { hfirst with } with }

/-- With nothing pending, components are exactly the opted-in declarations. -/
theorem Informed.mem_canonical_iff {registry : Registry} (h : registry.Informed) (hindex : registry.Indexed)
    (hpending : ∀ name ∈ registry.table.names, registry.isPending name = false) (name : QualifiedName) :
    name ∈ registry.nodes.map Node.canonical ↔
      ∃ declaration, registry.table.get? name = some declaration ∧ declaration.IsComponent name := by
  constructor
  · intro hname
    obtain ⟨node, hnode, rfl⟩ := List.mem_map.mp hname
    exact h.nodes node hnode
  · rintro ⟨declaration, hget, hshape, hschema⟩
    have hdeclared : name ∈ registry.table.names :=
      (Table.contains_iff_mem_names _ _).mp (Option.isSome_iff_exists.mpr ⟨declaration, hget⟩)
    have hsettled : registry.isSettled name = true := by
      have hnot := hpending name hdeclared
      rw [isPending, h.isOptedIn_iff hget, hschema, Bool.true_and] at hnot
      simpa using hnot
    rcases isSettled_iff.mp hsettled with ⟨id, hid⟩ | hfailed
    · exact List.mem_of_getElem? ((hindex name id).mp hid)
    · obtain ⟨other, hother, hinterface⟩ := h.failed name hfailed
      rw [hget] at hother
      cases hother
      rw [hshape] at hinterface
      cases hinterface

end Registry

end ApiScribe
