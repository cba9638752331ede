import ApiScribe.Proofs.Survey.Aliases
import ApiScribe.Proofs.Survey.Performance

/-!
# When the order of requests matters

Runs over one table can ask for components in different orders. A component is built at the first request for
it, and that request can come up while aliases are being expanded, so which aliases these are depends on the
order. The schemas of all runs agree exactly if no component is built while an alias is being expanded that it
shows itself. At the end stands a table where one is, with two runs that disagree.
-/

namespace ApiScribe

namespace Table

variable {table : Table} {built : List QualifiedName} {requests log : List Request}

/-- A walk is determined by its requests and by what is built already. -/
theorem Walks.unique (h : table.Walks built requests log) {other : List Request}
    (hother : table.Walks built requests other) : log = other := by
  induction h generalizing other with
  | done built =>
    cases hother
    rfl
  | skip hmem _ ih =>
    cases hother with
    | skip _ hrest => exact ih hrest
    | build hnew => exact absurd hmem hnew
  | build hnew _ _ ihinner ihouter =>
    cases hother with
    | skip hmem => exact absurd hmem hnew
    | build _ hinner houter =>
      cases ihinner hinner
      cases ihouter houter
      rfl

/-- What holds of the first requests and is handed on to what a component asks for holds wherever a component
is built. -/
theorem Walks.holds {holds : Request → Prop}
    (hstep : ∀ request, holds request → ∀ inner ∈ table.requests request, holds inner)
    (h : table.Walks built requests log) (hrequests : ∀ request ∈ requests, holds request) :
    ∀ request ∈ log, holds request := by
  induction h with
  | done built => exact fun _ hmem => absurd hmem List.not_mem_nil
  | skip _ _ ih => exact ih fun request hmem => hrequests request (List.mem_cons_of_mem _ hmem)
  | @build built first rest inner outer _ _ _ ihinner ihouter =>
    have hfirst : holds first := hrequests first List.mem_cons_self
    intro request hmem
    rw [List.cons_append, List.mem_cons, List.mem_append] at hmem
    rcases hmem with rfl | hmem | hmem
    · exact hfirst
    · exact ihinner (hstep first hfirst) request hmem
    · exact ihouter (fun request hmem => hrequests request (List.mem_cons_of_mem _ hmem)) request hmem

/-- Where a component is built, every alias being expanded leads to a component. -/
theorem Walks.leads {names : List QualifiedName} (h : table.Walks built (Request.each [] names) log)
    {request : Request} (hrequest : request ∈ log) : ∀ expanded ∈ request.aliases, table.Leads expanded := by
  have hall : ∀ request ∈ log, ∀ expanded ∈ request.aliases, table.Leads expanded := by
    refine h.holds (fun _ hrequest _ hinner => leads_of_mem_requests hrequest hinner) fun request hmem => ?_
    obtain ⟨name, -, rfl⟩ := List.mem_map.mp hmem
    exact fun _ hmem => absurd hmem List.not_mem_nil
  exact hall request hrequest

/-- Whatever is asked for, no component is built while an alias is being expanded that it shows. -/
def Untangled (table : Table) : Prop :=
  ∀ (names : List QualifiedName) (log : List Request),
    table.Walks [] (Request.each [] (names.filter table.isComponent)) log →
    ∀ request ∈ log, ∀ expanded ∈ request.aliases, ¬ table.Shows request.name expanded

end Table

namespace Registry

variable {table : Table}

/-- With an exact index, the node of a name is the one that bears it. -/
theorem Indexed.nodeFor?_eq_some_iff {registry : Registry} (h : registry.Indexed) {name : QualifiedName}
    {node : Node} : registry.nodeFor? name = some node ↔ node ∈ registry.nodes ∧ node.canonical = name := by
  unfold nodeFor?
  rw [Option.bind_eq_some_iff]
  constructor
  · rintro ⟨id, hid, hnode⟩
    obtain ⟨other, hother, rfl⟩ := h.indexOf?_eq_some_iff.mp hid
    cases Option.some.inj (hnode.symm.trans hother)
    exact ⟨List.mem_of_getElem? hnode, rfl⟩
  · rintro ⟨hmem, rfl⟩
    obtain ⟨id, hid⟩ := List.mem_iff_getElem?.mp hmem
    exact ⟨id, h.indexOf?_eq_some_iff.mpr ⟨node, hid, rfl⟩, hid⟩

/-- The components of a run over a table are those of a walk. -/
theorem exists_walk_after (table : Table) (names : List QualifiedName) :
    ∃ log, table.Walks [] (Request.each [] (names.filter table.isComponent)) log ∧
      (∀ request ∈ log, table.isComponent request.name) ∧
      ∀ name node, ((fresh table).after (names.map Call.synthesize)).nodeFor? name = some node ↔
        ∃ request ∈ log, request.name = name ∧ node = table.node request := by
  have hempty : (fresh table).nodes = [] := (ofResolver_prepares { table }).unchanged.nodes
  obtain ⟨hstands, log, hwalks, hnodes⟩ := after_synthesize (stands_fresh (.refl table)) names
  rw [hempty] at hwalks hnodes
  have hmem (node : Node) : node ∈ ((fresh table).after (names.map Call.synthesize)).nodes ↔
      ∃ request ∈ log, table.node request = node := by
    rw [hnodes, List.nil_append, List.mem_map]
  refine ⟨log, hwalks, fun request hrequest => ?_, fun name node => ?_⟩
  · exact (hstands.nodes _ ((hmem _).mpr ⟨request, hrequest, rfl⟩)).1
  · rw [hstands.index.nodeFor?_eq_some_iff, hmem]
    constructor
    · rintro ⟨⟨request, hrequest, rfl⟩, hname⟩
      exact ⟨request, hrequest, hname, rfl⟩
    · rintro ⟨request, hrequest, hname, rfl⟩
      exact ⟨⟨request, hrequest, rfl⟩, hname⟩

/-- A component that is asked for first is built while no alias is being expanded. -/
theorem nodeFor?_first {name : QualifiedName} (h : table.isComponent name) :
    ((fresh table).after [Call.synthesize name]).nodeFor? name = some (table.node ⟨name, []⟩) := by
  obtain ⟨log, hwalks, -, hnodes⟩ := exists_walk_after table [name]
  refine (hnodes name _).mpr ⟨⟨name, []⟩, ?_, rfl, rfl⟩
  rw [List.filter_cons_of_pos h] at hwalks
  cases hwalks with
  | skip hmem => exact absurd hmem List.not_mem_nil
  | build => exact List.mem_cons_self

/-- The schemas of components are the same in all runs over a table exactly if no component is built while an
alias is being expanded that it shows. -/
theorem schemas_agree_iff_untangled (table : Table) :
    (∀ (names names' : List QualifiedName) (name : QualifiedName) (node node' : Node),
      ((fresh table).after (names.map Call.synthesize)).nodeFor? name = some node →
      ((fresh table).after (names'.map Call.synthesize)).nodeFor? name = some node' →
      node.schema = node'.schema) ↔ table.Untangled := by
  constructor
  · intro hagree names log hwalks request hrequest
    obtain ⟨other, hother, hcomponents, hnodes⟩ := exists_walk_after table names
    cases hwalks.unique hother
    have hnode := (hnodes request.name _).mpr ⟨request, hrequest, rfl, rfl⟩
    have hfirst := nodeFor?_first (hcomponents request hrequest)
    have hschema : table.schemaOf request.aliases request.name = table.schemaOf [] request.name :=
      hagree names [request.name] request.name _ _ hnode hfirst
    exact (Table.schemaOf_eq_iff (hwalks.leads hrequest) request.name).mp hschema
  · intro huntangled names names' name node node' hnode hnode'
    -- In both runs the schema is the one that the component has while no alias is being expanded.
    have hschema {names : List QualifiedName} {node : Node}
        (h : ((fresh table).after (names.map Call.synthesize)).nodeFor? name = some node) :
        node.schema = table.schemaOf [] name := by
      obtain ⟨log, hwalks, -, hnodes⟩ := exists_walk_after table names
      obtain ⟨request, hrequest, rfl, rfl⟩ := (hnodes name node).mp h
      exact (Table.schemaOf_eq_iff (hwalks.leads hrequest) request.name).mpr
        (huntangled names log hwalks request hrequest)
    rw [hschema hnode, hschema hnode']

/-- The declarations of `struct Owner { pets: Pets }`, `struct Pet { siblings: Pets }` and
`type Pets = Vec<Pet>`, of which the structs are opted in. -/
def petsTable : Table where
  declarations :=
    [(⟨.root, "Owner"⟩,
      { name := ⟨.root, "Owner"⟩
        shape := .struct [⟨some "pets", .path false [] "Pets" [], [], {}⟩]
        docs := ["openapi:schema"], generics := [], options := {}, source := "src/lib.rs" }),
    (⟨.root, "Pet"⟩,
      { name := ⟨.root, "Pet"⟩
        shape := .struct [⟨some "siblings", .path false [] "Pets" [], [], {}⟩]
        docs := ["openapi:schema"], generics := [], options := {}, source := "src/lib.rs" }),
    (⟨.root, "Pets"⟩,
      { name := ⟨.root, "Pets"⟩
        shape := .typeAlias (.path false [] "Vec" [.path false [] "Pet" []])
        docs := [], generics := [], options := {}, source := "src/lib.rs" })]
  scopes := [(.root, [])]

set_option maxRecDepth 4000 in
/-- The siblings of a pet are free-form if the owner is asked for first, and an array of pets otherwise. -/
theorem schemas_disagree_pets :
    let owner : QualifiedName := ⟨.root, "Owner"⟩
    let pet : QualifiedName := ⟨.root, "Pet"⟩
    let built (siblings : Schema) : Node :=
      ⟨pet, "Pet",
        { Schema.ofKind .object with required := ["siblings"], properties := [("siblings", siblings)] }⟩
    let free := built {}
    let array := built (Schema.arrayOf (Schema.referenceTo "Pet"))
    ((fresh petsTable).after ([owner, pet].map Call.synthesize)).nodeFor? pet = some free ∧
    ((fresh petsTable).after ([pet].map Call.synthesize)).nodeFor? pet = some array ∧
    free.schema ≠ array.schema := by
  refine ⟨rfl, rfl, fun h => ?_⟩
  have hproperties := congrArg Schema.properties h
  cases hproperties

end Registry

end ApiScribe
