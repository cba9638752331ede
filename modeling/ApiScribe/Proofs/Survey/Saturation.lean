import ApiScribe.Proofs.Registry.Pending
import ApiScribe.Proofs.Survey.Order

/-!
# When everything is built

Without a loader, building everything asks for all components of the table in canonical order. After that
nothing is left to build, whatever a registry is asked for. The components are the same for all tables that say
the same.
-/

namespace ApiScribe

namespace Table

variable {table : Table} {built : List QualifiedName} {requests log : List Request}

/-- Everything that is asked for is built in the end. -/
theorem Walks.mem_of_mem_requests (h : table.Walks built requests log) {request : Request}
    (hrequest : request ∈ requests) : request.name ∈ built ++ log.map Request.name := by
  induction h with
  | done => cases hrequest
  | skip hmem _ ih =>
    rcases List.mem_cons.mp hrequest with rfl | hrequest
    · exact List.mem_append_left _ hmem
    · exact ih hrequest
  | build _ _ _ _ ihouter =>
    rcases List.mem_cons.mp hrequest with rfl | hrequest
    · simp
    · simpa [or_assoc] using ihouter hrequest

/-- Nothing is built again. -/
theorem Walks.not_mem_of_mem_log (h : table.Walks built requests log) {request : Request}
    (hrequest : request ∈ log) : request.name ∉ built := by
  induction h with
  | done => cases hrequest
  | skip _ _ ih => exact ih hrequest
  | build hnew _ _ ihinner ihouter =>
    rw [List.cons_append, List.mem_cons, List.mem_append] at hrequest
    rcases hrequest with rfl | hrequest | hrequest
    · exact hnew
    · exact fun hmem => ihinner hrequest (List.mem_append_left _ hmem)
    · exact fun hmem => ihouter hrequest (List.mem_append_left _ hmem)

/-- Nothing is built if everything asked for is there. -/
theorem Walks.of_subset (h : ∀ request ∈ requests, request.name ∈ built) : table.Walks built requests [] := by
  induction requests with
  | nil => exact .done built
  | cons request rest ih =>
    exact .skip (h request List.mem_cons_self) (ih fun other hother => h other (List.mem_cons_of_mem _ hother))

/-- Requests for what is there can be left out. -/
theorem Walks.of_filter {known : List QualifiedName} (hknown : known ⊆ built)
    (h : table.Walks built (requests.filter fun request => request.name ∉ known) log) :
    table.Walks built requests log := by
  induction requests generalizing built log with
  | nil => exact h
  | cons request rest ih =>
    by_cases hmem : request.name ∈ known
    · rw [List.filter_cons_of_neg (by simpa using hmem)] at h
      exact .skip (hknown hmem) (ih hknown h)
    · rw [List.filter_cons_of_pos (by simpa using hmem)] at h
      cases h with
      | skip hbuilt hrest => exact .skip hbuilt (ih hknown hrest)
      | build hnew hinner houter =>
        exact .build hnew hinner (ih (List.Subset.trans hknown (List.subset_append_left _ _)) houter)

/-- The requests for all components of a table, in canonical order. -/
def allRequests (table : Table) : List Request := Request.each [] (table.names.filter table.isComponent)

end Table

namespace Registry

variable {table : Table} {first last registry : Registry} {requests : List Request}

/-- Asking again for the same builds nothing. -/
theorem GrownBy.again {middle : Registry} (h : GrownBy table requests first middle)
    (h' : GrownBy table requests middle last) : GrownBy table requests first last := by
  obtain ⟨log, hwalks, hnodes⟩ := h
  obtain ⟨log', hwalks', hnodes'⟩ := h'
  have hbuilt : ∀ request ∈ requests, request.name ∈ middle.nodes.map Node.canonical := by
    intro request hrequest
    have hmem := hwalks.mem_of_mem_requests hrequest
    rw [hnodes, List.map_append, List.map_map]
    exact hmem
  cases hwalks'.unique (.of_subset hbuilt)
  refine ⟨log, hwalks, ?_⟩
  rw [hnodes', List.map_nil, List.append_nil, hnodes]

/-- A registry that stands has the names of the table. -/
theorem Stands.names (h : registry.Stands table []) : registry.table.names = table.names := by
  rw [Table.names, Registry.table, h.faithful.resolver.table.declarations, Table.names]

/-- A component is pending exactly as long as it is not built. -/
theorem Stands.isPending_iff (h : registry.Stands table []) {name : QualifiedName}
    (hname : table.isComponent name) :
    registry.isPending name = true ↔ name ∉ registry.nodes.map Node.canonical := by
  have hoptedIn : registry.isOptedIn name = true := by
    rw [← isSchema_run_fst, (isSchema_gives name registry h.faithful).1]
    exact (Bool.and_eq_true_iff.mp hname).1
  have hfailed : name ∉ registry.failed := by
    intro hmem
    rw [h.failed name hmem] at hname
    cases hname
  have hsettled : registry.isSettled name = true ↔ name ∈ registry.nodes.map Node.canonical := by
    rw [isSettled_iff, or_iff_left hfailed, List.mem_iff_getElem?]
    exact exists_congr (h.index name)
  rw [isPending, hoptedIn, Bool.true_and, Bool.not_eq_true', ← Bool.not_eq_true, hsettled]

/-- Building one after another is a run of calls. -/
theorem synthesizeEach_run (names : List QualifiedName) (registry : Registry) :
    ((synthesizeEach names).run registry).2 = registry.after (names.map Call.synthesize) := by
  induction names generalizing registry with
  | nil => rfl
  | cons name rest ih => exact ih _

/-- A pass asks for all components, since those that are not pending are there. -/
theorem Stands.pass (h : registry.Stands table []) :
    let passed := ((synthesizeEach (pending.run registry).1).run (pending.run registry).2).2
    passed.Stands table [] ∧ GrownBy table table.allRequests registry passed := by
  have hreads := pending_reads registry
  have hnodes : (pending.run registry).2.nodes = registry.nodes := hreads.unchanged.1.nodes
  obtain ⟨hstands, log, hwalks, hlog⟩ := after_synthesize (h.reads hreads) (pending.run registry).1
  have hpending : (pending.run registry).1.filter table.isComponent =
      (table.names.filter table.isComponent).filter fun name => name ∉ registry.nodes.map Node.canonical := by
    rw [(pending_run registry).1, h.names, List.filter_filter, List.filter_filter]
    refine List.filter_congr fun name _ => ?_
    cases hname : table.isComponent name with
    | false => simp
    | true =>
      rw [Bool.true_and, Bool.and_true, Bool.eq_iff_iff, h.isPending_iff hname, decide_eq_true_iff]
  rw [← synthesizeEach_run] at hstands hlog
  refine ⟨hstands, log, ?_, ?_⟩
  · rw [hnodes, hpending] at hwalks
    refine Table.Walks.of_filter (List.Subset.refl _) ?_
    rw [Table.allRequests, Request.each, List.filter_map]
    exact hwalks
  · rw [hlog, hnodes]

/-- If nothing is pending, all components have been asked for. -/
theorem Stands.rest (h : registry.Stands table []) (hempty : (pending.run registry).1.isEmpty = true) :
    (pending.run registry).2.Stands table [] ∧
      GrownBy table table.allRequests registry (pending.run registry).2 := by
  have hpass := h.pass
  rw [List.isEmpty_iff.mp hempty] at hpass
  exact hpass

/-- Passes ask for all components. -/
theorem Stands.passes (h : registry.Stands table []) (passes : Nat) :
    ((synthesizePasses (passes + 1)).run registry).2.Stands table [] ∧
      GrownBy table table.allRequests registry ((synthesizePasses (passes + 1)).run registry).2 := by
  induction passes generalizing registry with
  | zero =>
    rw [synthesizePasses_succ_run]
    split
    · next hempty => exact h.rest hempty
    · exact h.pass
  | succ passes ih =>
    rw [synthesizePasses_succ_run]
    split
    · next hempty => exact h.rest hempty
    · obtain ⟨hpassed, hgrown⟩ := h.pass
      obtain ⟨hlast, hgrown'⟩ := ih hpassed
      exact ⟨hlast, hgrown.again hgrown'⟩

/-- A registry in which all components of the table are built. -/
structure Saturated (table : Table) (registry : Registry) : Prop where
  stands : registry.Stands table []
  built : ∀ name, table.isComponent name → name ∈ registry.nodes.map Node.canonical

/-- Findings do not matter to a saturated registry. -/
theorem Saturated.withFindings (h : registry.Saturated table) (findings : List Finding) :
    (registry.withFindings findings).Saturated table :=
  ⟨h.stands.reads (.note registry findings), h.built⟩

/-- Building everything leaves nothing to build. -/
theorem Stands.synthesizeAll (h : registry.Stands table []) :
    (synthesizeAll.run registry).2.Saturated table ∧
      GrownBy table table.allRequests registry (Registry.synthesizeAll.run registry).2 := by
  obtain ⟨hstands, hgrown⟩ := h.passes registry.nameBound
  refine ⟨⟨hstands, fun name hname => ?_⟩, hgrown⟩
  obtain ⟨log, hwalks, hnodes⟩ := hgrown
  have hdeclared : name ∈ table.names :=
    (Table.contains_iff_mem_names table name).mp (Bool.and_eq_true_iff.mp (Bool.and_eq_true_iff.mp hname).1).1
  have hrequest : (⟨name, []⟩ : Request) ∈ table.allRequests :=
    List.mem_map.mpr ⟨name, List.mem_filter.mpr ⟨hdeclared, hname⟩, rfl⟩
  have hmem := hwalks.mem_of_mem_requests hrequest
  change name ∈ ((synthesizePasses (registry.nameBound + 1)).run registry).2.nodes.map Node.canonical
  rw [hnodes, List.map_append, List.map_map]
  exact hmem

/-- Where all components are built, none is added. -/
theorem Saturated.nodes_eq (h : first.Saturated table) (hlast : last.Stands table [])
    (hgrown : GrownBy table requests first last) : last.nodes = first.nodes := by
  obtain ⟨log, hwalks, hnodes⟩ := hgrown
  have hlog : log = [] := by
    refine List.eq_nil_iff_forall_not_mem.mpr fun request hrequest => ?_
    have hnode : table.node request ∈ last.nodes := by
      rw [hnodes]
      exact List.mem_append_right _ (List.mem_map_of_mem hrequest)
    exact hwalks.not_mem_of_mem_log hrequest (h.built _ (hlast.nodes _ hnode).1)
  rw [hnodes, hlog, List.map_nil, List.append_nil]

/-- A saturated registry stays saturated. -/
theorem Saturated.grown (h : first.Saturated table) (hlast : last.Stands table [])
    (hgrown : GrownBy table requests first last) : last.Saturated table :=
  ⟨hlast, h.nodes_eq hlast hgrown ▸ h.built⟩

/-- Building everything from the start gives the same components for all tables that say the same. -/
theorem nodes_synthesizeAll_fresh {other : Table} (h : table.Alike other) :
    (synthesizeAll.run (fresh other)).2.nodes = (synthesizeAll.run (fresh table)).2.nodes := by
  have hempty (table : Table) : (fresh table).nodes = [] := (ofResolver_prepares { table }).unchanged.nodes
  obtain ⟨-, log, hwalks, hnodes⟩ := (stands_fresh (.refl table)).synthesizeAll
  obtain ⟨-, log', hwalks', hnodes'⟩ := (stands_fresh h).synthesizeAll
  rw [hempty] at hwalks hwalks' hnodes hnodes'
  rw [hnodes, hnodes', hwalks.unique hwalks']

end Registry

end ApiScribe
