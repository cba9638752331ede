import ApiScribe.Generate
import ApiScribe.Proofs.Operation.Assembly

/-!
# References of the document

No reference of a generated document leads nowhere: wherever a schema stands, in a component at any
depth or in an operation, what it refers to is among the components of the same document. References
are handed out while their targets are still being built and while modules are loaded, so this rests
on the registry growing until the document is put together.
-/

namespace ApiScribe

namespace Document

/-- The schema stands somewhere in the document: as a component or in an operation. -/
inductive Shows (document : Document) : Schema → Prop where
  | component {schemas : List (String × Schema)} {name : String} {schema : Schema}
      (h : document.components = some schemas) (hschema : (name, schema) ∈ schemas) : Shows document schema
  | operation {path : String} {item : PathItem} {method : ApiScribe.Operation.Method}
      {operation : Operation} {schema : Schema} (hitem : (path, item) ∈ document.paths)
      (hoperation : item.operation? method = some operation) (hschema : operation.Shows schema) :
      Shows document schema

/-- A reference occurs somewhere in the document, at any depth of a schema. -/
def Refers (document : Document) (ref : String) : Prop := ∃ schema, document.Shows schema ∧ schema.Refers ref

end Document

namespace Builder

/-- Every operation of the builder shows covered schemas only. -/
def CoveredBy (builder : Builder) (registry : Registry) : Prop :=
  ∀ path item method operation, (path, item) ∈ builder.paths → item.operation? method = some operation →
    registry.CoversOperation operation

/-- Tags leave the paths alone. -/
theorem paths_foldl_addTag (tags : List Document.Tag) (builder : Builder) :
    (tags.foldl addTag builder).paths = builder.paths := by
  induction tags generalizing builder with
  | nil => rfl
  | cons tag rest ih => rw [List.foldl_cons, ih, addTag]

/-- Metadata leaves the paths alone. -/
theorem paths_withMetadata (builder : Builder) (metadata : Comment.Document) :
    (builder.withMetadata metadata).paths = builder.paths := by
  unfold withMetadata
  rw [← List.foldl_map, paths_foldl_addTag]

/-- The operations under a path are covered, also when the path is not there yet. -/
theorem coversOperation_of_lookup {builder : Builder} {path : String} {method : Operation.Method}
    {operation : Document.Operation} {registry : Registry} (h : builder.CoveredBy registry)
    (hoperation : ((Json.lookup path builder.paths).getD {}).operation? method = some operation) :
    registry.CoversOperation operation := by
  cases hitem : Json.lookup path builder.paths with
  | none =>
    rw [hitem] at hoperation
    cases method <;> cases hoperation
  | some item =>
    rw [hitem] at hoperation
    exact h path item method operation (Json.mem_of_lookup hitem) hoperation

/-- Adding a covered operation keeps all of them covered. -/
theorem CoveredBy.addOperation {builder : Builder} {registry : Registry} (h : builder.CoveredBy registry)
    {bound : Operation.Bound} (hbound : registry.CoversOperation bound.operation) :
    (builder.addOperation bound).1.CoveredBy registry := by
  intro path item method operation hitem hoperation
  have hpaths : (builder.addOperation bound).1.paths =
      Text.insertSorted Text.compareText bound.path
        (((Json.lookup bound.path builder.paths).getD {}).set bound.method bound.operation) builder.paths := by
    unfold Builder.addOperation
    rfl
  rw [hpaths] at hitem
  rcases Text.mem_of_mem_insertSorted hitem with hnew | hitem
  · obtain ⟨rfl, rfl⟩ := Prod.mk.inj hnew
    rw [Document.PathItem.operation?_set] at hoperation
    split at hoperation
    · exact Option.some.inj hoperation ▸ hbound
    · exact coversOperation_of_lookup h hoperation
  · exact h path item method operation hitem hoperation

/-- Adding covered operations keeps a builder covered. -/
theorem CoveredBy.addOperations {registry : Registry} {bounds : List Operation.Bound}
    (hbounds : ∀ bound ∈ bounds, registry.CoversOperation bound.operation) {builder : Builder}
    (h : builder.CoveredBy registry) : (builder.addOperations bounds).1.CoveredBy registry := by
  induction bounds generalizing builder with
  | nil => exact h
  | cons bound rest ih =>
    exact ih (fun other hother => hbounds other (List.mem_cons_of_mem _ hother))
      (h.addOperation (hbounds bound List.mem_cons_self))

/-- A document put together from covered operations and the components that cover them refers to its
components only. -/
theorem build_refers {builder : Builder} {registry : Registry} (h : builder.CoveredBy registry)
    (hsound : registry.Sound) {ref : String} (href : (builder.build registry.components).Refers ref) :
    ∃ schemas name schema, (builder.build registry.components).components = some schemas ∧
      (name, schema) ∈ schemas ∧ ref = Schema.componentsLead ++ name := by
  obtain ⟨shown, hshown, href⟩ := href
  have hcovers : registry.Covers shown := by
    cases hshown with
    | @component schemas name _ hschemas hschema =>
      have hmem : (name, shown) ∈ registry.components := by
        unfold build at hschemas
        dsimp only at hschemas
        split at hschemas
        · cases hschemas
        · exact Option.some.inj hschemas ▸ hschema
      obtain ⟨node, hnode, heq⟩ := List.mem_map.mp (hsound.components_perm.mem_iff.mp hmem)
      exact (Prod.mk.inj heq).2 ▸ hsound.references node hnode
    | operation hitem hoperation hschema => exact h _ _ _ _ hitem hoperation _ hschema
  obtain ⟨name, hname, rfl⟩ := hcovers ref href
  obtain ⟨node, hnode, rfl⟩ := List.mem_map.mp hname
  have hmem : (node.name, node.schema) ∈ registry.components :=
    hsound.components_perm.mem_iff.mpr (List.mem_map_of_mem hnode)
  refine ⟨registry.components, node.name, node.schema, ?_, hmem, rfl⟩
  unfold build
  rw [if_neg]
  exact fun hempty => List.ne_nil_of_mem hmem (List.isEmpty_iff.mp hempty)

end Builder

/-- The document is put together from a sound registry that covers its operations. -/
theorem Generation.finish_document (table : Table) (metadata : Comment.Document) (loader : Loader)
    (early : List Finding) :
    ∃ builder registry, (finish table metadata loader early).document =
        Builder.build builder (Registry.components registry) ∧
      builder.CoveredBy registry ∧ registry.Sound := by
  have hstart : (Registry.ofResolver { table, loader }).Sound :=
    (Registry.ofResolver_prepares _).sound (Registry.sound_ofEmpty _)
  unfold finish
  generalize Registry.ofResolver { table, loader } = start at hstart ⊢
  dsimp only
  split
  next _ built hbuilding =>
  split
  next operations assembler hassembling =>
  split
  next _ last hcompleting =>
  have hbuilt := (Registry.synthesizeAll_advances.of_run hbuilding).trans (Registry.takeFindings_advances built)
  have hlast := (Registry.synthesizeAll_advances.of_run hcompleting).trans (Registry.takeFindings_advances last)
  have hall : Operation.Assembles (fun _ => True) (Operation.assembleAll table.candidates) _ :=
    Operation.assembleAll_assembles table.candidates
  obtain ⟨hassembled, hcovers⟩ := hall { registry := built.takeFindings.2 } trivial
  rw [hassembling] at hassembled hcovers
  refine ⟨_, last.takeFindings.2, rfl, Builder.CoveredBy.addOperations (fun bound hbound => ?_) ?_, ?_⟩
  · exact Registry.lasting_coversOperation _ _ _ hlast (hcovers bound hbound)
  · intro path item method operation hitem
    rw [Builder.paths_foldl_addTag, Builder.paths_withMetadata] at hitem
    cases hitem
  · exact ((hbuilt.trans hassembled).trans hlast).sound hstart

/-- Every reference of a generated document leads to a component of the document. -/
theorem generate_references_resolve {files : List Source.File} {loader : Loader} {source : MetadataSource}
    {generation : Generation} (h : generate files loader source = .ok generation) {ref : String}
    (href : generation.document.Refers ref) :
    ∃ schemas name schema, generation.document.components = some schemas ∧ (name, schema) ∈ schemas ∧
      ref = "#/components/schemas/" ++ name := by
  unfold generate at h
  dsimp only at h
  split at h
  · cases h
  · split at h
    · cases h
    · cases h
      obtain ⟨builder, registry, hdocument, hcovered, hsound⟩ := Generation.finish_document
        (Extraction.ofFiles files).table _ loader _
      rw [hdocument] at href ⊢
      exact Builder.build_refers hcovered hsound href

/-- A file with an opted-in type that refers to itself and an operation that responds with it. -/
def petFile : Source.File where
  path := "src/lib.rs"
  module := .root
  content.attributes := []
  content.items :=
    [.struct ⟨"Pet", [⟨some "doc", .text "openapi:schema"⟩], []⟩
      (.named [⟨some "parent", .path false [] "Box" [.path false [] "Pet" []], []⟩]),
     .function ⟨"get_pet", [⟨some "doc", .text "openapi:operation GET /pets/{id} getPet"⟩,
      ⟨some "doc", .text "openapi:response 200 Pet"⟩]⟩]

/-- The reference in the response of an operation leads to a component of its document. -/
theorem generate_references_resolve_pet :
    ∃ generation, generate [petFile] {} .crateRoot = .ok generation ∧
      generation.document.Refers "#/components/schemas/Pet" ∧
      ∃ schemas name schema, generation.document.components = some schemas ∧ (name, schema) ∈ schemas ∧
        "#/components/schemas/Pet" = "#/components/schemas/" ++ name := by
  have hpet : (generate [petFile] {} .crateRoot).toOption.bind (fun generation =>
      (Json.lookup "/pets/{id}" generation.document.paths).bind fun item =>
      (item.operation? .get).bind fun operation =>
      (Json.lookup "200" operation.responses).bind fun response =>
      (Json.lookup "application/json" response.content).bind Schema.reference) =
        some "#/components/schemas/Pet" := by
    decide +kernel
  simp only [Option.bind_eq_some_iff] at hpet
  obtain ⟨generation, hgeneration, item, hitem, operation, hoperation, response, hresponse, schema, hschema,
    hreference⟩ := hpet
  have hok : generate [petFile] {} .crateRoot = .ok generation := by
    cases hrun : generate [petFile] {} .crateRoot with
    | error failure => rw [hrun] at hgeneration; cases hgeneration
    | ok result => rw [hrun] at hgeneration; rw [Option.some.inj hgeneration]
  have hshows : operation.Shows schema := .response (Json.mem_of_lookup hresponse) (Json.mem_of_lookup hschema)
  have href : generation.document.Refers "#/components/schemas/Pet" :=
    ⟨schema, .operation (Json.mem_of_lookup hitem) hoperation hshows, .here hreference⟩
  exact ⟨generation, hok, href, generate_references_resolve hok href⟩

end ApiScribe
