import ApiScribe.Proofs.Declaration.FileOrder
import ApiScribe.Proofs.Document.References
import ApiScribe.Proofs.Document.Stages
import ApiScribe.Proofs.Operation.Determinacy

/-!
# Files in any order

A document does not depend on the order of its files as long as no two of them contribute to one module. Its
components are those that the table prescribes, and its operations are assembled independently of each other.
Only where two operations claim one place does the order decide which of them the document shows.
-/

namespace ApiScribe

namespace Json

/-- The first member under a key is found. -/
theorem lookup_eq_find? {α : Type} (key : String) (members : List (String × α)) :
    lookup key members = (members.find? fun member => member.1 = key).map Prod.snd := by
  induction members with
  | nil => rfl
  | cons first rest ih => by_cases h : first.1 = key <;> simp [lookup, h, ih]

/-- What is stored in its place is found. -/
theorem lookup_insertSorted_self {α : Type} (key : String) (value : α) (entries : List (String × α)) :
    lookup key (Text.insertSorted Text.compareText key value entries) = some value := by
  rw [lookup_eq_find?, Text.find?_insertSorted_self Text.compareText_eq_iff]
  rfl

/-- What is inserted under another key makes no difference. -/
theorem lookup_insertSorted_of_ne {α : Type} {key other : String} (h : key ≠ other) (value : α)
    (entries : List (String × α)) :
    lookup other (Text.insertSorted Text.compareText key value entries) = lookup other entries := by
  rw [lookup_eq_find?, lookup_eq_find?,
    Text.find?_insertSorted_of_ne (fun _ _ => (Text.compareText_eq_iff _ _).mp) value h]

end Json

namespace Document.PathItem

/-- A path item is known by its operations. -/
theorem eq_of_operation? {item item' : PathItem} (h : ∀ method, item.operation? method = item'.operation? method) :
    item = item' := by
  have hget := h .get
  have hput := h .put
  have hpost := h .post
  have hdelete := h .delete
  have hoptions := h .options
  have hhead := h .head
  have hpatch := h .patch
  have htrace := h .trace
  cases item
  cases item'
  simp_all [operation?]

/-- Operations under different methods can be stored in either order. -/
theorem set_comm (item : PathItem) {method method' : ApiScribe.Operation.Method} (h : method ≠ method')
    (operation operation' : Operation) :
    (item.set method operation).set method' operation' = (item.set method' operation').set method operation := by
  refine eq_of_operation? fun other => ?_
  simp only [operation?_set]
  by_cases hother : other = method
  · rw [if_neg fun hother' => h (hother.symm.trans hother'), if_pos hother, if_pos hother]
  · rw [if_neg hother, if_neg hother]

end Document.PathItem

namespace Builder

open Operation (Bound)

/-- Paths with an operation in its place. -/
def withOperation (paths : List (String × Document.PathItem)) (bound : Bound) :
    List (String × Document.PathItem) :=
  Text.insertSorted Text.compareText bound.path
    (((Json.lookup bound.path paths).getD {}).set bound.method bound.operation) paths

/-- Operations go to their paths one after another. -/
theorem paths_addOperations (builder : Builder) (bounds : List Bound) :
    (builder.addOperations bounds).1.paths = bounds.foldl withOperation builder.paths := by
  induction bounds generalizing builder with
  | nil => rfl
  | cons bound rest ih => exact ih (builder.addOperation bound).1

/-- Operations in different places can be stored in either order. -/
theorem withOperation_comm {first second : Bound} (h : (first.path, first.method) ≠ (second.path, second.method))
    (paths : List (String × Document.PathItem)) :
    withOperation (withOperation paths first) second = withOperation (withOperation paths second) first := by
  unfold withOperation
  by_cases hpath : first.path = second.path
  · have hmethod : first.method ≠ second.method := fun hmethod => h (Prod.ext hpath hmethod)
    simp only [hpath, Json.lookup_insertSorted_self, Option.getD_some,
      Text.insertSorted_self Text.compareText_eq_iff]
    rw [Document.PathItem.set_comm _ hmethod]
  · rw [Json.lookup_insertSorted_of_ne hpath, Json.lookup_insertSorted_of_ne (Ne.symm hpath)]
    exact Text.insertSorted_comm (fun _ _ => (Text.compareText_eq_iff _ _).mp) (Ne.symm hpath) _ _ paths

/-- Operations in distinct places can be stored in any order. -/
theorem foldl_withOperation_eq_of_perm {bounds bounds' : List Bound} (hperm : bounds.Perm bounds')
    (h : (bounds.map fun bound => (bound.path, bound.method)).Nodup) (paths : List (String × Document.PathItem)) :
    bounds.foldl withOperation paths = bounds'.foldl withOperation paths := by
  refine hperm.foldl_eq' (fun first hfirst second hsecond paths => ?_) paths
  by_cases hsame : first = second
  · rw [hsame]
  · exact withOperation_comm (fun hplace => hsame (List.inj_on_of_nodup_map h hfirst hsecond hplace)) paths

end Builder

namespace Generation

open Operation (Settled Bound)

variable {table other : Table}

/-- The registry when everything is built, up to what was reported. -/
theorem built_eq (table : Table) :
    built table .none = (Registry.synthesizeAll.run (Registry.fresh table)).2.withFindings [] := by
  have hfresh : Registry.ofResolver { table, loader := .none } = Registry.fresh table := rfl
  rw [built, hfresh, Registry.takeFindings, Registry.withFindings]

/-- The components are those of a run over a fresh registry. -/
theorem nodes_built (table : Table) :
    (built table .none).nodes = (Registry.synthesizeAll.run (Registry.fresh table)).2.nodes := by
  rw [built_eq, Registry.withFindings]

/-- Operations are assembled from a registry in which the components of the table are built. -/
theorem settled_built (h : table.Alike other) :
    Settled table (built table .none).nodes { registry := built other .none } := by
  obtain ⟨hsaturated, -⟩ := (Registry.stands_fresh h).synthesizeAll
  have hnodes : (built other .none).nodes = (built table .none).nodes := by
    rw [nodes_built, nodes_built, Registry.nodes_synthesizeAll_fresh h]
  rw [← hnodes, built_eq]
  exact Operation.settled_start (hsaturated.withFindings [])

/-- The last registry has the components of the first. -/
theorem nodes_completed (h : table.Alike other) : (completed other .none).nodes = (built table .none).nodes := by
  obtain ⟨bound?, hbound⟩ := Operation.exists_assembleAll_gives table (built table .none).nodes
  have hassembled := (hbound other.candidates _ (settled_built h)).2
  obtain ⟨hsaturated, hgrown⟩ := hassembled.registry.stands.synthesizeAll
  exact (hassembled.registry.nodes_eq hsaturated.stands hgrown).trans hassembled.nodes

/-- Tables that say the same give the same components. -/
theorem components_completed (h : table.Alike other) :
    (completed other .none).components = (completed table .none).components := by
  rw [Registry.components, nodes_completed h, ← nodes_completed (.refl table), Registry.components]

/-- Tables that say the same of rearranged candidates give rearranged operations. -/
theorem assembled_perm (h : table.Alike other) (hcandidates : table.candidates.Perm other.candidates) :
    (assembled table .none).1.Perm (assembled other .none).1 := by
  obtain ⟨bound?, hbound⟩ := Operation.exists_assembleAll_gives table (built table .none).nodes
  have htable : (assembled table .none).1 = table.candidates.filterMap bound? :=
    (hbound table.candidates _ (settled_built (.refl table))).1
  have hother : (assembled other .none).1 = other.candidates.filterMap bound? :=
    (hbound other.candidates _ (settled_built h)).1
  rw [htable, hother]
  exact hcandidates.filterMap bound?

/-- The paths of a document are those of its operations. -/
theorem paths_finish (table : Table) (metadata : Comment.Document) (loader : Loader) (early : List Finding) :
    (finish table metadata loader early).document.paths =
      (assembled table loader).1.foldl Builder.withOperation [] := by
  rw [finish_document_eq, Builder.build, Builder.paths_addOperations, Builder.paths_foldl_addTag,
    Builder.paths_withMetadata]

end Generation

/-- Without a source of metadata a run succeeds exactly if extraction does. -/
theorem generate_crateRoot_iff (files : List Source.File) (loader : Loader) :
    (∃ generation, generate files loader .crateRoot = .ok generation) ↔
      (Extraction.ofFiles files).failure = none := by
  unfold generate Generation.metadataFiles
  dsimp only
  cases (Extraction.ofFiles files).failure with
  | none => exact iff_of_true ⟨_, rfl⟩ rfl
  | some failure =>
    refine iff_of_false ?_ (Option.some_ne_none failure)
    rintro ⟨generation, h⟩
    cases h

/-- The order of files does not matter where nothing is loaded and no two files contribute to one module: runs
succeed together, with the same components, and with the same paths unless two operations claim one place. -/
theorem generate_perm {files files' : List Source.File} (hperm : files.Perm files')
    (hmodules : files.Pairwise fun a b => (Extraction.modulesOf a).Disjoint (Extraction.modulesOf b)) :
    ((∃ generation, generate files .none .crateRoot = .ok generation) ↔
      ∃ generation, generate files' .none .crateRoot = .ok generation) ∧
    ∀ generation generation', generate files .none .crateRoot = .ok generation →
      generate files' .none .crateRoot = .ok generation' →
      generation.document.components = generation'.document.components ∧
      (((Generation.assembled (Extraction.ofFiles files).table .none).1.map fun bound =>
          (bound.path, bound.method)).Nodup →
        generation.document.paths = generation'.document.paths) := by
  refine ⟨?_, fun generation generation' h h' => ?_⟩
  · rw [generate_crateRoot_iff, generate_crateRoot_iff, Extraction.failure_eq_none_iff_of_perm hperm]
  · have hok := (generate_crateRoot_iff files .none).mp ⟨generation, h⟩
    have halike := Extraction.alike_of_perm hperm hok hmodules
    have hcandidates := Extraction.candidates_perm_of_perm hperm hok
    obtain ⟨metadata, early, rfl⟩ := Generation.exists_finish_of_generate h
    obtain ⟨metadata', early', rfl⟩ := Generation.exists_finish_of_generate h'
    constructor
    · rw [Generation.finish_document_eq, Generation.finish_document_eq, Builder.build, Builder.build,
        Generation.components_completed halike]
    · intro hplaces
      rw [Generation.paths_finish, Generation.paths_finish]
      exact Builder.foldl_withOperation_eq_of_perm (Generation.assembled_perm halike hcandidates) hplaces []

/-- A module with an inline module, in which an operation responds with an imported type of another file. -/
def storeFile : Source.File where
  path := "src/store.rs"
  module := ⟨["store"]⟩
  content.attributes := []
  content.items :=
    [.use (.path "crate" (.name "Pet")),
     .module "stock" [.struct ⟨"Shelf", [⟨some "doc", .text "openapi:schema"⟩], []⟩ .unit],
     .function ⟨"first_pet", [⟨some "doc", .text "openapi:operation GET /pets firstPet"⟩,
      ⟨some "doc", .text "openapi:response 200 Pet"⟩]⟩]

/-- Two files with an operation each, in both orders. -/
theorem generate_perm_store :
    ((Generation.assembled (Extraction.ofFiles [petFile, storeFile]).table .none).1.map fun bound =>
      (bound.path, bound.method)) = [("/pets/{id}", .get), ("/pets", .get)] ∧
    ∃ generation generation', generate [petFile, storeFile] .none .crateRoot = .ok generation ∧
      generate [storeFile, petFile] .none .crateRoot = .ok generation' ∧
      generation.document.components = generation'.document.components ∧
      generation.document.paths = generation'.document.paths := by
  have hperm : [petFile, storeFile].Perm [storeFile, petFile] := .swap _ _ _
  have hmodules : [petFile, storeFile].Pairwise fun a b =>
      (Extraction.modulesOf a).Disjoint (Extraction.modulesOf b) := by
    have hpet : Extraction.modulesOf petFile = [.root] := by decide +kernel
    have hstore : Extraction.modulesOf storeFile = [⟨["store"]⟩, ⟨["store", "stock"]⟩] := by decide +kernel
    simp [hpet, hstore, ModulePath.root]
  have hplaces : ((Generation.assembled (Extraction.ofFiles [petFile, storeFile]).table .none).1.map fun bound =>
      (bound.path, bound.method)) = [("/pets/{id}", .get), ("/pets", .get)] := by
    decide +kernel
  have hextracted : (Extraction.ofFiles [petFile, storeFile]).failure = none := by
    rw [Extraction.ofFiles_failure_eq_none_iff]
    decide +kernel
  obtain ⟨hboth, hsame⟩ := generate_perm hperm hmodules
  obtain ⟨generation, hrun⟩ := (generate_crateRoot_iff [petFile, storeFile] .none).mpr hextracted
  obtain ⟨generation', hrun'⟩ := hboth.mp ⟨generation, hrun⟩
  obtain ⟨hcomponents, hpaths⟩ := hsame generation generation' hrun hrun'
  refine ⟨hplaces, generation, generation', hrun, hrun', hcomponents, hpaths ?_⟩
  rw [hplaces]
  decide

end ApiScribe
