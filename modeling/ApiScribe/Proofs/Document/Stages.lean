import ApiScribe.Generate
import ApiScribe.Proofs.Operation.Assembly

/-!
# The stages of a run

Between extraction and the document a run goes through three registries: one in which everything is built
that is declared at the start, one in which all operations are assembled, and one in which everything is built
that was loaded on the way.
-/

namespace ApiScribe.Generation

/-- The registry of a run when everything is built that is declared at its start. -/
def built (table : Table) (loader : Loader) : Registry :=
  (Registry.synthesizeAll.run (Registry.ofResolver { table, loader })).2.takeFindings.2

/-- The operations of a run, with what is kept when they are assembled. -/
def assembled (table : Table) (loader : Loader) : List Operation.Bound × Operation.Assembler :=
  (Operation.assembleAll table.candidates).run { registry := built table loader }

/-- The registry of a run when its document is put together. -/
def completed (table : Table) (loader : Loader) : Registry :=
  (Registry.synthesizeAll.run (assembled table loader).2.registry).2.takeFindings.2

/-- The document shows the assembled operations and the components of the last registry. -/
theorem finish_document_eq (table : Table) (metadata : Comment.Document) (loader : Loader)
    (early : List Finding) :
    (finish table metadata loader early).document =
      Builder.build (Builder.addOperations
        ((assembled table loader).2.tags.foldl Builder.addTag (Builder.withMetadata {} metadata))
        (assembled table loader).1).1 (completed table loader).components := by
  unfold finish completed assembled built
  dsimp only
  rcases Registry.synthesizeAll.run (Registry.ofResolver { table, loader }) with ⟨_, first⟩
  dsimp only
  rcases (Operation.assembleAll table.candidates).run { registry := first.takeFindings.2 } with
    ⟨operations, assembler⟩
  dsimp only
  rcases Registry.synthesizeAll.run assembler.registry with ⟨_, last⟩
  rfl

/-- The components of a document are those of the last registry. -/
theorem components_finish (table : Table) (metadata : Comment.Document) (loader : Loader)
    (early : List Finding) :
    (finish table metadata loader early).document.components.getD [] = (completed table loader).components := by
  rw [finish_document_eq, Builder.build]
  cases (completed table loader).components <;> rfl

/-- A run that succeeds goes through these stages with the table of its files, and with the metadata that is read
from the sources of metadata. -/
theorem exists_sources_of_generate {files : List Source.File} {loader : Loader} {source : MetadataSource}
    {generation : Generation} (h : generate files loader source = .ok generation) :
    ∃ sources early, metadataFiles files source = .ok sources ∧
      generation = finish (Extraction.ofFiles files).table (readMetadata sources).1 loader early := by
  unfold generate at h
  dsimp only at h
  split at h
  · cases h
  · split at h
    · cases h
    · next sources hsources =>
      cases h
      exact ⟨sources, _, hsources, rfl⟩

/-- What is generated is finished from some metadata and findings. -/
theorem exists_finish_of_generate {files : List Source.File} {loader : Loader} {source : MetadataSource}
    {generation : Generation} (h : generate files loader source = .ok generation) :
    ∃ metadata early, generation = finish (Extraction.ofFiles files).table metadata loader early := by
  obtain ⟨sources, early, -, hfinish⟩ := exists_sources_of_generate h
  exact ⟨_, early, hfinish⟩

variable (table : Table) (loader : Loader)

/-- Building advances the registry. -/
theorem built_advances : Registry.Advances (Registry.ofResolver { table, loader }) (built table loader) :=
  (Registry.synthesizeAll_advances _).trans (Registry.takeFindings_advances _)

/-- Assembling advances the registry. -/
theorem assembled_advances : Registry.Advances (built table loader) (assembled table loader).2.registry := by
  have hall : Operation.Assembles (fun _ => True) (Operation.assembleAll table.candidates) _ :=
    Operation.assembleAll_assembles table.candidates
  exact (hall { registry := built table loader } trivial).1

/-- A run advances its registry from the first to the last. -/
theorem completed_advances :
    Registry.Advances (Registry.ofResolver { table, loader }) (completed table loader) := by
  refine ((built_advances table loader).trans (assembled_advances table loader)).trans ?_
  exact (Registry.synthesizeAll_advances _).trans (Registry.takeFindings_advances _)

end ApiScribe.Generation
