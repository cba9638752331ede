import ApiScribe.Proofs.Comment.Records
import ApiScribe.Proofs.Document.Stages
import ApiScribe.Proofs.Registry.Informed

/-!
# Components are what is opted in

The components of a generated document are exactly the declarations that opt in by a directive in their
comment, among all declarations of the run: those of the given files and those of every module that was
loaded on the way. Traits cannot be components.
-/

namespace ApiScribe

namespace Comment.Container

/-- A comment opts in exactly if one of its directives does. -/
theorem schema_read_iff (docs : List String) (subject : String) :
    (read docs subject).1.schema = true ↔
      ∃ directive ∈ (lex docs subject).1.directives, directive.key = "schema" := by
  change (ofBlock (lex docs subject).1).schema = true ↔ _
  rw [ofBlock_eq_gathered]
  simp [gathered]

end Comment.Container

namespace Generation

/-- Nothing is pending when the document is put together. -/
theorem isPending_completed (table : Table) (loader : Loader) :
    ∀ name ∈ (completed table loader).table.names, (completed table loader).isPending name = false := by
  have hnone := Registry.pending_synthesizeAll (assembled table loader).2.registry
  rw [(Registry.pending_run _).1, List.filter_eq_nil_iff] at hnone
  exact fun name hname => Bool.eq_false_iff.mpr (hnone name hname)

/-- The completed registry is informed. -/
theorem informed_completed (table : Table) (loader : Loader) : (completed table loader).Informed :=
  (completed_advances table loader).informed
    ((Registry.ofResolver_prepares _).informed (Registry.informed_ofEmpty _))

/-- The completed registry is sound. -/
theorem sound_completed (table : Table) (loader : Loader) : (completed table loader).Sound :=
  (completed_advances table loader).sound ((Registry.ofResolver_prepares _).sound (Registry.sound_ofEmpty _))

end Generation

/-- The components of a generated document are exactly the opted-in declarations of the final table: its nodes
stand for the declarations that are not traits and whose comment has a directive `schema`, each once. -/
theorem generate_components_opted_in {files : List Source.File} {loader : Loader} {source : MetadataSource}
    {generation : Generation} (h : generate files loader source = .ok generation) :
    let registry := Generation.completed (Extraction.ofFiles files).table loader
    (generation.document.components.getD []).Perm
      (registry.nodes.map fun node => (node.name, node.schema)) ∧
    ∀ name, name ∈ registry.nodes.map Node.canonical ↔
      ∃ declaration, registry.table.get? name = some declaration ∧ declaration.shape.isInterface = false ∧
        ∃ directive ∈ (Comment.lex declaration.docs name.display).1.directives, directive.key = "schema" := by
  intro registry
  have hsound : registry.Sound := Generation.sound_completed _ loader
  have hinformed : registry.Informed := Generation.informed_completed _ loader
  constructor
  · obtain ⟨metadata, early, rfl⟩ := Generation.exists_finish_of_generate h
    rw [Generation.components_finish]
    exact hsound.components_perm
  · intro name
    rw [hinformed.mem_canonical_iff hsound.index (Generation.isPending_completed _ loader)]
    simp only [Declaration.IsComponent, Comment.Container.schema_read_iff]

/-- A file with an opted-in type that refers to a module which is not among the files. -/
def ownerFile : Source.File where
  path := "src/lib.rs"
  module := .root
  content.attributes := []
  content.items :=
    [.struct ⟨"Owner", [⟨some "doc", .text "openapi:schema"⟩], []⟩
      (.named [⟨some "pet", .path false ["crate", "pets"] "Pet" [], []⟩])]

/-- A module with an opted-in type and one that is not opted in. -/
def petsFile : Source.File where
  path := "src/pets.rs"
  module := ⟨["pets"]⟩
  content.attributes := []
  content.items :=
    [.struct ⟨"Pet", [⟨some "doc", .text "openapi:schema"⟩], []⟩ .unit, .struct ⟨"Cage", [], []⟩ .unit]

/-- Of a module that is loaded on demand, the opted-in type is a component and the other is not. -/
theorem generate_components_opted_in_loaded :
    let loader : Loader := ⟨[(⟨["pets"]⟩, .ok petsFile)]⟩
    let registry := Generation.completed (Extraction.ofFiles [ownerFile]).table loader
    let pet : QualifiedName := ⟨⟨["pets"]⟩, "Pet"⟩
    let cage : QualifiedName := ⟨⟨["pets"]⟩, "Cage"⟩
    ∃ generation, generate [ownerFile] loader .crateRoot = .ok generation ∧
      pet ∈ registry.nodes.map Node.canonical ∧
      registry.table.contains cage = true ∧ cage ∉ registry.nodes.map Node.canonical := by
  intro loader registry pet cage
  have hok : ∃ generation, generate [ownerFile] loader .crateRoot = .ok generation := by
    have hsucceeds : (generate [ownerFile] loader .crateRoot).isOk = true := by decide +kernel
    cases hrun : generate [ownerFile] loader .crateRoot with
    | ok generation => exact ⟨generation, rfl⟩
    | error failure => rw [hrun] at hsucceeds; cases hsucceeds
  have hpet : (registry.table.get? pet).any (fun declaration => !declaration.shape.isInterface &&
      (Comment.lex declaration.docs pet.display).1.directives.any fun directive => directive.key = "schema") =
        true := by
    decide +kernel
  have hcage : (registry.table.get? cage).any (fun declaration =>
      (Comment.lex declaration.docs cage.display).1.directives.isEmpty) = true := by
    decide +kernel
  obtain ⟨generation, hgeneration⟩ := hok
  have hexact := (generate_components_opted_in hgeneration).2
  refine ⟨generation, hgeneration, (hexact pet).mpr ?_, ?_, fun hmem => ?_⟩
  · cases hget : registry.table.get? pet with
    | none => rw [hget] at hpet; cases hpet
    | some declaration =>
      rw [hget, Option.any_some, Bool.and_eq_true, Bool.not_eq_true', List.any_eq_true] at hpet
      obtain ⟨hshape, directive, hdirective, hkey⟩ := hpet
      exact ⟨declaration, rfl, hshape, directive, hdirective, of_decide_eq_true hkey⟩
  · cases hget : registry.table.get? cage with
    | none => rw [hget] at hcage; cases hcage
    | some declaration => rw [Table.contains, hget, Option.isSome_some]
  · obtain ⟨declaration, hget, -, directive, hdirective, -⟩ := (hexact cage).mp hmem
    rw [hget, Option.any_some, List.isEmpty_iff] at hcage
    rw [hcage] at hdirective
    cases hdirective

end ApiScribe
