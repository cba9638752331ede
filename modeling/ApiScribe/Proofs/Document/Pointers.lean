import ApiScribe.Document.Encode
import ApiScribe.Proofs.Document.OptIn
import ApiScribe.Proofs.Json.Paths
import ApiScribe.Proofs.Json.Pointers
import ApiScribe.Proofs.Registry.Calls
import ApiScribe.Proofs.Schema.Decoding
import ApiScribe.Proofs.Text.Cutting

/-!
# Where references lead

A component stands in the document under `components`, `schemas` and its name. A reference to it has these three as
its tokens exactly if nothing in the name would have to be escaped; read as a fragment of a URI, exactly if moreover
every character of the name may stand in a fragment.
-/

namespace ApiScribe

namespace Document

/-- What a document holds at the path of a component. -/
theorem at?_components {document : Document} {schemas : List (String × Schema)}
    (h : document.components = some schemas) (name : String) :
    document.toJson.at? ["components", "schemas", name] = (Json.lookup name schemas).map Schema.toJson := by
  have hmembers : Json.lookup "components" document.toJson.members =
      some (.obj [("schemas", schemasToJson schemas)]) := by
    have hlist (key : String) (values : List Json.Value) (hkey : key ≠ "components") :
        Json.lookup "components" (Json.unlessEmpty key values) = none := by
      unfold Json.unlessEmpty
      split <;> simp [Json.lookup, hkey]
    simp [toJson, Json.Value.members, Json.lookup_append, Json.member, Json.lookup, hlist, Json.optional, h]
  rw [Json.Value.at?, hmembers, Option.bind_some, Json.Value.at?, Json.Value.members, Json.lookup, if_pos rfl,
    Option.bind_some, Json.Value.at?, schemasToJson, Json.Value.members, Schema.toJsonMembers_eq, Json.lookup_map]
  cases Json.lookup name schemas <;> rfl

end Document

namespace Generation

/-- No component name is there twice. -/
theorem nodup_components (table : Table) (loader : Loader) :
    ((completed table loader).components.map Prod.fst).Nodup := by
  have hsound := sound_completed table loader
  rw [(hsound.components_perm.map Prod.fst).nodup_iff, List.map_map]
  exact hsound.componentNames_nodup

/-- A component stands at its path in the document. -/
theorem at?_component {files : List Source.File} {loader : Loader} {source : MetadataSource}
    {generation : Generation} (h : generate files loader source = .ok generation) {name : String} {schema : Schema}
    (hcomponent : (name, schema) ∈ generation.document.components.getD []) :
    generation.document.toJson.at? ["components", "schemas", name] = some schema.toJson := by
  obtain ⟨metadata, early, rfl⟩ := exists_finish_of_generate h
  have hcomponents := components_finish (Extraction.ofFiles files).table metadata loader early
  cases hsome : (finish (Extraction.ofFiles files).table metadata loader early).document.components with
  | none =>
    rw [hsome] at hcomponent
    cases hcomponent
  | some schemas =>
    rw [hsome, Option.getD_some] at hcomponent hcomponents
    rw [Document.at?_components hsome, Json.lookup_of_mem (hcomponents ▸ nodup_components _ loader) hcomponent]
    rfl

end Generation

/-- A reference is a pointer into the components. -/
theorem reference_referenceTo (name : String) :
    (Schema.referenceTo name).reference = some ("#" ++ (Pointer.lead ["components", "schemas"] ++ name)) := by
  rw [Schema.referenceTo, ← String.append_assoc]
  rfl

/-- The tokens of a reference to a component are `components`, `schemas` and the name exactly if there is neither a
slash nor a tilde in the name. Read as a fragment of a URI, they are exactly if moreover every character of the name
may stand in a fragment. At these three keys the document holds the component. -/
theorem reference_tokens_iff (name : String) :
    let reference := (Schema.referenceTo name).reference
    let path := ["components", "schemas", name]
    (reference.bind Pointer.localTokens? = some path ↔ ∀ c ∈ name.toList, c ≠ '/' ∧ c ≠ '~') ∧
    (reference.bind Pointer.fragmentTokens? = some path ↔
      ∀ c ∈ name.toList, Pointer.isFragmentChar c = true ∧ c ≠ '/' ∧ c ≠ '~') ∧
    ∀ files loader source generation, generate files loader source = .ok generation →
      ∀ schema, (name, schema) ∈ generation.document.components.getD [] →
        generation.document.toJson.at? path = some schema.toJson := by
  intro reference path
  have hreference : reference = _ := reference_referenceTo name
  have hpointer : Text.dropLead "#" ("#" ++ (Pointer.lead ["components", "schemas"] ++ name)) =
      some (Pointer.lead ["components", "schemas"] ++ name) := Text.dropLead_eq_some_iff.mpr rfl
  have hlead : (Pointer.lead ["components", "schemas"]).toList.all Pointer.isFragmentChar = true := by decide
  refine ⟨?_, ?_, fun files loader source generation h schema hcomponent => Generation.at?_component h hcomponent⟩
  · rw [hreference, Option.bind_some, Pointer.localTokens?, hpointer, Option.bind_some]
    exact Pointer.tokens?_lead_append_iff ["components", "schemas"] name
  · rw [hreference, Option.bind_some, Pointer.fragmentTokens?, hpointer, Option.bind_some]
    exact Pointer.fragment_lead_append_iff (List.all_eq_true.mp hlead) name

/-- Two components, one under its own name and one under a name with a slash. -/
def kennelFile : Source.File where
  path := "src/lib.rs"
  module := .root
  content.attributes := []
  content.items :=
    [.struct ⟨"Pet", [⟨some "doc", .text "openapi:schema"⟩], []⟩ .unit,
      .struct ⟨"Pair", [⟨some "doc", .text "openapi:schema cat/dog"⟩], []⟩ .unit]

/-- What a run over the two components gives. -/
theorem exists_generation_kennelFile :
    ∃ generation, generate [kennelFile] .none .crateRoot = .ok generation ∧
      (generation.document.components.getD []).map Prod.fst = ["Pet", "cat/dog"] ∧
      generation.document.toJson.at? ["components", "schemas", "cat", "dog"] = none := by
  have hrun : (generate [kennelFile] .none .crateRoot).toOption.any (fun generation =>
      (generation.document.components.getD []).map Prod.fst = ["Pet", "cat/dog"] &&
        (generation.document.toJson.at? ["components", "schemas", "cat", "dog"]).isNone) = true := by
    decide +kernel
  cases hgenerate : generate [kennelFile] .none .crateRoot with
  | error failure =>
    rw [hgenerate] at hrun
    cases hrun
  | ok generation =>
    rw [hgenerate, Except.toOption, Option.any_some, Bool.and_eq_true, decide_eq_true_iff,
      Option.isNone_iff_eq_none] at hrun
    exact ⟨generation, rfl, hrun⟩

/-- The reference to `Pet` leads to the component. -/
theorem reference_tokens_iff_pet :
    ∃ generation schema, generate [kennelFile] .none .crateRoot = .ok generation ∧
      ("Pet", schema) ∈ generation.document.components.getD [] ∧
      (Schema.referenceTo "Pet").reference.bind Pointer.localTokens? = some ["components", "schemas", "Pet"] ∧
      (Schema.referenceTo "Pet").reference.bind Pointer.fragmentTokens? = some ["components", "schemas", "Pet"] ∧
      generation.document.toJson.at? ["components", "schemas", "Pet"] = some schema.toJson := by
  obtain ⟨generation, hgenerate, hnames, -⟩ := exists_generation_kennelFile
  have hname : "Pet" ∈ (generation.document.components.getD []).map Prod.fst := by
    rw [hnames]
    exact List.mem_cons_self
  obtain ⟨⟨_, schema⟩, hcomponent, rfl⟩ := List.mem_map.mp hname
  have hchars : "Pet".toList.all (fun c => Pointer.isFragmentChar c = true ∧ c ≠ '/' ∧ c ≠ '~') = true := by decide
  have hplain := fun c hc => of_decide_eq_true (List.all_eq_true.mp hchars c hc)
  obtain ⟨hlocal, hfragment, hdocument⟩ := reference_tokens_iff "Pet"
  exact ⟨generation, schema, hgenerate, hcomponent, hlocal.mpr fun c hc => (hplain c hc).2, hfragment.mpr hplain,
    hdocument _ _ _ _ hgenerate _ hcomponent⟩

/-- The reference to `cat/dog` has one token too many and leads nowhere. -/
theorem slash_divides_reference :
    ∃ generation, generate [kennelFile] .none .crateRoot = .ok generation ∧
      "cat/dog" ∈ (generation.document.components.getD []).map Prod.fst ∧
      (Schema.referenceTo "cat/dog").reference.bind Pointer.localTokens? =
        some ["components", "schemas", "cat", "dog"] ∧
      generation.document.toJson.at? ["components", "schemas", "cat", "dog"] = none := by
  obtain ⟨generation, hgenerate, hnames, hnothing⟩ := exists_generation_kennelFile
  refine ⟨generation, hgenerate, ?_, by decide +kernel, hnothing⟩
  rw [hnames]
  exact List.mem_cons_of_mem _ List.mem_cons_self

end ApiScribe
