import ApiScribe.Proofs.Operation.Journal
import Mathlib.Data.List.Induction
import Mathlib.Data.List.Nodup

/-!
# The parameters of an operation

A parameter is known by its name and its location. What a comment declares is kept one by one where location and
type make sense; names of the path template that are not declared are added behind. The added ones differ from each
other and from all others, so the list repeats a parameter exactly if the comment declares it repeatedly.
-/

namespace ApiScribe

/-- What tells parameters apart. -/
def Document.Parameter.identity (parameter : Document.Parameter) : String × Operation.Location :=
  (parameter.name, parameter.location)

/-- The parameter that an annotation declares, if its location and its type make sense. -/
def Comment.Param.parameter? (param : Comment.Param) : Option Document.Parameter :=
  (Operation.Location.ofWritten? param.location).bind fun location =>
    (Primitive.ofParameterType? param.typeName).map fun primitive =>
      { name := param.name
        location
        description := param.description
        required := param.required || location = .path
        schema := Schema.ofPrimitive primitive }

/-- What tells the declared parameter apart from others; nothing if the annotation makes no sense. -/
def Comment.Param.identity? (param : Comment.Param) : Option (String × Operation.Location) :=
  if (Primitive.ofParameterType? param.typeName).isSome then
    (Operation.Location.ofWritten? param.location).map fun location => (param.name, location)
  else none

/-- A written parameter has the identity of the parameter that it stands for. -/
theorem Comment.Param.identity?_eq (param : Comment.Param) :
    param.identity? = param.parameter?.map Document.Parameter.identity := by
  rw [identity?, parameter?]
  cases Operation.Location.ofWritten? param.location <;>
    cases Primitive.ofParameterType? param.typeName <;> rfl

namespace Operation

/-- First occurrences are distinct. -/
theorem nodup_firstOccurrences {α : Type} [DecidableEq α] (items : List α) : (firstOccurrences items).Nodup := by
  have hkept : ∀ kept : List α, kept.Nodup →
      (items.foldl (fun kept item => if item ∈ kept then kept else kept ++ [item]) kept).Nodup := by
    induction items with
    | nil => exact fun kept h => h
    | cons item rest ih =>
      intro kept h
      refine ih _ ?_
      dsimp only
      split
      · exact h
      · next hitem => exact List.nodup_append.mpr ⟨h, List.nodup_singleton item, by grind⟩
  exact hkept [] List.nodup_nil

/-- Of each item the first occurrence is kept, in order. -/
theorem map_firstOccurrences {α β : Type} [DecidableEq α] [DecidableEq β] {f : α → β} (hf : Function.Injective f)
    (items : List α) : (firstOccurrences items).map f = (items.map f).eraseDups := by
  induction items using List.reverseRecOn with
  | nil => rfl
  | append_singleton items item ih =>
    have hmem : item ∈ firstOccurrences items ↔ f item ∈ items.map f := by
      rw [← List.mem_map_of_injective hf, ih, List.mem_eraseDups]
    have hstep : firstOccurrences (items ++ [item]) =
        if item ∈ firstOccurrences items then firstOccurrences items else firstOccurrences items ++ [item] := by
      rw [firstOccurrences, List.foldl_append]
      rfl
    have hnew : [f item].removeAll (items.map f) = if f item ∈ items.map f then [] else [f item] := by
      rw [List.removeAll, List.filter_singleton]
      split <;> simp_all
    rw [hstep, List.map_append, List.map_singleton, List.eraseDups_append, ← ih, hnew]
    by_cases hitem : item ∈ firstOccurrences items
    · rw [if_pos hitem, if_pos (hmem.mp hitem), List.eraseDups_nil, List.append_nil]
    · rw [if_neg hitem, if_neg (mt hmem.mpr hitem), List.map_append]
      rfl

/-- Every item occurs for the first time. -/
theorem mem_firstOccurrences {α : Type} [DecidableEq α] {item : α} {items : List α} :
    item ∈ firstOccurrences items ↔ item ∈ items := by
  rw [← List.map_id (firstOccurrences items), map_firstOccurrences Function.injective_id, List.map_id,
    List.mem_eraseDups]

/-- No name of a path template is listed twice. -/
theorem nodup_templateParameters (path : String) : (templateParameters path).Nodup :=
  (nodup_firstOccurrences _).map fun _ _ h => String.ofList_injective h

/-- The parameters that the template of a path names. -/
def templateIdentities (path : String) : List (String × Location) :=
  (templateParameters path).map fun name => (name, .path)

/-- A path names each parameter once. -/
theorem nodup_templateIdentities (path : String) : (templateIdentities path).Nodup :=
  (nodup_templateParameters path).map fun _ _ h => (Prod.mk.inj h).1

section Work

variable {along : Assembler → Assembler → Prop} [FollowsParts along]

/-- The declared parameters are those that stand for one, and no operation is dropped. -/
theorem declaredParameters_proceeds (subject : String) (params : List Comment.Param) :
    Proceeds along (declaredParameters subject params) fun found =>
      found = params.filterMap Comment.Param.parameter? := by
  induction params with
  | nil => exact .pure rfl
  | cons param rest ih =>
    unfold declaredParameters
    rw [List.filterMap_cons, Comment.Param.parameter?]
    split
    · next hlocation =>
      rw [hlocation]
      exact (complain_proceeds rfl).bind fun _ _ => ih
    · next hlocation hprimitive =>
      rw [hlocation, hprimitive]
      exact (complain_proceeds rfl).bind fun _ _ => ih
    · next location primitive hlocation hprimitive =>
      rw [hlocation, hprimitive]
      have hnext (parameter : Document.Parameter) :
          Proceeds along (do return parameter :: (← declaredParameters subject rest)) fun found =>
            found = parameter :: rest.filterMap Comment.Param.parameter? :=
        ih.bind fun others hothers => .pure (by rw [hothers])
      dsimp only
      split
      · exact (complain_proceeds rfl).bind fun _ _ => hnext _
      · exact hnext _

/-- The parameters of an operation are the declared ones, then those of the template that are missing. -/
theorem parameters_proceeds (params : List Comment.Param) (path subject : String) :
    Proceeds along (parameters params path subject) fun found =>
      found = params.filterMap Comment.Param.parameter? ++
        undeclaredParameters (params.filterMap Comment.Param.parameter?) path :=
  (declaredParameters_proceeds subject params).bind fun _ hdeclared => .pure (by rw [hdeclared])

end Work

/-- What is added for a template is a path parameter whose name is not declared. -/
theorem identity_undeclaredParameters (declared : List Document.Parameter) (path : String) :
    (undeclaredParameters declared path).map Document.Parameter.identity =
      (templateIdentities path).filter fun identity => identity ∉ declared.map Document.Parameter.identity := by
  rw [undeclaredParameters, templateIdentities, List.map_map, List.filter_map]
  congr 1
  refine List.filter_congr fun name _ => ?_
  rw [Bool.eq_iff_iff]
  simp [Document.Parameter.identity, not_and, imp_not_comm]

/-- A parameter occurs as often as it is declared, or once if only the template names it. -/
theorem count_identity_parameters (params : List Comment.Param) (path subject : String) (assembler : Assembler)
    (identity : String × Location) :
    (((parameters params path subject).run assembler).1.map Document.Parameter.identity).count identity =
      max ((params.filterMap Comment.Param.identity?).count identity)
        ((templateIdentities path).count identity) := by
  have hdeclared : (params.filterMap Comment.Param.parameter?).map Document.Parameter.identity =
      params.filterMap Comment.Param.identity? := by
    rw [List.map_filterMap]
    exact List.filterMap_congr fun param _ => param.identity?_eq.symm
  have honce := List.nodup_iff_count_le_one.mp (nodup_templateIdentities path) identity
  have hfound : Proceeds Proceeded (parameters params path subject) _ := parameters_proceeds params path subject
  rw [(hfound assembler).2, List.map_append, identity_undeclaredParameters,
    hdeclared, List.count_append]
  generalize params.filterMap Comment.Param.identity? = declared
  by_cases hmem : identity ∈ declared
  · -- A declared parameter is not added again.
    have hadded : ((templateIdentities path).filter fun other => other ∉ declared).count identity = 0 :=
      List.count_eq_zero_of_not_mem (by simp [hmem])
    have hpos := List.count_pos_iff.mpr hmem
    omega
  · rw [List.count_eq_zero_of_not_mem hmem, List.count_filter (by simpa using hmem), Nat.zero_add, Nat.zero_max]

/-- A list of parameters repeats none exactly if the annotations that make sense declare none repeatedly; each
stands in it as often as it is declared, or once if only the template of the path names it. -/
theorem parameters_unique_iff (params : List Comment.Param) (path subject : String) (assembler : Assembler) :
    let identities := ((parameters params path subject).run assembler).1.map Document.Parameter.identity
    let declared := params.filterMap Comment.Param.identity?
    (identities.Nodup ↔ declared.Nodup) ∧
      ∀ identity, identities.count identity =
        max (declared.count identity) ((templateIdentities path).count identity) := by
  intro identities declared
  have hcount := count_identity_parameters params path subject assembler
  refine ⟨?_, hcount⟩
  rw [List.nodup_iff_count_le_one, List.nodup_iff_count_le_one]
  refine forall_congr' fun identity => ?_
  have honce := List.nodup_iff_count_le_one.mp (nodup_templateIdentities path) identity
  rw [hcount identity, Nat.max_le, and_iff_left honce]

/-- `list_pets`, whose comment declares the query parameter `limit` twice. -/
def listPets : Candidate where
  subject := "list_pets"
  module := .root
  docs := ["openapi:operation GET /pets listPets", "openapi:param limit query integer false",
    "openapi:param limit query integer false"]
  owner := none
  source := "src/lib.rs"

/-- A parameter that is declared twice stands in the operation twice. -/
theorem repeated_parameter_kept :
    ∃ identities, ((assemble listPets).run { registry := { resolver := { table := {} } } }).1.map
        (fun bound => bound.operation.parameters.map Document.Parameter.identity) = some identities ∧
      identities = [("limit", .query), ("limit", .query)] ∧ ¬ identities.Nodup :=
  ⟨_, by decide +kernel, rfl, by decide⟩

end Operation

end ApiScribe
