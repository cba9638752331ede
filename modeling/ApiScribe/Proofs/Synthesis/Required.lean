import ApiScribe.Proofs.Synthesis.Fields

/-!
# The required keys of a struct

Properties are stored under their keys, so of several fields that are exposed under one name the last is kept.
Required keys are listed one field after another, and nothing is ever taken off the list. The list is right, with
every key once and exactly the keys whose property must be present, if and only if no required field is followed
by one that is exposed under the same name.
-/

namespace ApiScribe

namespace Exposure

/-- What is exposed last under a key. -/
def latest? (key : String) (exposures : List Exposure) : Option Exposure :=
  exposures.reverse.find? fun exposure => exposure.key = key

/-- What is exposed first is the latest only if nothing behind it has the key. -/
theorem latest?_cons (key : String) (exposure : Exposure) (rest : List Exposure) :
    latest? key (exposure :: rest) =
      (latest? key rest).or (if exposure.key = key then some exposure else none) := by
  simp [latest?, List.find?_append, List.find?_singleton]

/-- There is no latest exactly if the key is not exposed. -/
theorem latest?_eq_none_iff {key : String} {exposures : List Exposure} :
    latest? key exposures = none ↔ ∀ exposure ∈ exposures, exposure.key ≠ key := by
  simp [latest?]

/-- The property that is kept under a key is the one that is exposed last. -/
theorem lookup_properties (key : String) (exposures : List Exposure) :
    Json.lookup key (properties exposures) = (latest? key exposures).map schema := by
  rw [properties, Json.lookup_insertAll, ← List.map_reverse, List.find?_map, Option.map_map]
  rfl

/-- A key is listed exactly if something required is exposed under it. -/
theorem mem_requiredKeys {key : String} {exposures : List Exposure} :
    key ∈ requiredKeys exposures ↔ ∃ exposure ∈ exposures, exposure.required = true ∧ exposure.key = key := by
  simp [requiredKeys, and_assoc]

/-- Only keys of properties are listed as required. -/
theorem requiredKeys_subset (exposures : List Exposure) :
    requiredKeys exposures ⊆ (properties exposures).map Prod.fst := by
  intro key hkey
  obtain ⟨exposure, hmem, -, rfl⟩ := mem_requiredKeys.mp hkey
  rw [keys_properties, List.mem_eraseDups]
  exact List.mem_map_of_mem hmem

/-- The list of required keys is right: it has every key once, and a key is on it if what is exposed last under
it is required. -/
def RequiredOnce (exposures : List Exposure) : Prop :=
  (requiredKeys exposures).Nodup ∧
    ∀ key, key ∈ requiredKeys exposures ↔
      ∃ exposure, latest? key exposures = some exposure ∧ exposure.required = true

/-- The latest is exposed under its key. -/
theorem mem_of_latest? {key : String} {exposure : Exposure} {exposures : List Exposure}
    (h : latest? key exposures = some exposure) : exposure ∈ exposures ∧ exposure.key = key := by
  constructor
  · simpa using List.mem_of_find?_eq_some h
  · simpa using List.find?_some h

/-- The key of what is exposed first is listed first if it is required. -/
theorem requiredKeys_cons (exposure : Exposure) (rest : List Exposure) :
    requiredKeys (exposure :: rest) =
      if exposure.required then exposure.key :: requiredKeys rest else requiredKeys rest := by
  cases h : exposure.required <;> simp [requiredKeys, h]

/-- A property that is replaced is the latest under no key. -/
theorem latest?_cons_of_replaced {exposure later : Exposure} {rest : List Exposure} (hlater : later ∈ rest)
    (hreplaced : exposure.key = later.key) (key : String) :
    latest? key (exposure :: rest) = latest? key rest := by
  rw [latest?_cons]
  split
  · next hkey =>
    have hsome : latest? key rest ≠ none := fun hnone =>
      latest?_eq_none_iff.mp hnone later hlater (hreplaced.symm.trans hkey)
    obtain ⟨latest, hlatest⟩ := Option.ne_none_iff_exists'.mp hsome
    rw [hlatest, Option.some_or]
  · rw [Option.or_none]

/-- A property that is replaced leaves the list right if it is not required. -/
theorem requiredOnce_cons_of_replaced {exposure later : Exposure} {rest : List Exposure} (hlater : later ∈ rest)
    (hreplaced : exposure.key = later.key) :
    RequiredOnce (exposure :: rest) ↔ exposure.required = false ∧ RequiredOnce rest := by
  have hlatest := latest?_cons_of_replaced hlater hreplaced
  cases hrequired : exposure.required with
  | false => simp [RequiredOnce, requiredKeys_cons, hrequired, hlatest]
  | true =>
    apply iff_of_false
    · rintro ⟨hnodup, hright⟩
      rw [requiredKeys_cons, if_pos hrequired] at hnodup hright
      -- The key is on the list, so its latest property is required and lists the key once more.
      obtain ⟨latest, hlast, hrequired'⟩ := (hright exposure.key).mp List.mem_cons_self
      rw [hlatest] at hlast
      obtain ⟨hmem, hkey⟩ := mem_of_latest? hlast
      exact (List.nodup_cons.mp hnodup).1 (mem_requiredKeys.mpr ⟨latest, hmem, hrequired', hkey⟩)
    · simp

/-- A property that is not replaced leaves the list right. -/
theorem requiredOnce_cons_of_kept {exposure : Exposure} {rest : List Exposure}
    (hkept : ∀ later ∈ rest, exposure.key ≠ later.key) :
    RequiredOnce (exposure :: rest) ↔ RequiredOnce rest := by
  have hnone : latest? exposure.key rest = none :=
    latest?_eq_none_iff.mpr fun later hlater => (hkept later hlater).symm
  have hunlisted : exposure.key ∉ requiredKeys rest := by
    intro hmem
    obtain ⟨later, hlater, -, hkey⟩ := mem_requiredKeys.mp hmem
    exact hkept later hlater hkey.symm
  apply and_congr
  · rw [requiredKeys_cons]
    split <;> simp [hunlisted]
  · apply forall_congr'
    intro key
    rw [latest?_cons, requiredKeys_cons]
    by_cases hkey : exposure.key = key
    · subst hkey
      cases hrequired : exposure.required <;> simp [hnone, hunlisted, hrequired]
    · cases hrequired : exposure.required <;> simp [hkey, Ne.symm hkey]

/-- The list of required keys is right exactly if no required property is replaced. -/
theorem requiredOnce_iff (exposures : List Exposure) :
    RequiredOnce exposures ↔
      exposures.Pairwise fun earlier later => earlier.required = true → earlier.key ≠ later.key := by
  induction exposures with
  | nil => simp [RequiredOnce, requiredKeys, latest?]
  | cons exposure rest ih =>
    rw [List.pairwise_cons, ← ih]
    by_cases hreplaced : ∃ later ∈ rest, exposure.key = later.key
    · obtain ⟨later, hlater, hkey⟩ := hreplaced
      rw [requiredOnce_cons_of_replaced hlater hkey]
      apply and_congr_left
      intro _
      cases hrequired : exposure.required with
      | false => simp
      | true => exact iff_of_false (by simp) fun h => h later hlater rfl hkey
    · have hkept : ∀ later ∈ rest, exposure.key ≠ later.key := by simpa using hreplaced
      rw [requiredOnce_cons_of_kept hkept]
      exact (and_iff_right fun later hlater _ => hkept later hlater).symm

end Exposure

/-- A field must be present if nothing makes it optional or gives it a default. -/
theorem Synthesis.isRequired_iff (options : ContainerOptions) (field : FieldDeclaration) :
    isRequired options field = true ↔ isOptional field.type = false ∧ field.options.default = false ∧
      field.options.skipIf = false ∧ options.default = false := by
  simp [isRequired, and_assoc]

namespace Registry

variable {name : QualifiedName} {declaration : Declaration} {fields : List FieldDeclaration} {first : Registry}

/-- When a struct is asked for, the property that is exposed last is kept under every key, and the keys of the
fields that must be present are listed as required one field after another. The list has every key once, and
exactly those whose property must be present, if and only if no required field is followed by one that is exposed
under the same name. -/
theorem synthesize_required_iff (h : first.Awaits name declaration fields) :
    ∃ id last node new outcomes, StructRun first name declaration fields id last node outcomes ∧
      last.findings = first.findings ++ new ∧
      (∀ field position, ((field, position), none) ∈ fields.zipIdx.zip outcomes →
        field.options.skip = false → Reported new (declaration.fieldSubject field position)) ∧
      (∀ field position exposure, ((field, position), some exposure) ∈ fields.zipIdx.zip outcomes →
        declaration.exposedName? field = some exposure.key ∧
        (exposure.required = true ↔ Synthesis.isOptional field.type = false ∧ field.options.default = false ∧
          field.options.skipIf = false ∧ declaration.options.default = false)) ∧
      (∀ key, Json.lookup key node.schema.properties =
        (Exposure.latest? key outcomes.reduceOption).map Exposure.schema) ∧
      node.schema.required = Exposure.requiredKeys outcomes.reduceOption ∧
      node.schema.required ⊆ node.schema.properties.map Prod.fst ∧
      ((node.schema.required.Nodup ∧ ∀ key, key ∈ node.schema.required ↔
          ∃ exposure, Exposure.latest? key outcomes.reduceOption = some exposure ∧ exposure.required = true) ↔
        outcomes.reduceOption.Pairwise fun earlier later =>
          earlier.required = true → earlier.key ≠ later.key) := by
  obtain ⟨id, last, node, outcomes, hrun, hproperties, hrequired⟩ := h.outcomes
  obtain ⟨new, hnew⟩ := hrun.findings
  have hsteps := hrun.steps hnew.symm
  refine ⟨id, last, node, new, outcomes, hrun, hnew.symm, ?_, ?_, ?_, hrequired, ?_, ?_⟩
  · intro field position hmem
    exact (List.forall₂_zip hsteps hmem).2 rfl
  · intro field position exposure hmem
    obtain ⟨⟨earlier, before, after, hstep⟩, -⟩ := List.forall₂_zip hsteps hmem
    refine ⟨hstep.exposedName, ?_⟩
    cases hstep with
    | exposed => exact Synthesis.isRequired_iff _ field
  · intro key
    rw [hproperties, Exposure.lookup_properties]
  · rw [hproperties, hrequired]
    exact Exposure.requiredKeys_subset _
  · rw [hrequired]
    exact Exposure.requiredOnce_iff _

/-- The fields `old: String`, exposed as `id`, `id: Option<String>`, `label: String`, exposed as `tag`, and
`tag: String`. -/
def repeatedFields : List FieldDeclaration :=
  [⟨some "old", .path false [] "String" [], [], { rename := some "id" }⟩,
    ⟨some "id", .path false [] "Option" [.path false [] "String" []], [], {}⟩,
    ⟨some "label", .path false [] "String" [], [], { rename := some "tag" }⟩,
    ⟨some "tag", .path false [] "String" [], [], {}⟩]

/-- Fields that are exposed under the same names twice: the list of required keys is not right. -/
theorem synthesize_required_iff_repeated :
    (petRegistry repeatedFields).Awaits ⟨.root, "Pet"⟩ (petOf repeatedFields) repeatedFields ∧
    ∃ id last node outcomes,
      StructRun (petRegistry repeatedFields) ⟨.root, "Pet"⟩ (petOf repeatedFields) repeatedFields id last node
        outcomes ∧
      outcomes = [some ⟨"id", true, Schema.ofKind .string⟩, some ⟨"id", false, Schema.ofKind .string⟩,
        some ⟨"tag", true, Schema.ofKind .string⟩, some ⟨"tag", true, Schema.ofKind .string⟩] ∧
      node.schema.required = ["id", "tag", "tag"] ∧
      ¬ (node.schema.required.Nodup ∧ ∀ key, key ∈ node.schema.required ↔
          ∃ exposure, Exposure.latest? key outcomes.reduceOption = some exposure ∧ exposure.required = true) := by
  have hawaits := awaits_petRegistry repeatedFields
  obtain ⟨id, last, node, new, outcomes, hrun, -, -, -, -, hrequired, -, hright⟩ := synthesize_required_iff hawaits
  have houtcomes := hrun.outcomes_eq (.cons (.exposed rfl rfl rfl rfl rfl) (.cons (.exposed rfl rfl rfl rfl rfl)
    (.cons (.exposed rfl rfl rfl rfl rfl) (.cons (.exposed rfl rfl rfl rfl rfl) .nil))))
  refine ⟨hawaits, id, last, node, outcomes, hrun, houtcomes, ?_, ?_⟩
  · rw [hrequired, houtcomes]
    rfl
  · rw [hright, houtcomes]
    -- The first field is required, and the second is exposed under the same name.
    intro hkept
    exact List.rel_of_pairwise_cons hkept List.mem_cons_self rfl rfl

/-- A key is listed twice, and another one although the property that is kept under it may be left out. -/
theorem required_keeps_replaced_fields :
    ∃ node, ((synthesize ⟨.root, "Pet"⟩).run (petRegistry repeatedFields)).2.nodeFor? ⟨.root, "Pet"⟩ = some node ∧
      node.schema.properties.map Prod.fst = ["id", "tag"] ∧ node.schema.required = ["id", "tag", "tag"] ∧
      (repeatedFields.map fun field =>
        ((petOf repeatedFields).exposedName? field, Synthesis.isRequired (petOf repeatedFields).options field)) =
        [(some "id", true), (some "id", false), (some "tag", true), (some "tag", true)] :=
  ⟨_, rfl, rfl, rfl, rfl⟩

end Registry

end ApiScribe
