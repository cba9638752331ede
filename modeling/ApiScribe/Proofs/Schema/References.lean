import ApiScribe.Schema.Details
import Mathlib.Data.List.Basic

/-!
# References in schemas

A schema refers to what it references itself and to what any schema inside it refers to. Remarks of
comments leave references alone, and the constructions of a schema add only those of their parts.
-/

namespace ApiScribe

/-- Storing a member adds no pair but its own. -/
theorem Json.mem_insert {α : Type} {key : String} {value : α} {members : List (String × α)}
    {member : String × α} (h : member ∈ Json.insert key value members) :
    member = (key, value) ∨ member ∈ members := by
  induction members with
  | nil => exact .inl (List.mem_singleton.mp h)
  | cons first rest ih =>
    unfold Json.insert at h
    split at h
    · next hkey =>
      rcases List.mem_cons.mp h with rfl | h
      · exact .inl (by rw [hkey])
      · exact .inr (List.mem_cons_of_mem _ h)
    · rcases List.mem_cons.mp h with rfl | h
      · exact .inr List.mem_cons_self
      · exact (ih h).imp id (List.mem_cons_of_mem _)

/-- Storing members in turn adds no pair but theirs. -/
theorem Json.mem_of_mem_insertAll {α : Type} {members : List (String × α)} {member : String × α}
    (h : member ∈ Json.insertAll members) : member ∈ members := by
  have hstored (stored rest : List (String × α))
      (h : member ∈ rest.foldl (fun stored member => Json.insert member.1 member.2 stored) stored) :
      member ∈ stored ∨ member ∈ rest := by
    induction rest generalizing stored with
    | nil => exact .inl h
    | cons first rest ih =>
      rcases ih _ h with h | h
      · rcases Json.mem_insert h with rfl | h
        · exact .inr List.mem_cons_self
        · exact .inl h
      · exact .inr (List.mem_cons_of_mem _ h)
  exact (hstored [] members h).resolve_left List.not_mem_nil

/-- What is found under a key is stored under it. -/
theorem Json.mem_of_lookup {α : Type} {key : String} {value : α} {members : List (String × α)}
    (h : Json.lookup key members = some value) : (key, value) ∈ members := by
  induction members with
  | nil => cases h
  | cons member rest ih =>
    unfold Json.lookup at h
    split at h
    · next hkey =>
      rw [← hkey, ← Option.some.inj h]
      exact List.mem_cons_self
    · exact List.mem_cons_of_mem _ (ih h)

namespace Schema

/-- A reference occurs in a schema, at any depth. -/
inductive Refers : Schema → String → Prop where
  | here {schema : Schema} {ref : String} (h : schema.reference = some ref) : Refers schema ref
  | items {schema inner : Schema} {ref : String} (h : schema.items = some inner)
      (hinner : Refers inner ref) : Refers schema ref
  | property {schema inner : Schema} {key ref : String} (h : (key, inner) ∈ schema.properties)
      (hinner : Refers inner ref) : Refers schema ref
  | additional {schema inner : Schema} {ref : String} (h : schema.additional = some inner)
      (hinner : Refers inner ref) : Refers schema ref
  | member {schema inner : Schema} {ref : String} (h : inner ∈ schema.oneOf)
      (hinner : Refers inner ref) : Refers schema ref

/-- Schemas with the same parts refer to the same components. -/
theorem Refers.congr {a b : Schema} {ref : String} (h : a.Refers ref) (hreference : a.reference = b.reference)
    (hitems : a.items = b.items) (hproperties : a.properties = b.properties)
    (hadditional : a.additional = b.additional) (honeOf : a.oneOf = b.oneOf) : b.Refers ref := by
  cases h with
  | here h => exact .here (hreference ▸ h)
  | items h hinner => exact .items (hitems ▸ h) hinner
  | property h hinner => exact .property (hproperties ▸ h) hinner
  | additional h hinner => exact .additional (hadditional ▸ h) hinner
  | member h hinner => exact .member (honeOf ▸ h) hinner

/-- The free-form schema refers to nothing. -/
@[simp] theorem not_refers_empty (ref : String) : ¬ Refers {} ref := by
  intro h
  cases h <;> simp_all

/-- The schema of a kind refers to nothing. -/
@[simp] theorem not_refers_ofKind (kind : SchemaKind) (ref : String) : ¬ (ofKind kind).Refers ref :=
  fun h => not_refers_empty ref (h.congr rfl rfl rfl rfl rfl)

/-- The schema of a primitive refers to nothing. -/
@[simp] theorem not_refers_ofPrimitive (primitive : Primitive) (ref : String) :
    ¬ (ofPrimitive primitive).Refers ref := by
  intro h
  refine not_refers_empty ref (h.congr ?_ ?_ ?_ ?_ ?_) <;> cases primitive <;> rfl

/-- A reference refers to its component only. -/
@[simp] theorem refers_referenceTo (component ref : String) :
    (referenceTo component).Refers ref ↔ ref = componentsLead ++ component := by
  constructor
  · intro h
    cases h with
    | here h => exact (Option.some.inj h).symm
    | items h => cases h
    | property h => cases h
    | additional h => cases h
    | member h => cases h
  · rintro rfl
    exact .here rfl

/-- An array refers to what its items refer to. -/
@[simp] theorem refers_arrayOf (items : Schema) (ref : String) :
    (arrayOf items).Refers ref ↔ items.Refers ref := by
  constructor
  · intro h
    cases h with
    | here h => cases h
    | items h hinner => exact Option.some.inj h ▸ hinner
    | property h => cases h
    | additional h => cases h
    | member h => cases h
  · exact fun h => .items rfl h

/-- A map refers to what its values refer to. -/
@[simp] theorem refers_mapOf (values : Schema) (ref : String) :
    (mapOf values).Refers ref ↔ values.Refers ref := by
  constructor
  · intro h
    cases h with
    | here h => cases h
    | items h => cases h
    | property h => cases h
    | additional h hinner => exact Option.some.inj h ▸ hinner
    | member h => cases h
  · exact fun h => .additional rfl h

/-- Remarks add no reference. -/
@[simp] theorem refers_withRemarks (schema : Schema) (remarks : Comment.Field) (ref : String) :
    (schema.withRemarks remarks).Refers ref ↔ schema.Refers ref :=
  ⟨fun h => h.congr rfl rfl rfl rfl rfl, fun h => h.congr rfl rfl rfl rfl rfl⟩

/-- Details add no reference. -/
@[simp] theorem refers_withDetails (schema : Schema) (remarks : Comment.Field) (ref : String) :
    (schema.withDetails remarks).Refers ref ↔ schema.Refers ref :=
  ⟨fun h => h.congr rfl rfl rfl rfl rfl, fun h => h.congr rfl rfl rfl rfl rfl⟩

/-- The comment of a type adds no reference. -/
@[simp] theorem refers_withContainer (schema : Schema) (container : Comment.Container) (ref : String) :
    (schema.withContainer container).Refers ref ↔ schema.Refers ref :=
  ⟨fun h => h.congr rfl rfl rfl rfl rfl, fun h => h.congr rfl rfl rfl rfl rfl⟩

/-- Every reference in the schema leads to one of the named components. -/
def ResolvesIn (names : List String) (schema : Schema) : Prop :=
  ∀ ref, schema.Refers ref → ∃ name ∈ names, ref = componentsLead ++ name

/-- References resolve among more names too. -/
theorem ResolvesIn.mono {names more : List String} {schema : Schema} (h : schema.ResolvesIn names)
    (hsubset : names ⊆ more) : schema.ResolvesIn more := by
  intro ref href
  obtain ⟨name, hname, rfl⟩ := h ref href
  exact ⟨name, hsubset hname, rfl⟩

/-- A schema that refers to nothing resolves anywhere. -/
theorem resolvesIn_of_not_refers {schema : Schema} (names : List String) (h : ∀ ref, ¬ schema.Refers ref) :
    schema.ResolvesIn names := fun ref href => absurd href (h ref)

/-- The reference to a component resolves if the component is there. -/
theorem resolvesIn_referenceTo {names : List String} {component : String} (h : component ∈ names) :
    (referenceTo component).ResolvesIn names := by
  intro ref href
  exact ⟨component, h, (refers_referenceTo component ref).mp href⟩

/-- A composition resolves where its members do. -/
theorem resolvesIn_oneOf {names : List String} {members : List Schema}
    (h : ∀ schema ∈ members, schema.ResolvesIn names) : ResolvesIn names { oneOf := members } := by
  intro ref href
  cases href with
  | here h => cases h
  | items h => cases h
  | property h => cases h
  | additional h => cases h
  | member hmember hinner => exact h _ hmember ref hinner

/-- A further property that resolves keeps an object resolving. -/
theorem ResolvesIn.insert_property {names : List String} {schema property : Schema}
    (h : schema.ResolvesIn names) (hproperty : property.ResolvesIn names) (key : String)
    (required : List String) :
    ResolvesIn names { schema with required, properties := Json.insert key property schema.properties } := by
  intro ref href
  cases href with
  | here hreference => exact h ref (.here hreference)
  | items hitems hinner => exact h ref (.items hitems hinner)
  | property hmember hinner =>
    rcases Json.mem_insert hmember with heq | hmember
    · obtain ⟨rfl, rfl⟩ := Prod.mk.inj heq
      exact hproperty ref hinner
    · exact h ref (.property hmember hinner)
  | additional hadditional hinner => exact h ref (.additional hadditional hinner)
  | member hmember hinner => exact h ref (.member hmember hinner)

end Schema

end ApiScribe
