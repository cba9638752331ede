import ApiScribe.Proofs.Json.Decoding
import ApiScribe.Schema.Decode
import ApiScribe.Schema.Encode

/-!
# Schemas through JSON

Decoding the JSON of a schema gives the schema back, at any depth of nesting, with one exception: an example or
default that is null is written as null, which is how an absent one is read.
-/

namespace ApiScribe

open Json (Value Reads present listSlot objectSlot)

/-- External documentation is read back. -/
theorem Comment.ExternalDocs.reads (docs : Comment.ExternalDocs) :
    Reads Comment.ExternalDocs.decode docs.toJson docs := by
  have hslots : docs.toJson =
      .obj (present [("url", some (.str docs.url)), ("description", docs.description.map .str)]) := by
    rw [toJson, Json.member_eq_present, Json.optional_eq_present, ← Json.present_append]
    rfl
  rw [hslots]
  refine Reads.record rfl (by decide) fun fields hfields => ?_
  rw [hfields.required "url" (.str docs.url) (by simp) (Reads.text docs.url),
    hfields.optional_text "description" docs.description (by simp)]
  rfl

namespace Schema

/-- An optional schema is an optional member. -/
theorem toJsonOption_eq (key : String) (schema : Option Schema) :
    toJsonOption key schema = Json.optional key toJson schema := by
  cases schema <;> rfl

/-- A list of schemas is encoded one by one. -/
theorem toJsonList_eq (schemas : List Schema) : toJsonList schemas = schemas.map toJson := by
  induction schemas with
  | nil => rfl
  | cons schema rest ih => rw [toJsonList, ih, List.map_cons]

/-- Named schemas are encoded one by one. -/
theorem toJsonMembers_eq (entries : List (String × Schema)) :
    toJsonMembers entries = entries.map fun entry => (entry.1, entry.2.toJson) := by
  induction entries with
  | nil => rfl
  | cons entry rest ih => rw [toJsonMembers, ih, List.map_cons]

/-- The slots of a schema object. -/
def slots (schema : Schema) : List (String × Option Value) :=
  [("$ref", schema.reference.map .str), ("type", schema.kind.map fun kind => .str kind.name),
   ("format", schema.format.map .str), ("description", schema.description.map .str),
   ("enum", listSlot schema.enumValues), ("example", schema.sample.map id), ("default", schema.default.map id),
   ("nullable", schema.nullable.map .bool), ("deprecated", schema.deprecated.map .bool),
   ("items", schema.items.map toJson),
   ("properties", objectSlot (schema.properties.map fun entry => (entry.1, entry.2.toJson))),
   ("additionalProperties", schema.additional.map toJson), ("required", listSlot (schema.required.map .str)),
   ("oneOf", listSlot (schema.oneOf.map toJson)),
   ("xml", schema.xmlName.map fun name => .obj [("name", .str name)]),
   ("externalDocs", schema.externalDocs.map Comment.ExternalDocs.toJson)]

/-- A schema is written as the slots that are present. -/
theorem toJson_eq (schema : Schema) : schema.toJson = .obj (present schema.slots) := by
  cases schema
  simp only [toJson, toJsonOption_eq, toJsonList_eq, toJsonMembers_eq, Json.optional_eq_present,
    Json.unlessEmpty_eq_present, Json.unlessEmptyObject_eq_present, ← Json.present_append, List.cons_append,
    List.nil_append, slots]

/-- One schema stands directly inside another. -/
inductive Inside (schema : Schema) : Schema → Prop where
  | items {inner : Schema} (h : schema.items = some inner) : Inside schema inner
  | property {entry : String × Schema} (h : entry ∈ schema.properties) : Inside schema entry.2
  | additional {inner : Schema} (h : schema.additional = some inner) : Inside schema inner
  | member {inner : Schema} (h : inner ∈ schema.oneOf) : Inside schema inner

/-- A schema inside another nests less deep. -/
theorem Inside.nesting_lt {schema inner : Schema} (h : schema.Inside inner) :
    inner.toJson.nesting < schema.toJson.nesting := by
  have hslot (name : String) (value : Value) (hslot : (name, some value) ∈ schema.slots) :
      value.nesting < schema.toJson.nesting := by
    rw [toJson_eq, Value.nesting]
    exact Nat.lt_succ_of_le (Json.nesting_le_of_slot hslot)
  cases h with
  | items h => exact hslot "items" inner.toJson (by simp [slots, h])
  | additional h => exact hslot "additionalProperties" inner.toJson (by simp [slots, h])
  | @property entry h =>
    let members := schema.properties.map fun entry => (entry.1, entry.2.toJson)
    have hmem : (entry.1, entry.2.toJson) ∈ members := List.mem_map.mpr ⟨entry, h, rfl⟩
    have hobject : objectSlot members = some (.obj members) := if_neg (by simpa using List.ne_nil_of_mem hmem)
    have hheld := hslot "properties" (.obj members) (by simp [slots, members, ← hobject])
    exact Nat.lt_trans (Nat.lt_succ_of_le (Json.nesting_le_of_mem_members hmem)) hheld
  | member h =>
    let items := schema.oneOf.map toJson
    have hmem : inner.toJson ∈ items := List.mem_map_of_mem h
    have hlist : listSlot items = some (.arr items) := if_neg (by simpa using List.ne_nil_of_mem hmem)
    have hheld := hslot "oneOf" (.arr items) (by simp [slots, items, ← hlist])
    exact Nat.lt_trans (Nat.lt_succ_of_le (Json.nesting_le_of_mem_items hmem)) hheld

/-- The maps in a schema have no key twice, at any depth. -/
inductive KeysDistinct : Schema → Prop where
  | mk {schema : Schema} (henum : ∀ value ∈ schema.enumValues, value.KeysDistinct)
      (hsample : ∀ value, schema.sample = some value → value.KeysDistinct)
      (hdefault : ∀ value, schema.default = some value → value.KeysDistinct)
      (hkeys : (schema.properties.map Prod.fst).Nodup)
      (hinside : ∀ inner, schema.Inside inner → KeysDistinct inner) : KeysDistinct schema

/-- An example or default is null, at any depth. -/
inductive ShowsNull : Schema → Prop where
  | sample {schema : Schema} (h : schema.sample = some .null) : ShowsNull schema
  | default {schema : Schema} (h : schema.default = some .null) : ShowsNull schema
  | inside {schema inner : Schema} (h : schema.Inside inner) (hinner : ShowsNull inner) : ShowsNull schema

/-- A literal unless it is null. -/
def literal : Value → Option Value
  | .null => none
  | value => some value

mutual

/-- The schema without examples and defaults that are null, at any depth. -/
def withoutNulls : Schema → Schema
  | ⟨reference, kind, format, description, enumValues, sample, default, nullable, deprecated, items,
      properties, additional, required, oneOf, xmlName, externalDocs⟩ =>
    ⟨reference, kind, format, description, enumValues, sample.bind literal, default.bind literal, nullable,
      deprecated, withoutNullsOption items, withoutNullsMembers properties, withoutNullsOption additional, required,
      withoutNullsList oneOf, xmlName, externalDocs⟩

/-- A schema that may be absent, without such literals. -/
def withoutNullsOption : Option Schema → Option Schema
  | none => none
  | some schema => some schema.withoutNulls

/-- Schemas without such literals. -/
def withoutNullsList : List Schema → List Schema
  | [] => []
  | schema :: rest => schema.withoutNulls :: withoutNullsList rest

/-- Named schemas without such literals. -/
def withoutNullsMembers : List (String × Schema) → List (String × Schema)
  | [] => []
  | (name, schema) :: rest => (name, schema.withoutNulls) :: withoutNullsMembers rest

end

/-- An optional schema loses its nulls. -/
theorem withoutNullsOption_eq (schema : Option Schema) : withoutNullsOption schema = schema.map withoutNulls := by
  cases schema <;> rfl

/-- A list of schemas loses its nulls one by one. -/
theorem withoutNullsList_eq (schemas : List Schema) : withoutNullsList schemas = schemas.map withoutNulls := by
  induction schemas with
  | nil => rfl
  | cons schema rest ih => rw [withoutNullsList, ih, List.map_cons]

/-- Named schemas lose their nulls one by one. -/
theorem withoutNullsMembers_eq (entries : List (String × Schema)) :
    withoutNullsMembers entries = entries.map fun entry => (entry.1, entry.2.withoutNulls) := by
  induction entries with
  | nil => rfl
  | cons entry rest ih => rw [withoutNullsMembers, ih, List.map_cons]

/-- A schema loses the nulls among its literals and those inside. -/
theorem withoutNulls_eq (schema : Schema) :
    schema.withoutNulls =
      { schema with
        sample := schema.sample.bind literal
        default := schema.default.bind literal
        items := schema.items.map withoutNulls
        properties := schema.properties.map fun entry => (entry.1, entry.2.withoutNulls)
        additional := schema.additional.map withoutNulls
        oneOf := schema.oneOf.map withoutNulls } := by
  cases schema
  rw [withoutNulls, withoutNullsOption_eq, withoutNullsOption_eq, withoutNullsList_eq, withoutNullsMembers_eq]

/-- The name in an `xml` object is read back. -/
theorem reads_xml (name : String) : Reads decodeXml (.obj [("name", .str name)]) name := by
  change Reads decodeXml (.obj (present [("name", some (.str name))])) name
  refine Reads.record rfl (by decide) fun fields hfields => ?_
  exact hfields.required "name" (.str name) (by simp) (Reads.text name)

/-- A literal is read back unless it is null. -/
theorem reads_literal {value : Value} (h : value.KeysDistinct) :
    Reads (Json.Decoder.nullable Json.Decoder.value) value (literal value) := by
  cases value with
  | null => exact Reads.nullable_null
  | _ => exact (Reads.value h).nullable nofun

/-- A schema is read back at every level that it fits in. -/
theorem reads_within {schema : Schema} (h : schema.KeysDistinct) {levels : Nat}
    (hlevels : schema.toJson.nesting ≤ levels) :
    Reads (decodeWithin levels) schema.toJson schema.withoutNulls := by
  -- The decoder goes one level down with each schema inside, and so does the nesting.
  induction levels generalizing schema with
  | zero =>
    rw [toJson_eq, Value.nesting] at hlevels
    omega
  | succ levels ih =>
    obtain ⟨henum, hsample, hdefault, hkeys, hinside⟩ := h
    have hinner (inner : Schema) (h : schema.Inside inner) :
        Reads (decodeWithin levels) inner.toJson inner.withoutNulls :=
      ih (hinside inner h) (Nat.le_of_lt_succ (Nat.lt_of_lt_of_le h.nesting_lt hlevels))
    have hobject (inner : Schema) : inner.toJson ≠ .null := by
      rw [toJson_eq]
      nofun
    rw [toJson_eq, withoutNulls_eq]
    refine Reads.record rfl (by decide) fun fields hfields => ?_
    rw [hfields.optional_text "$ref" schema.reference (by simp [slots]),
      hfields.optional_map "type" (fun kind => .str kind.name) schema.kind (by simp [slots]) (fun _ => nofun)
        fun kind _ => Reads.word kind.ofName?_name,
      hfields.optional_text "format" schema.format (by simp [slots]),
      hfields.optional_text "description" schema.description (by simp [slots]),
      hfields.defaulted_list "enum" id schema.enumValues (by simp [slots]) fun value hvalue =>
        Reads.value (henum value hvalue),
      hfields.optional "example" id schema.sample (by simp [slots]) fun value hvalue =>
        reads_literal (hsample value hvalue),
      hfields.optional "default" id schema.default (by simp [slots]) fun value hvalue =>
        reads_literal (hdefault value hvalue),
      hfields.optional_flag "nullable" schema.nullable (by simp [slots]),
      hfields.optional_flag "deprecated" schema.deprecated (by simp [slots]),
      hfields.optional_map "items" toJson schema.items (by simp [slots]) hobject fun inner h =>
        hinner inner (.items h),
      hfields.defaulted_map "properties" toJson schema.properties (by simp [slots]) hkeys fun entry h =>
        hinner entry.2 (.property h),
      hfields.optional_map "additionalProperties" toJson schema.additional (by simp [slots]) hobject fun inner h =>
        hinner inner (.additional h),
      hfields.defaulted_list "required" .str schema.required (by simp [slots]) fun value _ => Reads.text value,
      hfields.defaulted_list "oneOf" toJson schema.oneOf (by simp [slots]) fun inner h => hinner inner (.member h),
      hfields.optional_map "xml" (fun name => .obj [("name", .str name)]) schema.xmlName (by simp [slots])
        (fun _ => nofun) fun name _ => reads_xml name,
      hfields.optional_map "externalDocs" Comment.ExternalDocs.toJson schema.externalDocs (by simp [slots])
        (fun _ => nofun) fun docs _ => docs.reads]
    simp

/-- A schema is read back. -/
theorem reads {schema : Schema} (h : schema.KeysDistinct) : Reads decode schema.toJson schema.withoutNulls :=
  fun depth hdepth => reads_within h hdepth depth hdepth

/-- A literal that is not null stays. -/
theorem bind_literal {value : Option Value} (h : value ≠ some .null) : value.bind literal = value := by
  cases value with
  | none => rfl
  | some found =>
    cases found with
    | null => exact absurd rfl h
    | _ => rfl

/-- A schema without null literals stays as it is. -/
theorem withoutNulls_eq_self {schema : Schema} (h : ¬ schema.ShowsNull) : schema.withoutNulls = schema := by
  induction hnesting : schema.toJson.nesting using Nat.strong_induction_on generalizing schema with
  | _ nesting ih =>
    have hinner (inner : Schema) (hinside : schema.Inside inner) : inner.withoutNulls = inner :=
      ih _ (hnesting ▸ hinside.nesting_lt) (fun hnull => h (.inside hinside hnull)) rfl
    have hitems : schema.items.map withoutNulls = schema.items :=
      (Option.map_congr fun inner hsome => hinner inner (.items hsome)).trans Option.map_id'
    have hadditional : schema.additional.map withoutNulls = schema.additional :=
      (Option.map_congr fun inner hsome => hinner inner (.additional hsome)).trans Option.map_id'
    have hproperties : schema.properties.map (fun entry => (entry.1, entry.2.withoutNulls)) = schema.properties :=
      Json.map_values_eq_self fun entry hmem => hinner entry.2 (.property hmem)
    have honeOf : schema.oneOf.map withoutNulls = schema.oneOf :=
      (List.map_congr_left fun inner hmem => hinner inner (.member hmem)).trans (List.map_id' _)
    rw [withoutNulls_eq, bind_literal fun hsome => h (.sample hsome), bind_literal fun hsome => h (.default hsome),
      hitems, hadditional, hproperties, honeOf]
    cases schema
    rfl

end Schema

end ApiScribe
