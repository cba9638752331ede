import ApiScribe.Proofs.Json.Reading
import ApiScribe.Proofs.Synthesis.Fields

/-!
# Literals and kinds

The example, the default and the enum values of a field are literals of its comment, read as the kind of the field's
schema asks. Literals of integers, numbers and booleans are of that kind or kept as text. For arrays and objects any
JSON text is taken, so a literal strays from the kind exactly if it is a JSON text that does not open with the
bracket of the kind.
-/

namespace ApiScribe

/-- The kinds of a value; an integer is a number too. -/
def Json.Value.kinds : Json.Value → List SchemaKind
  | .null => []
  | .bool _ => [.boolean]
  | .int _ => [.integer, .number]
  | .float _ => [.number]
  | .str _ => [.string]
  | .arr _ => [.array]
  | .obj _ => [.object]

/-- The character that opens the JSON texts of a kind, if any JSON text is taken for the kind. -/
def SchemaKind.bracket? : SchemaKind → Option Char
  | .array => some '['
  | .object => some '\x7b'
  | _ => none

/-- The literals of a comment. -/
def Comment.Field.literals (remarks : Comment.Field) : List String :=
  remarks.sample.toList ++ remarks.default.toList ++ remarks.enumValues

namespace Schema

/-- The example, the default and the enum values of a schema. -/
def values (schema : Schema) : List Json.Value :=
  schema.sample.toList ++ schema.default.toList ++ schema.enumValues

/-- The value of a literal is of the kind that is asked for, or else it is the literal as text. -/
def Fits (kind : Option SchemaKind) (literal : String) (value : Json.Value) : Prop :=
  (∃ wanted ∈ kind, wanted ∈ value.kinds) ∨ value = .str literal

/-- A JSON text that does not open as the kind asks, where any JSON text is taken. -/
def Strays (kind : Option SchemaKind) (literal : String) : Prop :=
  ∃ bracket ∈ kind.bind SchemaKind.bracket?, (Json.Value.ofText? literal).isSome = true ∧
    (Json.skipSpace literal.toList).head? ≠ some bracket

/-- A value is of a kind with brackets exactly if it opens with its bracket. -/
theorem mem_kinds_iff {kind : SchemaKind} {bracket : Char} (h : kind.bracket? = some bracket) (value : Json.Value) :
    kind ∈ value.kinds ↔ value.opening = some bracket := by
  cases kind <;> cases h <;> cases value <;> simp [Json.Value.kinds, Json.Value.opening]

/-- The bracket of a kind opens a value. -/
theorem isOpening_bracket {kind : SchemaKind} {bracket : Char} (h : kind.bracket? = some bracket) :
    Json.isOpening bracket = true := by
  cases kind <;> cases h <;> rfl

/-- For a kind with brackets a literal is read as JSON. -/
theorem literal?_of_bracket {kind : SchemaKind} {bracket : Char} (h : kind.bracket? = some bracket)
    (literal : String) : literal? literal (some kind) = Json.Value.ofText? literal := by
  cases kind <;> cases h <;> rfl

/-- Where not any JSON text is taken, what is read is of the kind that is asked for. -/
theorem coerce_fits_of_no_bracket {kind : Option SchemaKind} (h : kind.bind SchemaKind.bracket? = none)
    (literal : String) : Fits kind literal (coerce literal kind) := by
  cases hread : literal? literal kind with
  | none => exact .inr (by rw [coerce, hread]; rfl)
  | some value =>
    refine .inl ?_
    rw [coerce, hread, Option.getD_some]
    unfold literal? at hread
    split at hread
    · obtain ⟨n, -, rfl⟩ := Option.map_eq_some_iff.mp hread
      exact ⟨.integer, rfl, by simp [Json.Value.kinds]⟩
    · obtain ⟨x, -, rfl⟩ := Option.map_eq_some_iff.mp hread
      exact ⟨.number, rfl, by simp [Json.Value.kinds]⟩
    · refine ⟨.boolean, rfl, ?_⟩
      split at hread
      · cases hread; simp [Json.Value.kinds]
      · split at hread <;> cases hread
        simp [Json.Value.kinds]
    · cases h
    · cases h
    · cases hread
    · cases hread

/-- A literal is read as a value of its kind or kept as text, unless it strays. -/
theorem coerce_fits_iff (kind : Option SchemaKind) (literal : String) :
    Fits kind literal (coerce literal kind) ↔ ¬ Strays kind literal := by
  cases hbracket : kind.bind SchemaKind.bracket? with
  | none =>
    refine iff_of_true (coerce_fits_of_no_bracket hbracket literal) ?_
    rintro ⟨bracket, hmem, -⟩
    rw [hbracket] at hmem
    cases hmem
  | some bracket =>
    obtain ⟨wanted, rfl, hwanted⟩ := Option.bind_eq_some_iff.mp hbracket
    rw [coerce, literal?_of_bracket hwanted]
    cases hread : Json.Value.ofText? literal with
    | none =>
      refine iff_of_true (.inr rfl) ?_
      rintro ⟨_, -, hsome, -⟩
      rw [hread] at hsome
      cases hsome
    | some value =>
      have hself : value ≠ .str literal := fun h => Json.ofText?_ne_self literal (h ▸ hread)
      have hopens : value.opening = some bracket ↔ (Json.skipSpace literal.toList).head? = some bracket := by
        rw [Json.opening_ofText? hread, Option.filter_eq_some_iff, and_iff_left (isOpening_bracket hwanted)]
      simp [Fits, Strays, hself, hread, hwanted, mem_kinds_iff hwanted, hopens]

/-- The values of literals fit one by one exactly if none of the literals strays. -/
theorem forall₂_fits_iff (kind : Option SchemaKind) (literals : List String) :
    List.Forall₂ (Fits kind) literals (literals.map fun literal => coerce literal kind) ↔
      ∀ literal ∈ literals, ¬ Strays kind literal := by
  rw [List.forall₂_map_right_iff, List.forall₂_same]
  exact forall₂_congr fun literal _ => coerce_fits_iff kind literal

/-- A schema without values that is no composition. -/
def Bare (schema : Schema) : Prop := schema.values = [] ∧ schema.oneOf = []

/-- The literals of a comment that are laid over a schema: none if it is a composition. -/
def laid (schema : Schema) (remarks : Comment.Field) : List String :=
  if schema.oneOf.isEmpty then remarks.literals else []

/-- A reference has no values. -/
theorem bare_referenceTo (component : String) : (referenceTo component).Bare := ⟨rfl, rfl⟩

/-- The free-form schema has no values. -/
theorem bare_empty : ({} : Schema).Bare := ⟨rfl, rfl⟩

/-- The schema of a kind has no values. -/
theorem bare_ofKind (kind : SchemaKind) : (ofKind kind).Bare := ⟨rfl, rfl⟩

/-- The schema of a primitive has no values. -/
theorem bare_ofPrimitive (primitive : Primitive) : (ofPrimitive primitive).Bare := by
  cases primitive <;> exact ⟨rfl, rfl⟩

/-- Over a schema without values, the literals of a comment give the values. -/
theorem Bare.values_withDetails {schema : Schema} (h : schema.Bare) (remarks : Comment.Field) :
    (schema.withDetails remarks).values =
      ((schema.withDetails remarks).laid remarks).map fun literal => coerce literal schema.kind := by
  obtain ⟨hvalues, hone⟩ := h
  rw [values, List.append_eq_nil_iff, List.append_eq_nil_iff, Option.toList_eq_nil_iff, Option.toList_eq_nil_iff]
    at hvalues
  obtain ⟨⟨hsample, hdefault⟩, henum⟩ := hvalues
  have hlaid : (schema.withDetails remarks).laid remarks = remarks.literals := if_pos (List.isEmpty_iff.mpr hone)
  have hlists : (schema.withDetails remarks).values =
      (remarks.sample.map fun text => coerce text schema.kind).toList ++
        (remarks.default.map fun text => coerce text schema.kind).toList ++
        remarks.enumValues.map fun text => coerce text schema.kind := by
    rw [values, withDetails, withRemarks]
    dsimp only
    rw [hsample, hdefault, henum, Option.or_none, Option.or_none]
    split
    · next hnone => rw [List.isEmpty_iff.mp hnone, List.map_nil]
    · rfl
  rw [hlists, hlaid, Comment.Field.literals, List.map_append, List.map_append, Option.toList_map, Option.toList_map]

end Schema

/-- Declarations that are no components are shown by schemas without values. -/
def Recursion.ShowsBare (rules : Recursion) : Prop :=
  ∀ name subject first schema last, (rules.inline name subject).run first = some (schema, last) → schema.Bare

namespace Synthesis

open Registry

variable {rules : Recursion} {first last : Registry} {schema : Schema}

/-- What is done with the schema of a type is done with a schema that there is. -/
theorem run_map_eq_some {action : Build (Option Schema)} {wrap : Schema → Schema}
    (hrun : (do return (← action).map wrap : Build _).run first = some (some schema, last)) :
    ∃ inner, action.run first = some (some inner, last) ∧ wrap inner = schema := by
  obtain ⟨⟨result, middle⟩, hresult, hpure⟩ := Option.bind_eq_some_iff.mp hrun
  obtain ⟨hschema, rfl⟩ := Prod.mk.inj (Option.some.inj hpure)
  obtain ⟨inner, rfl, hwrap⟩ := Option.map_eq_some_iff.mp hschema
  exact ⟨inner, hresult, hwrap⟩

/-- The schema of a library name has no values. -/
theorem bare_wellKnownSchema (type : TypeExpr) : (wellKnownSchema type).Bare := by
  unfold wellKnownSchema
  split
  · exact Schema.bare_ofPrimitive _
  · exact Schema.bare_empty

/-- The schema of a path has no values if the rules show none. -/
theorem resolvePath_bare (h : rules.ShowsBare) {segments : List String} {scope : ModulePath} {subject : String}
    (hrun : (resolvePath rules segments scope subject).run first = some (some schema, last)) : schema.Bare := by
  unfold resolvePath at hrun
  rw [run_liftM_bind] at hrun
  rcases hlookup : (lookup segments scope).run first with ⟨target, found⟩
  rw [hlookup] at hrun
  cases target with
  | none => cases hrun
  | some name =>
    obtain ⟨⟨result, built⟩, -, hrest⟩ := Option.bind_eq_some_iff.mp hrun
    cases result with
    | some id =>
      cases hrest
      cases last.nodes[id]? with
      | none => exact Schema.bare_empty
      | some node => exact Schema.bare_referenceTo node.name
    | none =>
      obtain ⟨⟨shape, shown⟩, hshown, hpure⟩ := Option.bind_eq_some_iff.mp hrest
      cases hpure
      exact h _ _ _ _ _ hshown

/-- The schema of a type has no values, however deep it is looked up. -/
theorem resolve_bare (h : rules.ShowsBare) {scope : ModulePath} {subject : String} {type : TypeExpr}
    (hrun : (resolve rules scope subject type).run first = some (some schema, last)) : schema.Bare := by
  induction type generalizing first schema with
  | primitive primitive =>
    cases hrun
    exact Schema.bare_ofPrimitive primitive
  | any =>
    cases hrun
    exact Schema.bare_empty
  | pointer inner ih => exact ih hrun
  | array inner ih =>
    obtain ⟨inner, -, rfl⟩ := run_map_eq_some hrun
    exact ⟨rfl, rfl⟩
  | map key value _ ih =>
    unfold resolve at hrun
    split at hrun
    · obtain ⟨inner, -, rfl⟩ := run_map_eq_some hrun
      exact ⟨rfl, rfl⟩
    · obtain ⟨inner, -, rfl⟩ := run_map_eq_some hrun
      exact ⟨rfl, rfl⟩
  | unsupported what => cases hrun
  | named name =>
    unfold resolve at hrun
    rw [run_liftM_bind] at hrun
    rcases hknown : (undeclaredWellKnown name scope).run first with ⟨known, before⟩
    rw [hknown] at hrun
    cases known with
    | some known =>
      cases hrun
      exact bare_wellKnownSchema known
    | none => exact resolvePath_bare h hrun
  | selector qualifier name => exact resolvePath_bare h hrun

/-- The shape of a declaration has no values if the rules show none. -/
theorem inline_bare (h : rules.ShowsBare) {name : QualifiedName} {subject : String}
    (hrun : (inline rules name subject).run first = some (schema, last)) : schema.Bare := by
  unfold inline at hrun
  rw [StateT.run_bind, StateT.run_get, pure_bind] at hrun
  split at hrun
  · cases hrun
    exact Schema.bare_empty
  · next declaration _ =>
    split at hrun
    · cases hrun
      exact Schema.bare_ofKind .object
    · cases hrun
      exact Schema.bare_ofKind .string
    · cases hrun
      exact Schema.bare_empty
    · rw [StateT.run_bind, StateT.run_get, pure_bind] at hrun
      split at hrun
      · cases hrun
        exact Schema.bare_empty
      · rw [StateT.run_bind, StateT.run_modify, pure_bind] at hrun
        obtain ⟨⟨result, resolved⟩, hresolved, hpure⟩ := Option.bind_eq_some_iff.mp hrun
        cases hpure
        cases result with
        | none => exact Schema.bare_empty
        | some shown => exact resolve_bare h hresolved

end Synthesis

/-- Rules of any depth show no values. -/
theorem Recursion.showsBare_ofDepth (depth : Nat) : (ofDepth depth).ShowsBare := by
  induction depth with
  | zero =>
    intro name subject first schema last hrun
    cases hrun
  | succ depth ih => exact fun _ _ _ _ _ hrun => Synthesis.inline_bare ih hrun

/-- Nor do the rules without any depth. -/
theorem Recursion.showsBare_unbounded : unbounded.ShowsBare := by
  intro name subject first schema last hrun
  obtain ⟨shown, after, hends, -⟩ :=
    first.rules_complete.inline name subject first first.fits_declarable trivial
  have hperform : (Registry.perform {} fun rules => rules.inline name subject).run first = (shown, after) :=
    Registry.perform_run_of_some hends
  obtain ⟨rfl, -⟩ := Prod.mk.inj (hperform.symm.trans (Option.some.inj hrun))
  exact showsBare_ofDepth _ name subject first _ after hends

namespace Synthesis

variable {rules : Recursion} {first last : Registry} {schema : Schema}

/-- The values of a field's schema are those of the literals that are laid over it. -/
theorem values_fieldSchema (h : rules.ShowsBare) {type : TypeExpr} {remarks : Comment.Field} {scope : ModulePath}
    {subject : String}
    (hrun : (fieldSchema rules type remarks scope subject).run first = some (some schema, last)) :
    schema.values = (schema.laid remarks).map fun literal => Schema.coerce literal schema.kind := by
  obtain ⟨⟨found, listed⟩, -, hrest⟩ := Option.bind_eq_some_iff.mp hrun
  dsimp only at hrest
  split at hrest
  · split at hrest
    · obtain ⟨inner, hinner, rfl⟩ := run_map_eq_some hrest
      exact (resolve_bare h hinner).values_withDetails remarks
    · obtain ⟨inner, hinner, rfl⟩ := run_map_eq_some hrest
      exact (resolve_bare h hinner).values_withDetails remarks
  · next hfound =>
    cases hrest
    have hlaid : (Schema.withRemarks { oneOf := found } remarks).laid remarks = [] := if_neg hfound
    rw [hlaid]
    rfl

end Synthesis

namespace Registry

variable {name : QualifiedName} {declaration : Declaration} {fields : List FieldDeclaration} {first : Registry}

/-- The values of each property of a struct are read from the literals of the field that exposes it. -/
theorem Awaits.values_properties (h : first.Awaits name declaration fields) :
    ∃ id last node, (synthesize name).run first = (some id, last) ∧ last.nodes[id]? = some node ∧
      node.canonical = name ∧ ∀ key property, (key, property) ∈ node.schema.properties →
        ∃ field ∈ fields, ∃ ident, field.ident = some ident ∧ declaration.exposedName? field = some key ∧
          property.values = (property.laid (declaration.fieldRemarks field ident)).map
            fun literal => Schema.coerce literal property.kind := by
  obtain ⟨id, last, node, outcomes, hrun, hproperties, -⟩ := h.outcomes
  obtain ⟨new, hnew⟩ := hrun.findings
  refine ⟨id, last, node, hrun.run, hrun.placed, hrun.canonical, fun key property hproperty => ?_⟩
  rw [hproperties] at hproperty
  obtain ⟨exposure, hexposure, heq⟩ := List.mem_map.mp (Json.mem_of_mem_insertAll hproperty)
  obtain ⟨rfl, rfl⟩ := Prod.mk.inj heq
  obtain ⟨⟨field, position⟩, hfield, ⟨earlier, before, after, hstep⟩, -⟩ :=
    exists_of_forall₂ (hrun.steps hnew.symm).flip (List.reduceOption_mem_iff.mp hexposure)
  have hkey := hstep.exposedName
  cases hstep with
  | @exposed _ _ _ _ ident _ _ hident _ _ _ hexposed =>
    exact ⟨field, List.fst_mem_of_mem_zipIdx hfield, ident, hident, hkey,
      Synthesis.values_fieldSchema Recursion.showsBare_unbounded hexposed⟩

/-- A literal is read as a value of the kind that is asked for or kept as text, unless it strays. When a struct is
asked for, the example, the default and the enum values of each property are read from the literals of the field
that exposes it, and they fit the kind of the property exactly if none of these literals strays. -/
theorem literals_fit_iff (kind : Option SchemaKind) (literal : String) :
    (Schema.Fits kind literal (Schema.coerce literal kind) ↔ ¬ Schema.Strays kind literal) ∧
    ∀ first name declaration fields, Awaits first name declaration fields →
      ∃ id last node, (synthesize name).run first = (some id, last) ∧ last.nodes[id]? = some node ∧
        node.canonical = name ∧ ∀ key property, (key, property) ∈ node.schema.properties →
          ∃ field ∈ fields, ∃ ident, field.ident = some ident ∧ declaration.exposedName? field = some key ∧
            let literals := property.laid (declaration.fieldRemarks field ident)
            property.values = literals.map (fun literal => Schema.coerce literal property.kind) ∧
            (List.Forall₂ (Schema.Fits property.kind) literals property.values ↔
              ∀ literal ∈ literals, ¬ Schema.Strays property.kind literal) := by
  refine ⟨Schema.coerce_fits_iff kind literal, fun first name declaration fields h => ?_⟩
  obtain ⟨id, last, node, hrun, hnode, hcanonical, hproperties⟩ := h.values_properties
  refine ⟨id, last, node, hrun, hnode, hcanonical, fun key property hproperty => ?_⟩
  obtain ⟨field, hfield, ident, hident, hkey, hvalues⟩ := hproperties key property hproperty
  refine ⟨field, hfield, ident, hident, hkey, hvalues, ?_⟩
  rw [hvalues]
  exact Schema.forall₂_fits_iff _ _

/-- The fields `age: i64`, with the example `5` and the enum values `1` and `x`, and `tags: Vec<String>`, with the
example `5`. -/
def literalFields : List FieldDeclaration :=
  [⟨some "age", .path false [] "i64" [], ["openapi:example 5", "openapi:enum 1,x"], {}⟩,
    ⟨some "tags", .path false [] "Vec" [.path false [] "String" []], ["openapi:example 5"], {}⟩]

/-- An example of an integer fits, and the values of properties are read from the literals of fields. -/
theorem literals_fit_iff_pet :
    Schema.Fits (some .integer) "5" (Schema.coerce "5" (some .integer)) ∧
    (petRegistry literalFields).Awaits ⟨.root, "Pet"⟩ (petOf literalFields) literalFields ∧
    ∃ id last node, (synthesize ⟨.root, "Pet"⟩).run (petRegistry literalFields) = (some id, last) ∧
      last.nodes[id]? = some node ∧ ∀ key property, (key, property) ∈ node.schema.properties →
        ∃ field ∈ literalFields, ∃ ident, field.ident = some ident ∧
          (petOf literalFields).exposedName? field = some key ∧
          property.values = (property.laid ((petOf literalFields).fieldRemarks field ident)).map
            fun literal => Schema.coerce literal property.kind := by
  have hawaits := awaits_petRegistry literalFields
  obtain ⟨hfits, hstructs⟩ := literals_fit_iff (some .integer) "5"
  obtain ⟨id, last, node, hrun, hnode, -, hproperties⟩ := hstructs _ _ _ _ hawaits
  refine ⟨hfits.mpr ?_, hawaits, id, last, node, hrun, hnode, fun key property hproperty => ?_⟩
  · rintro ⟨bracket, hbracket, -⟩
    cases hbracket
  · obtain ⟨field, hfield, ident, hident, hkey, hvalues, -⟩ := hproperties key property hproperty
    exact ⟨field, hfield, ident, hident, hkey, hvalues⟩

/-- An integer is the example of an array, although it could be kept as text. -/
theorem example_of_other_kind_kept :
    ∃ node property,
      ((synthesize ⟨.root, "Pet"⟩).run (petRegistry literalFields)).2.nodeFor? ⟨.root, "Pet"⟩ = some node ∧
      Json.lookup "tags" node.schema.properties = some property ∧ property.kind = some .array ∧
      property.sample = some (Schema.coerce "5" property.kind) ∧
      ¬ Schema.Fits property.kind "5" (Schema.coerce "5" property.kind) := by
  refine ⟨_, _, rfl, rfl, rfl, rfl, ?_⟩
  have hread : Schema.coerce "5" (some .array) = .int 5 := rfl
  change ¬ Schema.Fits (some .array) "5" (Schema.coerce "5" (some .array))
  rw [hread]
  simp [Schema.Fits, Json.Value.kinds]

end Registry

end ApiScribe
