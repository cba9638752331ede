import ApiScribe.Proofs.TypeExpr.Parts
import ApiScribe.Schema.Synthesis

/-!
# Wrappers are transparent

A reference, parentheses and a type such as `Option` or `Box` are transparent wherever they stand in a written
type, at any depth: the same schema is found or missed, by the same steps, in a field and in a comment, and the
keys of maps are text as before. Shapes do keep most wrappers, except around primitives, so that a sequence of
`u8` is recognised through them. Two shapes are alike if they are the same without wrappers and are primitive
together; whatever puts shapes together keeps this.
-/

namespace ApiScribe

open Source (TypeSyntax)

/-- The second type is the first with a wrapper around it. A name that is one of the type parameters is no
wrapper, unless a path leads to it. -/
inductive Source.TypeSyntax.Wraps (generics : List String) : TypeSyntax → TypeSyntax → Prop where
  | reference (type : TypeSyntax) : Wraps generics type (.reference type)
  | paren (type : TypeSyntax) : Wraps generics type (.paren type)
  | named (type : TypeSyntax) (qualifier : List String) {name : String} (before : List TypeSyntax)
      (hname : name ∈ ["Option", "Box", "Rc", "Arc", "Cow", "Json", "RefCell", "Cell"])
      (hfree : qualifier = [] → name ∉ generics) :
      Wraps generics type (.path false qualifier name (before ++ [type]))

namespace TypeExpr

/-- A type without its wrappers. -/
def unwrapped : TypeExpr → TypeExpr
  | .pointer inner => inner.unwrapped
  | .array inner => .array inner.unwrapped
  | .map key value => .map key.unwrapped value.unwrapped
  | type => type

/-- Whether a type is a primitive. -/
def isPrimitive : TypeExpr → Bool
  | .primitive _ => true
  | _ => false

/-- Two types are the same without wrappers, and are primitive together. -/
structure Alike (type type' : TypeExpr) : Prop where
  unwrapped : type'.unwrapped = type.unwrapped
  isPrimitive : type'.isPrimitive = type.isPrimitive

/-- A primitive is like itself only. -/
theorem Alike.eq_of_isPrimitive {type type' : TypeExpr} (h : Alike type type')
    (hprimitive : type.isPrimitive = true) : type' = type := by
  have hprimitive' := h.isPrimitive.trans hprimitive
  cases type with
  | primitive =>
    cases type' with
    | primitive => exact h.unwrapped
    | _ => cases hprimitive'
  | _ => cases hprimitive

/-- Around anything but a primitive a wrapper is kept. -/
theorem wrap_of_not_isPrimitive {type : TypeExpr} (h : type.isPrimitive = false) : type.wrap = .pointer type := by
  cases type with
  | primitive => cases h
  | _ => rfl

/-- A sequence of anything but a primitive is an array. -/
theorem sequence_of_not_isPrimitive {type : TypeExpr} (h : type.isPrimitive = false) :
    type.sequence = .array type := by
  cases type with
  | primitive => cases h
  | _ => rfl

/-- A wrapper leaves a type as it was, up to wrappers. -/
theorem alike_wrap (type : TypeExpr) : Alike type type.wrap := by
  cases type <;> exact ⟨rfl, rfl⟩

/-- Whatever puts types together keeps them alike. -/
theorem alike_compatible : Compatible Alike where
  refl _ := ⟨rfl, rfl⟩
  wrap {type type'} h := by
    cases hprimitive : type.isPrimitive with
    | true => rw [h.eq_of_isPrimitive hprimitive]; exact ⟨rfl, rfl⟩
    | false =>
      rw [wrap_of_not_isPrimitive hprimitive, wrap_of_not_isPrimitive (h.isPrimitive.trans hprimitive)]
      exact ⟨h.unwrapped, rfl⟩
  sequence {type type'} h := by
    cases hprimitive : type.isPrimitive with
    | true => rw [h.eq_of_isPrimitive hprimitive]; exact ⟨rfl, rfl⟩
    | false =>
      rw [sequence_of_not_isPrimitive hprimitive, sequence_of_not_isPrimitive (h.isPrimitive.trans hprimitive)]
      exact ⟨congrArg array h.unwrapped, rfl⟩
  key value h := ⟨congrArg (map · value.unwrapped) h.unwrapped, rfl⟩
  value key h := ⟨congrArg (map key.unwrapped) h.unwrapped, rfl⟩

/-- The name of a wrapper stands for what it wraps, which is its last argument. -/
theorem ofPath_of_mem_pointerNames {generics qualifier : List String} {name : String}
    (hname : name ∈ pointerNames) (hfree : qualifier = [] → name ∉ generics) (before : List TypeExpr)
    (type : TypeExpr) : ofPath generics qualifier name (before ++ [type]) = type.wrap := by
  have hparameter : ¬ (qualifier.isEmpty && generics.contains name) = true := by
    simpa using hfree
  unfold ofPath
  rw [if_neg hparameter]
  split
  · simp_all
  · next first rest harguments =>
    rw [if_pos (by simpa using hname)]
    simp [← harguments]

/-- A written wrapper is read as one. -/
theorem classify_wraps {generics : List String} {type type' : TypeSyntax} (h : type.Wraps generics type') :
    Alike (classify generics type) (classify generics type') := by
  cases h with
  | reference => exact alike_wrap _
  | paren => exact ⟨rfl, rfl⟩
  | named qualifier before hname hfree =>
    rw [classify, classifyAll_eq_map, List.map_append, List.map_singleton,
      ofPath_of_mem_pointerNames hname hfree]
    exact alike_wrap _

/-- Wrappers anywhere in a written type leave its shape as it was, up to wrappers. -/
theorem classify_wrapped {generics : List String} {type type' : TypeSyntax}
    (h : TypeSyntax.Changes (TypeSyntax.Wraps generics) type type') :
    Alike (classify generics type) (classify generics type') :=
  alike_compatible.classify (fun _ _ => classify_wraps) h

/-- A type is text through its wrappers. -/
theorem isTextLike_unwrapped (type : TypeExpr) : type.unwrapped.isTextLike = type.isTextLike := by
  induction type with
  | pointer inner ih => exact ih
  | _ => rfl

end TypeExpr

/-- A schema without its list of required keys. -/
def Schema.withoutRequired (schema : Schema) : Schema := { schema with required := [] }

namespace Synthesis

variable (rules : Recursion)

/-- A type is looked up through its wrappers in a field. -/
theorem resolve_unwrapped (scope : ModulePath) (subject : String) (type : TypeExpr) :
    resolve rules scope subject type.unwrapped = resolve rules scope subject type := by
  induction type with
  | pointer inner ih => exact ih
  | array inner ih => simp only [TypeExpr.unwrapped, resolve, ih]
  | map key value _ ih => simp only [TypeExpr.unwrapped, resolve, ih, TypeExpr.isTextLike_unwrapped]
  | _ => rfl

/-- A type is looked up through its wrappers in a comment. -/
theorem strict_unwrapped (scope : ModulePath) (type : TypeExpr) :
    strict rules scope type.unwrapped = strict rules scope type := by
  induction type with
  | pointer inner ih => exact ih
  | array inner ih => simp only [TypeExpr.unwrapped, strict, ih]
  | map key value _ ih => simp only [TypeExpr.unwrapped, strict, ih]
  | _ => rfl

variable {rules}

/-- A field of another type that is looked up alike adds the same property, which may be required or not. -/
theorem addField_retyped {declaration : Declaration} {field : FieldDeclaration} {type : TypeSyntax}
    (h : ∀ scope subject, resolve rules scope subject (TypeExpr.classify declaration.generics type) =
      resolve rules scope subject (TypeExpr.classify declaration.generics field.type))
    (object : Schema) (position : Nat) (first : Registry) :
    ((addField rules declaration object { field with type } position).run first).map
        (Prod.map Schema.withoutRequired id) =
      ((addField rules declaration object field position).run first).map (Prod.map Schema.withoutRequired id) := by
  have hschema (remarks : Comment.Field) (scope : ModulePath) (subject : String) :
      fieldSchema rules (TypeExpr.classify declaration.generics type) remarks scope subject =
        fieldSchema rules (TypeExpr.classify declaration.generics field.type) remarks scope subject := by
    unfold fieldSchema
    rw [h]
  have hexposed (ident : Option String) (remarks : Comment.Field) (exposed : String) :
      exposedName declaration.options ⟨ident, type, field.docs, field.options⟩ remarks exposed =
        exposedName declaration.options field remarks exposed := rfl
  unfold addField
  cases field.ident with
  | none => rfl
  | some ident =>
    dsimp only
    rw [hschema]
    rcases Comment.Field.read field.docs (declaration.name.display ++ "." ++ ident) with ⟨remarks, findings⟩
    split
    · rfl
    · split
      · rfl
      · rw [StateT.run_bind, StateT.run_modify, pure_bind, StateT.run_bind, StateT.run_bind, StateT.run_modify,
          pure_bind, StateT.run_bind]
        rcases (fieldSchema rules (TypeExpr.classify declaration.generics field.type) remarks _ _).run _ with
          _ | ⟨_ | property, last⟩
        · rfl
        · rfl
        · -- Only the list of required keys looks at the type as it is written.
          simp only [Option.bind_eq_bind, Option.bind_some, hexposed]
          by_cases hrepeated :
            (Json.lookup (exposedName declaration.options field remarks ident) object.properties).isSome = true
          · rw [if_pos hrepeated, if_pos hrepeated]
            rfl
          · rw [if_neg hrepeated, if_neg hrepeated]
            rfl

/-- Wrappers are transparent in every context. Where a type inside a written type is wrapped, the whole is looked
up as before, in a field and in a comment, from every registry, and serves as the key of a map as before. A field
whose type is wrapped so adds the same property and leaves the same registry; whether it is required is the only
thing that may change. -/
theorem wrappers_transparent {generics : List String} {type type' : TypeSyntax}
    (h : TypeSyntax.Changes (TypeSyntax.Wraps generics) type type') :
    (∀ rules scope subject, resolve rules scope subject (TypeExpr.classify generics type') =
      resolve rules scope subject (TypeExpr.classify generics type)) ∧
    (∀ rules scope, strict rules scope (TypeExpr.classify generics type') =
      strict rules scope (TypeExpr.classify generics type)) ∧
    (TypeExpr.classify generics type').isTextLike = (TypeExpr.classify generics type).isTextLike ∧
    ∀ (rules : Recursion) (declaration : Declaration) (field : FieldDeclaration), declaration.generics = generics →
      field.type = type → ∀ (object : Schema) (position : Nat) (first : Registry),
        ((addField rules declaration object { field with type := type' } position).run first).map
            (Prod.map Schema.withoutRequired id) =
          ((addField rules declaration object field position).run first).map
            (Prod.map Schema.withoutRequired id) := by
  have halike := (TypeExpr.classify_wrapped h).unwrapped
  have hresolve (rules : Recursion) (scope : ModulePath) (subject : String) :
      resolve rules scope subject (TypeExpr.classify generics type') =
        resolve rules scope subject (TypeExpr.classify generics type) := by
    rw [← resolve_unwrapped, halike, resolve_unwrapped]
  refine ⟨hresolve, fun rules scope => ?_, ?_, ?_⟩
  · rw [← strict_unwrapped, halike, strict_unwrapped]
  · rw [← TypeExpr.isTextLike_unwrapped, halike, TypeExpr.isTextLike_unwrapped]
  · rintro rules declaration field rfl rfl object position first
    exact addField_retyped (hresolve rules) object position first

/-- The type `HashMap<Id, Vec<T>>` for a written type `T`. -/
def shelfOf (type : TypeSyntax) : TypeSyntax :=
  .path false [] "HashMap" [.path false [] "Id" [], .path false [] "Vec" [type]]

/-- In `HashMap<Id, Vec<Pet>>` it makes no difference that the pets are shared, although the shape tells. -/
theorem wrappers_transparent_shelf :
    let pet : TypeSyntax := .path false [] "Pet" []
    let shared : TypeSyntax := .path false ["std", "sync"] "Arc" [pet]
    TypeSyntax.Changes (TypeSyntax.Wraps ["Arc"]) (shelfOf pet) (shelfOf shared) ∧
    TypeExpr.classify ["Arc"] (shelfOf pet) = .map (.named "Id") (.array (.named "Pet")) ∧
    TypeExpr.classify ["Arc"] (shelfOf shared) = .map (.named "Id") (.array (.pointer (.named "Pet"))) ∧
    ∀ rules scope subject, resolve rules scope subject (TypeExpr.classify ["Arc"] (shelfOf shared)) =
      resolve rules scope subject (TypeExpr.classify ["Arc"] (shelfOf pet)) := by
  intro pet shared
  have hwraps : pet.Wraps ["Arc"] shared := .named pet ["std", "sync"] [] (by decide) (by simp)
  have hchanges : TypeSyntax.Changes (TypeSyntax.Wraps ["Arc"]) (shelfOf pet) (shelfOf shared) :=
    .argument false [] "HashMap" [.path false [] "Id" []] [] (.argument false [] "Vec" [] [] (.here hwraps))
  exact ⟨hchanges, rfl, rfl, (wrappers_transparent hchanges).1⟩

end Synthesis

end ApiScribe
