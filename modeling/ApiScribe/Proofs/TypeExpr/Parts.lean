import ApiScribe.TypeExpr.Basic
import Mathlib.Data.List.Basic

/-!
# Changing a part of a written type

A step changes a written type as a whole. Taken in a type inside another one, at any depth, it changes that
one too. The shape of a written type is computed from the shapes of the types inside it, so what holds of the
shapes before and after the step holds of the shapes of the whole, if the ways in which shapes are put together
keep it.
-/

namespace ApiScribe

/-- The second type is the first after a step in it or in a type inside it. -/
inductive Source.TypeSyntax.Changes (step : TypeSyntax → TypeSyntax → Prop) : TypeSyntax → TypeSyntax → Prop where
  | here {type type' : TypeSyntax} (h : step type type') : Changes step type type'
  | argument {type type' : TypeSyntax} (qualified : Bool) (qualifier : List String) (name : String)
      (before after : List TypeSyntax) (h : Changes step type type') :
      Changes step (.path qualified qualifier name (before ++ type :: after))
        (.path qualified qualifier name (before ++ type' :: after))
  | reference {type type' : TypeSyntax} (h : Changes step type type') :
      Changes step (.reference type) (.reference type')
  | slice {type type' : TypeSyntax} (h : Changes step type type') : Changes step (.slice type) (.slice type')
  | array {type type' : TypeSyntax} (h : Changes step type type') : Changes step (.array type) (.array type')
  | paren {type type' : TypeSyntax} (h : Changes step type type') : Changes step (.paren type) (.paren type')
  | element {type type' : TypeSyntax} (before after : List TypeSyntax) (h : Changes step type type') :
      Changes step (.tuple (before ++ type :: after)) (.tuple (before ++ type' :: after))

namespace TypeExpr

open Source (TypeSyntax)

/-- Types are classified one by one. -/
theorem classifyAll_eq_map (generics : List String) (types : List TypeSyntax) :
    classifyAll generics types = types.map (classify generics) := by
  induction types with
  | nil => rfl
  | cons type rest ih => rw [classifyAll, ih, List.map_cons]

/-- A relation between shapes that is kept wherever shapes are put together. -/
structure Compatible (related : TypeExpr → TypeExpr → Prop) : Prop where
  refl : ∀ type, related type type
  wrap : ∀ {type type'}, related type type' → related type.wrap type'.wrap
  sequence : ∀ {type type'}, related type type' → related type.sequence type'.sequence
  key : ∀ {type type'} value, related type type' → related (.map type value) (.map type' value)
  value : ∀ {type type'} key, related type type' → related (.map key type) (.map key type')

variable {related : TypeExpr → TypeExpr → Prop} {generics : List String}

/-- What a path stands for changes with one of its arguments, or not at all. -/
theorem Compatible.ofPath (h : Compatible related) (generics qualifier : List String) (name : String)
    (before after : List TypeExpr) {type type' : TypeExpr} (htype : related type type') :
    related (ofPath generics qualifier name (before ++ type :: after))
      (ofPath generics qualifier name (before ++ type' :: after)) := by
  unfold TypeExpr.ofPath
  split
  · exact h.refl _
  · cases before with
    | nil =>
      dsimp only [List.nil_append]
      split
      · -- A wrapper shows its last argument.
        cases after with
        | nil => exact h.wrap htype
        | cons next rest => simpa only [List.getLast_cons_cons] using h.refl _
      · split
        · exact h.sequence htype
        · split
          · exact h.key _ htype
          · exact h.refl _
    | cons first middle =>
      dsimp only [List.cons_append]
      split
      · rcases List.eq_nil_or_concat after with rfl | ⟨init, last, rfl⟩
        · simpa using h.wrap htype
        · simpa using h.refl _
      · split
        · exact h.refl _
        · cases mapNames.contains name with
          | false => exact h.refl _
          | true =>
            cases middle with
            | nil => exact h.value _ htype
            | cons second middle => exact h.refl _

/-- A compatible relation that a step keeps is kept wherever the step is taken. -/
theorem Compatible.classify (h : Compatible related) {step : TypeSyntax → TypeSyntax → Prop}
    (hstep : ∀ type type', step type type' → related (classify generics type) (classify generics type'))
    {type type' : TypeSyntax} (hchanges : TypeSyntax.Changes step type type') :
    related (classify generics type) (classify generics type') := by
  induction hchanges with
  | here hhere => exact hstep _ _ hhere
  | argument qualified qualifier name before after _ ih =>
    cases qualified with
    | true => exact h.refl _
    | false =>
      simp only [TypeExpr.classify, classifyAll_eq_map, List.map_append, List.map_cons]
      exact h.ofPath _ _ _ _ _ ih
  | reference _ ih => exact h.wrap ih
  | slice _ ih => exact h.sequence ih
  | array _ ih => exact h.sequence ih
  | paren _ ih => exact ih
  | element before after _ _ =>
    -- Tuples are not looked into.
    cases before <;> exact h.refl _

end TypeExpr

end ApiScribe
