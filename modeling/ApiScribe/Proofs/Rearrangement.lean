import Mathlib.Data.List.FinRange
import Mathlib.Data.List.Sort

/-!
# Entries that are put into a record field by field

A record is the fold of a list of entries, each of which writes some of its fields. Every field comes from the
entries that write it, so the whole record depends on the order of entries only where two of them write the same
field.
-/

namespace ApiScribe

/-- The second list has the entries of the first in other places. Of two entries that are tied, the one that comes
first stays in front of the other. -/
def Rearranges {α : Type} (tied : α → α → Prop) (first last : List α) : Prop :=
  ∃ place : Fin first.length ≃ Fin last.length,
    (∀ i, last.get (place i) = first.get i) ∧
      ∀ i j, i < j → tied (first.get i) (first.get j) → place i < place j

section Order

variable {α : Type} (p : α → Bool)

/-- The first two of three entries may change places when they are not tied. -/
theorem Rearranges.swap {tied : α → α → Prop} {a b c : α} (h : ¬ tied a b) :
    Rearranges tied [a, b, c] [b, a, c] := by
  have horder : ∀ i j : Fin 3, i < j → ¬ (i = 0 ∧ j = 1) →
      Equiv.swap (0 : Fin 3) 1 i < Equiv.swap 0 1 j := by decide
  refine ⟨Equiv.swap (0 : Fin 3) 1, fun i => ?_, fun i j hlt htied => horder i j hlt ?_⟩
  · match i with
    | 0 | 1 | 2 => rfl
  · rintro ⟨rfl, rfl⟩
    exact h htied

end Order

/-- A field of a record. -/
structure Projection (Record : Type) where
  Value : Type
  get : Record → Value

namespace Projection

variable {Record Entry : Type} (put : Record → Entry → Record)

namespace Separate

variable {put} {fields : List (Projection Record)}

end Separate

end Projection

end ApiScribe
