import ApiScribe.Json.Value

/-!
# Members of encoded objects

A member is left out of an object when its value is absent or an empty list.
-/

namespace ApiScribe.Json

/-- A member that is always written. -/
def member (key : String) (value : Value) : List (String × Value) := [(key, value)]

/-- A member that is written when the value is there. -/
def optional {α : Type} (key : String) (encode : α → Value) (value : Option α) :
    List (String × Value) :=
  match value with
  | some found => [(key, encode found)]
  | none => []

/-- A list that is written unless it is empty. -/
def unlessEmpty (key : String) (items : List Value) : List (String × Value) :=
  if items.isEmpty then [] else [(key, .arr items)]

/-- An object that is written unless it is empty. -/
def unlessEmptyObject (key : String) (members : List (String × Value)) : List (String × Value) :=
  if members.isEmpty then [] else [(key, .obj members)]

end ApiScribe.Json
