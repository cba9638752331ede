import ApiScribe.Finding
import ApiScribe.Json.Value

/-!
# Laying override documents over a document

The document stays authoritative: an override's value is taken only where the document holds
nothing or an empty value. Objects are merged key by key. Where both hold non-empty values of
different kinds the document's value is kept and a warning names the place by its JSON pointer.
-/

namespace ApiScribe.Overlay

open Json (Value)

/-- Whether a value is `null` or an empty text, array or object. -/
def isEmpty : Value → Bool
  | .null => true
  | .str s => s = ""
  | .arr items => items.isEmpty
  | .obj members => members.isEmpty
  | _ => false

/-- The kinds of JSON values. -/
inductive Kind where
  | null | bool | number | text | array | object
deriving DecidableEq, Repr

/-- The kind of a value. -/
def kindOf : Value → Kind
  | .null => .null
  | .bool _ => .bool
  | .int _ => .number
  | .float _ => .number
  | .str _ => .text
  | .arr _ => .array
  | .obj _ => .object

/-- A kind with its article. -/
def Kind.phrase : Kind → String
  | .null => "null"
  | .bool => "a boolean"
  | .number => "a number"
  | .text => "a string"
  | .array => "an array"
  | .object => "an object"

/-- A key as a token of a JSON pointer. -/
def escapeToken (key : String) : String :=
  Text.replaceChar '/' "~1" (Text.replaceChar '~' "~0" key)

/-- The pointer of a member. -/
def childPointer (pointer key : String) : String :=
  pointer ++ "/" ++ escapeToken key

/-- A pointer as a subject; the whole document is `/`. -/
def pointerSubject (pointer : String) : String :=
  if pointer = "" then "/" else pointer

mutual

/-- Lay one value over another. -/
def merge (pointer : String) : (base overlay : Value) → Value × List Finding
  | .obj (member :: members), .obj entries =>
    let (merged, findings) := mergeMembers pointer (member :: members) entries
    (.obj merged, findings)
  | base, overlay =>
    if isEmpty base then (overlay, [])
    else if isEmpty overlay || kindOf base == kindOf overlay then (base, [])
    else
      (base, [⟨pointerSubject pointer, .overrideKind (kindOf overlay).phrase (kindOf base).phrase⟩])

/-- Lay the members of an object, one after the other, over those of another. -/
def mergeMembers (pointer : String) (members : List (String × Value)) :
    (entries : List (String × Value)) → List (String × Value) × List Finding
  | [] => (members, [])
  | (key, value) :: rest =>
    match Json.lookup key members with
    | some existing =>
      let (merged, findings) := merge (childPointer pointer key) existing value
      let (members, more) := mergeMembers pointer (Json.insert key merged members) rest
      (members, findings ++ more)
    | none => mergeMembers pointer (members ++ [(key, value)]) rest

end

/-- Lay several documents over one, in order. -/
def mergeAll (base : Value) (overlays : List Value) : Value × List Finding :=
  overlays.foldl (fun (merged, findings) overlay =>
    let (merged, more) := merge "" merged overlay
    (merged, findings ++ more)) (base, [])

end ApiScribe.Overlay
