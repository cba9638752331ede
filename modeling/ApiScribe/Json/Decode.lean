import ApiScribe.Json.Reader

/-!
# Decoding JSON into records

A decoder takes the number of containers that may still be nested. A record is written as an object
with its fields in any order, or as an array of its fields in their fixed order. In an object unknown
members are passed over, whatever they hold, and a known field must not be repeated. In an array only
trailing fields with a default may be missing.
-/

namespace ApiScribe.Json

/-- A decoder of `α`, given how deep containers may nest. -/
abbrev Decoder (α : Type) := Nat → Tree → Option α

/-- The name of a record's field and whether it has a default. -/
structure FieldSpec where
  name : String
  hasDefault : Bool := false

namespace Decoder

/-- A text. -/
def text : Decoder String
  | _, .str value => value
  | _, _ => none

/-- A truth value. -/
def flag : Decoder Bool
  | _, .bool value => some value
  | _, _ => none

/-- Any value. -/
def value : Decoder Value := Tree.toValueWithin?

/-- A value that may be null. -/
def nullable {α : Type} (decode : Decoder α) : Decoder (Option α)
  | _, .null => some none
  | depth, tree => (decode depth tree).map some

/-- A list. -/
def listOf {α : Type} (decode : Decoder α) : Decoder (List α)
  | depth + 1, .arr items => items.mapM (decode depth)
  | _, _ => none

/-- The members of an object, repetitions included. -/
def membersOf {α : Type} (decode : Decoder α) : Decoder (List (String × α))
  | depth + 1, .obj members =>
    members.mapM fun (key, tree) => do return (← key, ← decode depth tree)
  | _, _ => none

/-- A map in order of insertion; of a repeated key the last value counts. -/
def mapOf {α : Type} (decode : Decoder α) : Decoder (List (String × α)) := fun depth tree =>
  (membersOf decode depth tree).map insertAll

/-- A word of a fixed vocabulary, which may also be written as an object with a null under it. -/
def word {α : Type} (ofName? : String → Option α) : Decoder α
  | _, .str (some name) => ofName? name
  | _ + 1, .obj [(some name, .null)] => ofName? name
  | _, _ => none

/-- The fields of a record that are present, and how deep their values may nest. -/
structure Fields where
  depth : Nat
  present : List (String × Tree)

/-- The fields of a record. -/
def fields (specs : List FieldSpec) : Decoder Fields
  | depth + 1, .obj members => do
    let keyed ← members.mapM fun (key, tree) => do return ((← key), tree)
    let known := keyed.filter fun member => specs.any fun spec => spec.name = member.1
    if (known.map Prod.fst).Nodup then some ⟨depth, known⟩ else none
  | depth + 1, .arr items =>
    if items.length ≤ specs.length && (specs.drop items.length).all FieldSpec.hasDefault then
      some ⟨depth, (specs.map FieldSpec.name).zip items⟩
    else none
  | _, _ => none

namespace Fields

/-- A field that must be there. -/
def required {α : Type} (fields : Fields) (name : String) (decode : Decoder α) : Option α :=
  (lookup name fields.present).bind (decode fields.depth)

/-- A field that may be missing or null. -/
def optional {α : Type} (fields : Fields) (name : String) (decode : Decoder α) : Option (Option α) :=
  match lookup name fields.present with
  | none => some none
  | some tree => nullable decode fields.depth tree

/-- A field that may be missing, but not null. -/
def defaulted {α : Type} (fields : Fields) (name : String) (decode : Decoder (List α)) :
    Option (List α) :=
  match lookup name fields.present with
  | none => some []
  | some tree => decode fields.depth tree

end Fields

end Decoder

mutual

/-- A value as a tree. -/
def Value.toTree : Value → Tree
  | .null => .null
  | .bool b => .bool b
  | .int n => .num (some (.int n))
  | .float x => .num (some (.float x))
  | .str s => .str (some s)
  | .arr items => .arr (itemsToTrees items)
  | .obj members => .obj (membersToTrees members)

/-- The items of an array as trees. -/
def itemsToTrees : List Value → List Tree
  | [] => []
  | item :: rest => item.toTree :: itemsToTrees rest

/-- The members of an object as trees. -/
def membersToTrees : List (String × Value) → List (Option String × Tree)
  | [] => []
  | (key, value) :: rest => (some key, value.toTree) :: membersToTrees rest

end

mutual

/-- How deep the containers of a value nest. -/
def Value.nesting : Value → Nat
  | .arr items => itemsNesting items + 1
  | .obj members => membersNesting members + 1
  | _ => 0

/-- How deep the containers among items nest. -/
def itemsNesting : List Value → Nat
  | [] => 0
  | item :: rest => max item.nesting (itemsNesting rest)

/-- How deep the containers among members nest. -/
def membersNesting : List (String × Value) → Nat
  | [] => 0
  | (_, value) :: rest => max value.nesting (membersNesting rest)

end

/-- Decode a text, whose containers may nest as deep as in any text. -/
def Decoder.ofText? {α : Type} (decode : Decoder α) (text : String) : Option α :=
  (Tree.ofText? text).bind (decode maxDepth)

/-- Decode a value, however deep its containers nest. -/
def Decoder.ofValue? {α : Type} (decode : Decoder α) (value : Value) : Option α :=
  decode value.nesting value.toTree

end ApiScribe.Json
