import ApiScribe.Json.Value
import ApiScribe.Yaml.Node
import ApiScribe.Yaml.Scalar

/-!
# Reading YAML

The value that a document stands for. Keys are the texts of their scalars; of two equal keys the last
value holds. Collections are nested at most 128 deep, and aliases are not followed without end.
-/

namespace ApiScribe.Yaml

open Json (Value)

/-- Integers that fit 64 bits, with or without a sign. -/
def intValue? (n : Int) : Option Value :=
  if Decimal.fitsSigned 64 n || Decimal.fitsUnsigned 64 n then some (.int n) else none

/-- The value of a plain scalar. -/
def plainValue? (text : String) : Option Value :=
  match resolve text with
  | .null => some .null
  | .bool b => some (.bool b)
  | .int n => intValue? n
  | .float x => some (.float x)
  | .notFinite => some .null
  | .text => some (.str text)

/-- Whether the characters of a text, each of which stands for a byte, are well-formed UTF-8. -/
def isUtf8 (bytes : List Char) : Bool :=
  ByteArray.validateUTF8 ⟨(bytes.map fun c => c.toNat.toUInt8).toArray⟩

/-- Whether a tag is local: what follows its `!` must be well formed. -/
def isLocalTag (tag : String) : Bool :=
  match tag.toList with
  | '!' :: bytes => isUtf8 bytes
  | _ => false

/-- The value of a scalar with a tag. Local tags have none, and one that is not well formed says nothing
of a plain scalar. -/
def taggedValue? (tag text : String) (plain : Bool) : Option Value :=
  if isLocalTag tag then none
  else if plain && Text.startsWith "!" tag then plainValue? text
  else
    match Text.dropLead "tag:yaml.org,2002:" tag with
    | some "bool" =>
      match resolve text with
      | .bool b => some (.bool b)
      | _ => none
    | some "int" => (int? text).bind intValue?
    | some "float" =>
      if notFiniteTexts.contains text then some .null else (Decimal.floatOfText? text).map .float
    | some "null" => if text ≠ "" && resolve text = .null then some .null else none
    | _ => some (.str text)

/-- The value of a scalar. -/
def scalarValue? (tag : Option String) (text : String) (plain : Bool) : Option Value :=
  match tag with
  | some tag => taggedValue? tag text plain
  | none => if plain then plainValue? text else some (.str text)

/-- How deep collections are nested. -/
def maxDepth : Nat := 128

/-- How often aliases are followed for each mark of a document. -/
def aliasesPerMark : Nat := 100

/-- Reading counts the aliases that are followed. -/
abbrev Following (α : Type) := StateT Nat Option α

/-- Follow an alias into a document. -/
def follow (root : Node) (target : Nat) : Following Node := do
  let followed ← get
  if aliasesPerMark * root.extent < followed + 1 then failure
  else
    set (followed + 1)
    root.find? target

/-- The node of a document that a node stands for. -/
def Node.within (node root : Node) : Following Node :=
  match node with
  | .reference target => follow root target
  | node => return node

/-- The text of a key. -/
def Node.keyText (node root : Node) : Following String := do
  match ← node.within root with
  | .scalar _ _ text _ => return text
  | _ => failure

/-- Whether a collection may have a tag: local tags are not for collections. -/
def allowsTag (tag : Option String) : Bool := !(tag.map isLocalTag).getD false

/-- The value of a node of a document, with collections nested at most a number of levels. -/
def Node.valueWithin (root : Node) : Nat → Node → Following Value
  | depth, node => do
    match ← node.within root with
    | .scalar _ tag text plain => scalarValue? tag text plain
    | .reference _ => failure
    | .sequence _ tag items =>
      match depth with
      | 0 => failure
      | depth + 1 =>
        if allowsTag tag then return .arr (← items.mapM (Node.valueWithin root depth)) else failure
    | .mapping _ tag entries =>
      match depth with
      | 0 => failure
      | depth + 1 =>
        if allowsTag tag then
          let members ← entries.mapM fun (key, value) => do
            let name ← key.keyText root
            return (name, ← Node.valueWithin root depth value)
          return .obj (Json.insertAll members)
        else failure

/-- Read a text that holds one document or none. -/
def read? (text : String) : Option Value := do
  match ← Node.ofText? text with
  | none => return .null
  | some root =>
    let (value, _) ← (root.valueWithin maxDepth root).run 0
    return value

end ApiScribe.Yaml
