import ApiScribe.Comment.Container
import ApiScribe.Json.Value
import ApiScribe.TypeExpr.Primitive

/-!
# Schemas

A schema object of the document, with its properties in declaration order.
-/

namespace ApiScribe

/-- The values of a schema's `type`. -/
inductive SchemaKind where
  | string | integer | number | boolean | array | object
deriving DecidableEq, Repr, Inhabited

namespace SchemaKind

/-- The word written for a kind. -/
def name : SchemaKind → String
  | .string => "string"
  | .integer => "integer"
  | .number => "number"
  | .boolean => "boolean"
  | .array => "array"
  | .object => "object"

/-- The kind that a word stands for. -/
def ofName? : String → Option SchemaKind
  | "string" => some .string
  | "integer" => some .integer
  | "number" => some .number
  | "boolean" => some .boolean
  | "array" => some .array
  | "object" => some .object
  | _ => none

/-- Reading a kind's word gives it back. -/
theorem ofName?_name (kind : SchemaKind) : ofName? kind.name = some kind := by
  cases kind <;> rfl

end SchemaKind

/-- A schema object. -/
structure Schema where
  /-- A reference to a component. -/
  reference : Option String := none
  kind : Option SchemaKind := none
  format : Option String := none
  description : Option String := none
  enumValues : List Json.Value := []
  sample : Option Json.Value := none
  default : Option Json.Value := none
  nullable : Option Bool := none
  deprecated : Option Bool := none
  /-- The schema of an array's items. -/
  items : Option Schema := none
  /-- The properties of an object, in declaration order. -/
  properties : List (String × Schema) := []
  /-- The schema of a map's values. -/
  additional : Option Schema := none
  required : List String := []
  oneOf : List Schema := []
  xmlName : Option String := none
  externalDocs : Option Comment.ExternalDocs := none
deriving Repr, Inhabited

namespace Schema

/-- What stands in front of every component's name in a reference. -/
def componentsLead : String := "#/components/schemas/"

/-- A schema of a kind. -/
def ofKind (kind : SchemaKind) : Schema := { kind := some kind }

/-- A schema of a kind with a format. -/
def formatted (kind : SchemaKind) (format : String) : Schema :=
  { kind := some kind, format := some format }

/-- A reference to the component of this name. -/
def referenceTo (component : String) : Schema := { reference := some (componentsLead ++ component) }

/-- An array of items. -/
def arrayOf (items : Schema) : Schema := { kind := some .array, items := some items }

/-- A map to values. -/
def mapOf (values : Schema) : Schema := { kind := some .object, additional := some values }

/-- The schema of a primitive type. -/
def ofPrimitive : Primitive → Schema
  | .string | .char => ofKind .string
  | .i8 | .i16 | .i32 | .u8 | .u16 | .u32 => formatted .integer "int32"
  | .i64 | .i128 | .isize | .u64 | .u128 | .usize => formatted .integer "int64"
  | .f32 => formatted .number "float"
  | .f64 => formatted .number "double"
  | .bool => ofKind .boolean
  | .bytes => formatted .string "byte"
  | .dateTime => formatted .string "date-time"
  | .date => formatted .string "date"
  | .uuid => formatted .string "uuid"

end Schema

end ApiScribe
